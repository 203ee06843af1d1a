import GoodNet.HonestNode
set_option autoImplicit false

/-! Two managers that dial each other: what one hands to its connector the other receives,
and a connection that either closes is reported to both. -/

namespace GoodNet
open Codec

/-- Two nodes before they dial each other. A connection bears the name of the node that
dials it; `first` says whether a node registers the one it dials before the one it accepts. -/
structure Setting where
  sodium : Sodium
  world : Bool → Env
  ops : Bool → ConnectorOps
  before : Bool → Impl
  dials : Bool → Endpoint
  accepts : Bool → Endpoint
  first : Bool → Bool

/-- Both nodes use the same library. -/
def Setting.env (P : Setting) (n : Bool) : Env := { P.world n with sodium := P.sodium }

def Setting.identity (P : Setting) (n : Bool) : NodeIdentity := (P.before n).identity

/-- The key of the other node in `pk_index_`. -/
def Setting.peerHex (P : Setting) (n : Bool) : String :=
  bytesToHex (P.identity (!n)).userPubkey.bytes

/-- The id of connection `c` at node `n`. -/
def Setting.id (P : Setting) (c n : Bool) : Nat :=
  if (c == n) = P.first n then (P.before n).nextId else (P.before n).nextId+1

def Setting.endpoint (P : Setting) (c n : Bool) : Endpoint :=
  if c = n then P.dials n else P.accepts n

/-- The connection an id stands for. -/
def Setting.line (P : Setting) (n : Bool) (via : Nat) : Option Bool :=
  if via = P.id true n then some true else if via = P.id false n then some false else none

/-- The two nodes, the frames on their way along a connection to a node, and the ends that
are still to hear of a close. -/
structure Net where
  node : Bool → Impl
  flight : Bool → Bool → List Bytes
  notice : Bool → Bool → Bool

def Net.setNode (n : Bool) (st : Impl) (net : Net) : Net :=
  { net with node := fun m => if m = n then st else net.node m }

def Net.setFlight (c n : Bool) (frames : List Bytes) (net : Net) : Net :=
  { net with flight := fun d m => if d = c ∧ m = n then frames else net.flight d m }

def Net.setNotice (c n told : Bool) (net : Net) : Net :=
  { net with notice := fun d m => if d = c ∧ m = n then told else net.notice d m }

def Net.post (c n : Bool) (frames : List Bytes) (net : Net) : Net :=
  net.setFlight c n (net.flight c n ++ frames)

def Net.hangUp (c : Bool) (net : Net) : Net :=
  (net.setNotice c true true).setNotice c false true

/-- What a connector does with a request of node `n`. -/
def Net.absorb (P : Setting) (n : Bool) (e : Effect) (net : Net) : Net :=
  match e with
  | .sendTo _ via _ frame true => (P.line n via).elim net (fun c => net.post c (!n) [frame])
  | .sendGather _ via _ frames true => (P.line n via).elim net (fun c => net.post c (!n) frames)
  | .close _ via => (P.line n via).elim net net.hangUp
  | .closeNow _ via => (P.line n via).elim net net.hangUp
  | _ => net

/-- Node `n` goes to a new state; its new requests, oldest first, reach the connectors. -/
def Net.become (P : Setting) (n : Bool) (st : Impl) (net : Net) : Net :=
  (st.outbox.take (st.outbox.length-(net.node n).outbox.length)).foldr (Net.absorb P n)
    (net.setNode n st)

def Setting.connect (P : Setting) (n c : Bool) (st : Impl) : Impl :=
  (st.handleConnect (P.env n) (P.endpoint c n)).1

/-- Node `n` registers both connections. -/
def Setting.opened (P : Setting) (n : Bool) : Impl :=
  let c := n == P.first n
  P.connect n (!c) (P.connect n c (P.before n))

def Net.opening (P : Setting) : Net :=
  let idle : Net := ⟨P.before,fun _ _ => [],fun _ _ => false⟩
  (idle.become P true (P.opened true)).become P false (P.opened false)

/-- The next frame on a connection reaches a node, or word of its close does. -/
inductive Delivery where
  | frame (c n : Bool)
  | notice (c n : Bool)
  deriving DecidableEq, Repr

def Net.deliver (P : Setting) (net : Net) : Delivery → Net
  | .frame c n =>
    match net.flight c n with
    | [] => net
    | frame :: rest =>
      (net.setFlight c n rest).become P n ((Event.dispatch (P.id c n) (Header.decode frame)
        (frame.drop headerSize)).step (P.env n) (net.node n))
  | .notice c n =>
    if net.notice c n then
      (net.setNotice c n false).become P n
        ((Event.disconnected (P.id c n)).step (P.env n) (net.node n))
    else net

def Net.run (P : Setting) (net : Net) (ds : List Delivery) : Net := ds.foldl (Net.deliver P) net

/-- No frame is on its way, and both ends know of every close. -/
def Net.Quiet (net : Net) : Prop := ∀ c n, net.flight c n = [] ∧ net.notice c n = false

/-- Connection `c` is established at both ends and both know the peer by it. -/
def Net.Joined (P : Setting) (net : Net) (c : Bool) : Prop :=
  ∀ n, (∃ r, (net.node n).find (P.id c n) = some r ∧ r.established = true) ∧
    (net.node n).pkIndex.lookup (P.peerHex n) = some (P.id c n)

/-- The last frame of connection `c` reaches a node that knows the peer by the other
connection: then the other node still has that one. -/
def Net.backed (P : Setting) (net : Net) : Delivery → Bool
  | .frame c n =>
    match net.flight c n with
    | [] => true
    | frame :: _ =>
      if (Header.decode frame).type = msgTypeNoiseFin ∧
          (net.node n).pkIndex.lookup (P.peerHex n) = some (P.id (!c) n) then
        ((net.node (!n)).find (P.id (!c) (!n))).isSome
      else true
  | .notice .. => true

/-- The condition at every delivery of a run. -/
def Net.backedRun (P : Setting) (net : Net) : List Delivery → Bool
  | [] => true
  | d :: ds => net.backed P d && (net.deliver P d).backedRun P ds

/-- What the two nodes start from: lawful keys, connectors that lose nothing, no connection
between them yet. -/
structure Setting.Lawful (P : Setting) : Prop where
  sodium : P.sodium.Lawful
  identity : ∀ n, (P.identity n).Lawful P.sodium
  reliable : ∀ n, (P.env n).Reliable
  ready : ∀ n, (P.before n).Ready (P.identity n) (P.ops n)
  closes : ∀ n, (P.ops n).hasCloseNow = true
  dials : ∀ n, (P.dials n).outbound = true
  accepts : ∀ n, (P.accepts n).outbound = false
  strangers : ∀ n, (P.before n).pkIndex.lookup (P.peerHex n) = none

section
variable {P : Setting} {net : Net}

theorem Setting.id_ne (P : Setting) (c n : Bool) : P.id (!c) n ≠ P.id c n := by
  unfold Setting.id
  cases c <;> cases n <;> cases P.first _ <;> simp

theorem Setting.line_id (P : Setting) (c n : Bool) : P.line n (P.id c n) = some c := by
  have hne := P.id_ne true n
  unfold Setting.line
  cases c with
  | true => simp
  | false => simpa using hne

@[simp] theorem Net.setNode_self (n : Bool) (st : Impl) : (net.setNode n st).node n = st := by
  simp [setNode]

@[simp] theorem Net.setNode_other (n : Bool) (st : Impl) :
    (net.setNode n st).node (!n) = net.node (!n) := by
  simp [setNode]

@[simp] theorem Net.setNode_flight (n : Bool) (st : Impl) :
    (net.setNode n st).flight = net.flight := rfl

@[simp] theorem Net.setNode_notice (n : Bool) (st : Impl) :
    (net.setNode n st).notice = net.notice := rfl

@[simp] theorem Net.setFlight_node (c n : Bool) (frames : List Bytes) :
    (net.setFlight c n frames).node = net.node := rfl

@[simp] theorem Net.setFlight_flight (c n d m : Bool) (frames : List Bytes) :
    (net.setFlight c n frames).flight d m = if d = c ∧ m = n then frames else net.flight d m := rfl

@[simp] theorem Net.setFlight_notice (c n : Bool) (frames : List Bytes) :
    (net.setFlight c n frames).notice = net.notice := rfl

@[simp] theorem Net.setNotice_node (c n told : Bool) :
    (net.setNotice c n told).node = net.node := rfl

@[simp] theorem Net.setNotice_flight (c n told : Bool) :
    (net.setNotice c n told).flight = net.flight := rfl

@[simp] theorem Net.setNotice_notice (c n d m told : Bool) :
    (net.setNotice c n told).notice d m = if d = c ∧ m = n then told else net.notice d m := rfl

@[simp] theorem Net.post_node (c n : Bool) (frames : List Bytes) :
    (net.post c n frames).node = net.node := rfl

@[simp] theorem Net.post_flight (c n d m : Bool) (frames : List Bytes) :
    (net.post c n frames).flight d m =
      if d = c ∧ m = n then net.flight c n ++ frames else net.flight d m := rfl

theorem Net.post_nil (c n : Bool) (net : Net) : net.post c n [] = net := by
  have hsame : (fun d m => if d = c ∧ m = n then net.flight c n ++ [] else net.flight d m) =
      net.flight := by
    funext d m
    by_cases h : d = c ∧ m = n
    · simp [h]
    · simp [h]
  show ({ net with flight := _ } : Net) = net
  rw [hsame]

@[simp] theorem Net.post_notice (c n : Bool) (frames : List Bytes) :
    (net.post c n frames).notice = net.notice := rfl

@[simp] theorem Net.hangUp_node (c : Bool) : (net.hangUp c).node = net.node := rfl

@[simp] theorem Net.hangUp_flight (c : Bool) : (net.hangUp c).flight = net.flight := rfl

@[simp] theorem Net.hangUp_notice (c d m : Bool) :
    (net.hangUp c).notice d m = if d = c then true else net.notice d m := by
  cases m <;> simp [hangUp]

theorem Net.absorb_sendTo (c n : Bool) (owner : ConnectionRecord) (scheme : String)
    (frame : Bytes) :
    net.absorb P n (.sendTo owner (P.id c n) scheme frame true) = net.post c (!n) [frame] := by
  simp [absorb,P.line_id]

theorem Net.absorb_closeNow (c n : Bool) (scheme : String) :
    net.absorb P n (.closeNow scheme (P.id c n)) = net.hangUp c := by
  simp [absorb,P.line_id]

theorem Net.become_eq {n : Bool} {st : Impl} {new : List Effect}
    (h : st.outbox = new ++ (net.node n).outbox) :
    net.become P n st = new.foldr (Net.absorb P n) (net.setNode n st) := by
  unfold become
  rw [h,List.length_append,Nat.add_sub_cancel,List.take_left]

end

end GoodNet
