import GoodNet.SendVerdict
import GoodNet.FinalizeRace
set_option autoImplicit false

/-! Messages that `send` accepts for a URI before its connection is up. They wait in
`pending_messages_` under the text of the URI; `finalize_handshake` flushes what waits under
the address of the peer. The check whether the connection is up, the append, the commit, the
flush and each of its frames are steps that other threads may come in between of. -/

namespace GoodNet
open Codec Interleaving History

/-- The key of a URI in `pending_messages_`. -/
def uriKey (uri : String) : String := (splitUri uri).2

/-- A message that `send` has accepted: its number among all of them, the URI it is for, and
whether it was queued or sent at once. -/
structure Ticket where
  number : Nat
  uri : String
  message : PendingMessage
  queued : Bool
  deriving DecidableEq, Repr

def Ticket.key (t : Ticket) : String := uriKey t.uri

/-- What the first part of `send` finds. -/
inductive UriCheck where
  | absent
  | notReady
  | ready (id : Nat)
  deriving DecidableEq, Repr

/-- A call between the check and what follows from it. -/
structure UriCall where
  thread : Nat
  uri : String
  msgType : UInt32
  payload : Bytes
  found : UriCheck
  deriving DecidableEq, Repr

/-- A call of `finalize_handshake` after its commit: before the flush has taken the queue, or
with the messages it has still to send. -/
structure PendingFlush where
  id : Nat
  key : String
  taken : Bool := false
  messages : List PendingMessage := []
  tickets : List Ticket := []
  deriving DecidableEq, Repr

/-- The manager with the calls in progress. What follows is a record of the run: the URI each
connection was opened for, and the tickets that have been given out, that wait, that have been
sent, with the connection, and that a timeout or a disconnect has dropped. -/
structure UriTraffic where
  st : Impl
  calls : List UriCall := []
  rejected : List (Nat × ConnectionRecord) := []
  flushes : List PendingFlush := []
  opened : Table Nat String := ∅
  accepted : List Ticket := []
  waiting : List Ticket := []
  sent : List (Nat × Ticket) := []
  dropped : List Ticket := []

inductive UriStep where
  | check (thread : Nat) (uri : String) (msgType : UInt32) (payload : Bytes)
  | append (thread : Nat)
  | direct (thread : Nat)
  | connected (uri : String) (ep : Endpoint)
  | frame (id : Nat) (msgType : UInt32) (payload : Bytes)
  | noise (id : Nat) (hs : Noise.HandshakeState)
  | authenticated (id : Nat) (hp : HandshakePayload) (schemes : List String)
  | finalize (id : Nat)
  | remove (id : Nat)
  | take (id : Nat)
  | sendNext (id : Nat)
  | disconnected (id : Nat)
  | expire (now : Nat) (key : String)

/-- `send` up to the branch it takes; `none` when it gives up. -/
def Impl.checkUri (st : Impl) (uri : String) (msgType : UInt32) : Option UriCheck :=
  if uri = "" ∨ st.shuttingDown then none
  else
    match st.resolveUri uri with
    | none => some .absent
    | some id =>
      match st.find id with
      | none => none
      | some r =>
        if !r.established && !isHandshakeType msgType then some .notReady else some (.ready id)

/-- The connector is asked for a connection that is not there. -/
def Impl.requestUri (st : Impl) (found : UriCheck) (uri : String) : Impl :=
  match found, st.findConnector (splitUri uri).1 with
  | .absent, some _ => st.emit (.connect (splitUri uri).1 uri)
  | _, _ => st

/-- What waits under a key; a queue that is not there is empty. -/
def Impl.pendingFor (st : Impl) (key : String) : List PendingMessage :=
  (st.pendingMessages.lookup key).getD []

/-- What `cleanup_stale_pending` does to one queue. -/
def Impl.expire (st : Impl) (now : Nat) (key : String) : Impl :=
  match st.pendingMessages.lookup key with
  | none => st
  | some queue =>
    let kept := queue.filter (fun m => decide (now-m.queuedAt ≤ pendingTtl))
    if kept.isEmpty then { st with pendingMessages := st.pendingMessages.erase key }
    else { st with pendingMessages := st.pendingMessages.insert key kept }

namespace UriTraffic

/-- The next ticket. -/
def issue (s : UriTraffic) (c : UriCall) (queuedAt : Nat) (queued : Bool) : Ticket :=
  ⟨s.accepted.length,c.uri,⟨c.msgType,c.payload,queuedAt⟩,queued⟩

def waitingFor (s : UriTraffic) (key : String) : List Ticket :=
  s.waiting.filter (fun t => t.key == key)

/-- The connection was opened for the URI, and there is no other that was. -/
def soleFor (s : UriTraffic) (id : Nat) (uri : String) : Bool :=
  s.opened.lookup id == some uri &&
    s.opened.entries.all (fun e => e.1 == id || e.2 != uri || (s.st.find e.1).isNone)

/-- The rest of a call that found no connection, or one that is not up. -/
def appendCall (env : Env) (s : UriTraffic) (c : UriCall) : UriTraffic :=
  let queued := s.st.enqueuePending env (uriKey c.uri) c.msgType c.payload
  if queued.2 then
    let t := s.issue c (env.steady s.st.asked) true
    { s with
      st := queued.1.requestUri c.found c.uri,
      accepted := s.accepted ++ [t],
      waiting := s.waiting ++ [t] }
  else { s with st := queued.1 }

/-- The rest of a call that found its connection up. -/
def directCall (env : Env) (s : UriTraffic) (c : UriCall) (id : Nat) : UriTraffic :=
  if globalMaxInFlight < s.st.getPendingBytes+c.payload.length then
    { s with st := s.st.emit (.stat .backpressure 1 id) }
  else
    let d := s.st.sendParts env id c.msgType (fun _ => {}) ((SendCall.byUri c.uri).parts c.payload)
    let t := s.issue c 0 false
    { s with
      st := d.1,
      accepted := s.accepted ++ [t],
      sent := if d.2.any Option.isSome then s.sent ++ [(id,t)] else s.sent }

/-- `flush_pending_messages` up to its loop. -/
def takeQueue (s : UriTraffic) (f : PendingFlush) (rest : List PendingFlush) : UriTraffic :=
  match s.st.pendingMessages.lookup f.key with
  | none | some [] => { s with flushes := rest }
  | some messages =>
    { s with
      st := { s.st with pendingMessages := s.st.pendingMessages.erase f.key },
      waiting := s.waiting.filter (fun t => t.key != f.key),
      flushes := { f with
        taken := true, messages := messages, tickets := s.waitingFor f.key } :: rest }

/-- One round of the loop. Without its connection a message is dropped. -/
def sendOne (env : Env) (s : UriTraffic) (f : PendingFlush) (rest : List PendingFlush) :
    UriTraffic :=
  match f.messages with
  | [] => { s with flushes := rest }
  | m :: messages =>
    let d := s.st.sendPart env {} f.id m.msgType m.payload
    { s with
      st := d.1,
      flushes := { f with messages := messages, tickets := f.tickets.tail } :: rest,
      sent := if d.2.isSome then s.sent ++ (f.tickets.head?.map (fun t => (f.id,t))).toList
        else s.sent,
      dropped := if (s.st.find f.id).isNone then s.dropped ++ f.tickets.head?.toList
        else s.dropped }

/-- A step that its thread cannot take leaves everything as it is. `handle_connect` is
`connected` and, for the first Noise message, `frame`, which is any other call of `send_frame`;
a Noise message that is read or written leaves the handshake in some other state; `close_now`
leaves it to `disconnected` to report back; `cleanup_stale_pending` is a number of `expire` with
one reading of the clock. -/
def act (env : Env) (s : UriTraffic) : UriStep → UriTraffic
  | .check thread uri msgType payload =>
    if s.calls.any (fun c => c.thread == thread) then s
    else
      match s.st.checkUri uri msgType with
      | none => s
      | some found => { s with calls := ⟨thread,uri,msgType,payload,found⟩ :: s.calls }
  | .append thread =>
    match pick (fun c => c.thread == thread) s.calls with
    | none => s
    | some (c,rest) =>
      match c.found with
      | .absent | .notReady => ({ s with calls := rest } : UriTraffic).appendCall env c
      | .ready _ => s
  | .direct thread =>
    match pick (fun c => c.thread == thread) s.calls with
    | none => s
    | some (c,rest) =>
      match c.found with
      | .absent | .notReady => s
      | .ready id => ({ s with calls := rest } : UriTraffic).directCall env c id
  | .connected uri ep =>
    if s.st.shuttingDown then s
    else
      { s with
        st := s.st.openConnection env ep,
        opened := s.opened.insert s.st.nextId uri }
  | .frame id msgType payload => { s with st := s.st.sendFrame env id msgType payload }
  | .noise id hs =>
    { s with st := s.st.modify id (fun r => if r.handshake.isSome then r.withHandshake hs else r) }
  | .authenticated id hp schemes =>
    { s with st := s.st.modify id (s.st.authenticate hp schemes) }
  | .finalize id =>
    match s.st.find id with
    | none => s
    | some r =>
      match r.handshake with
      | none => s
      | some hs =>
        if s.st.isDuplicate id r then { s with rejected := (id,r) :: s.rejected }
        else
          { s with
            st := s.st.commitSession env id r hs,
            flushes := ⟨id,r.remote.key,false,[],[]⟩ :: s.flushes }
  | .remove id =>
    match pick (fun c => c.1 == id) s.rejected with
    | none => s
    | some (c,rest) => { s with st := s.st.removeDuplicate id c.2, rejected := rest }
  | .take id =>
    match pick (fun f => f.id == id && !f.taken) s.flushes with
    | none => s
    | some (f,rest) => s.takeQueue f rest
  | .sendNext id =>
    match pick (fun f => f.id == id && f.taken) s.flushes with
    | none => s
    | some (f,rest) => s.sendOne env f rest
  | .disconnected id =>
    let st := s.st.handleDisconnect id
    { s with
      st := st,
      waiting := s.waiting.filter (fun t => (st.pendingMessages.lookup t.key).isSome),
      dropped := s.dropped ++ s.waiting.filter (fun t =>
        (st.pendingMessages.lookup t.key).isNone && s.soleFor id t.uri) }
  | .expire now key =>
    { s with
      st := s.st.expire now key,
      waiting := s.waiting.filter (fun t =>
        t.key != key || decide (now-t.message.queuedAt ≤ pendingTtl)),
      dropped := s.dropped ++ s.waiting.filter (fun t =>
        t.key == key && !decide (now-t.message.queuedAt ≤ pendingTtl)) }

def run (env : Env) (s : UriTraffic) (steps : List UriStep) : UriTraffic :=
  Interleaving.run (act env) s steps

end UriTraffic

section
variable {env : Env} {st st' : Impl} {key : String}

theorem Impl.sendEach_pending (st : Impl) (owner : ConnectionRecord) (via : Nat) (scheme : String)
    (frames : List Bytes) :
    (st.sendEach env owner via scheme frames).1.pendingMessages = st.pendingMessages := by
  induction frames generalizing st with
  | nil => rfl
  | cons f frames ih =>
    simp only [sendEach]
    rw [ih]
    split
    · rfl
    · rfl

theorem Impl.flushFrames_pending (st : Impl) (owner : ConnectionRecord) (via : Nat) (scheme : String)
    (ops : ConnectorOps) (frames : List Bytes) :
    (st.flushFramesToConnector env owner via scheme ops frames).1.pendingMessages =
      st.pendingMessages := by
  simp only [flushFramesToConnector]
  split
  · rfl
  · split
    · split
      · rfl
      · rfl
    · exact st.sendEach_pending owner via scheme frames

theorem Impl.tryPaths_pending (st : Impl) (id : Nat) (owner : ConnectionRecord) (batch : List Bytes)
    (paths : List TransportPath) :
    (st.tryPaths env id owner batch paths).1.pendingMessages = st.pendingMessages := by
  induction paths generalizing st with
  | nil => rfl
  | cons p paths ih =>
    simp only [tryPaths]
    split
    · exact ih st
    · split
      · exact st.flushFrames_pending owner _ _ _ batch
      · rw [ih]
        exact st.flushFrames_pending owner _ _ _ batch

theorem Impl.flushQueue_pending (st : Impl) (id : Nat) :
    (st.flushQueue env id).pendingMessages = st.pendingMessages := by
  unfold flushQueue
  split
  · rfl
  · split
    · rename_i r q _ _
      dsimp only
      have htried : ((st.setQueue id (q.drainBatch 64).1).tryPaths env id r (q.drainBatch 64).2
          r.activePaths).1.pendingMessages = st.pendingMessages :=
        tryPaths_pending _ id r (q.drainBatch 64).2 r.activePaths
      split
      · rfl
      · split
        · exact htried
        · split
          · rw [flushFrames_pending]
            exact htried
          · exact htried
    · rfl

/-- `send_frame` leaves the pending messages alone. -/
theorem Impl.sendFrame_pending (st : Impl) (id : Nat) (msgType : UInt32) (payload : Bytes) :
    (st.sendFrame env id msgType payload).pendingMessages = st.pendingMessages := by
  have hbuilt : (st.buildFrame env id msgType payload).1.pendingMessages = st.pendingMessages := by
    unfold buildFrame
    split
    · rfl
    · rfl
  have hqueue : ∀ st : Impl, (st.getOrCreateQueue id).1.pendingMessages = st.pendingMessages := by
    intro st
    unfold getOrCreateQueue
    split
    · rfl
    · rfl
  unfold sendFrame
  split
  · rfl
  · dsimp only
    split
    · exact hbuilt
    · unfold pushAndFlush
      dsimp only
      split
      · rw [flushQueue_pending]
        exact (hqueue _).trans hbuilt
      · exact (hqueue _).trans hbuilt

/-- No record has come or moved on, and the pending messages are what they were. -/
structure Impl.Calm (st st' : Impl) : Prop where
  keeps : Impl.Keeps ConnectionRecord.settling st st'
  nextId : st'.nextId = st.nextId
  pending : ∀ key, st'.pendingFor key = st.pendingFor key

theorem Impl.pendingFor_congr (h : st'.pendingMessages = st.pendingMessages) (key : String) :
    st'.pendingFor key = st.pendingFor key := by
  rw [pendingFor,pendingFor,h]

theorem Impl.Calm.refl (st : Impl) : Impl.Calm st st := ⟨Keeps.refl st,rfl,fun _ => rfl⟩

theorem Impl.Calm.trans {st'' : Impl} (h : Impl.Calm st st') (h' : Impl.Calm st' st'') :
    Impl.Calm st st'' :=
  ⟨h.keeps.trans h'.keeps,h'.nextId.trans h.nextId,
    fun key => (h'.pending key).trans (h.pending key)⟩

theorem Impl.sendFrame_calm (st : Impl) (id : Nat) (msgType : UInt32) (payload : Bytes) :
    Impl.Calm st (st.sendFrame env id msgType payload) :=
  ⟨((st.sendFrame_outward env id msgType payload).agrees (fun _ => rfl)).keeps,
    (st.sendFrame_outward env id msgType payload).nextId,
    pendingFor_congr (st.sendFrame_pending id msgType payload)⟩

theorem Impl.sendParts_calm (st : Impl) (id : Nat) (msgType : UInt32) (parts : List Bytes) :
    Impl.Calm st (st.sendParts env id msgType (fun _ => {}) parts).1 := by
  rw [sendParts_alone]
  induction parts generalizing st with
  | nil => exact Calm.refl st
  | cons part parts ih => exact (st.sendFrame_calm id msgType part).trans (ih _)

theorem Impl.authenticate_calm (st : Impl) (id : Nat) (hp : HandshakePayload)
    (schemes : List String) : Impl.Calm st (st.modify id (st.authenticate hp schemes)) := by
  refine ⟨(Agrees.modify id (fun r => ?_)).keeps,rfl,fun _ => rfl⟩
  obtain ⟨hh,_,hstate,_⟩ := st.authenticate_keeps hp schemes r
  simp [ConnectionRecord.settling,hh,hstate]

theorem Impl.withNoise_calm (st : Impl) (id : Nat) (hs : Noise.HandshakeState) :
    Impl.Calm st (st.modify id (fun r => if r.handshake.isSome then r.withHandshake hs else r)) := by
  refine ⟨(Agrees.modify id (fun r => ?_)).keeps,rfl,fun _ => rfl⟩
  cases hr : r.handshake with
  | none => rfl
  | some hs' => simp [ConnectionRecord.settling,ConnectionRecord.withHandshake,hr]

theorem Impl.removeDuplicate_calm (st : Impl) (id : Nat) (r : ConnectionRecord) :
    Impl.Calm st (st.removeDuplicate id r) :=
  ⟨st.removeDuplicate_keeps id r,rfl,fun _ => rfl⟩

/-- A disconnect drops what waits under the address of the connection that goes. -/
theorem Impl.handleDisconnect_pending (st : Impl) (id : Nat) :
    (st.handleDisconnect id).pendingMessages = st.pendingMessages ∨
      ∃ r, st.find id = some r ∧
        (st.handleDisconnect id).pendingMessages = st.pendingMessages.erase r.remote.key := by
  rcases st.handleDisconnect_cases id with ⟨peer,_,h⟩ | ⟨_,_,h⟩ | ⟨_,r,hr,h⟩
  · left
    rw [h]
    unfold dropTransport
    dsimp only
    split
    · rfl
    · split
      · rfl
      · split
        · rfl
        · rfl
  · left
    rw [h]
    rfl
  · right
    refine ⟨r,hr,?_⟩
    rw [h]
    rfl

theorem Impl.pendingFor_erase (h : st'.pendingMessages = st.pendingMessages.erase key) (k : String) :
    st'.pendingFor k = if k = key then [] else st.pendingFor k := by
  unfold pendingFor
  rw [h]
  split
  · rename_i hk
    rw [hk,AList.lookup_erase]
    rfl
  · rename_i hk
    rw [AList.lookup_erase_ne hk]

theorem Impl.pendingFor_insert {queue : List PendingMessage}
    (h : st'.pendingMessages = st.pendingMessages.insert key queue) (k : String) :
    st'.pendingFor k = if k = key then queue else st.pendingFor k := by
  unfold pendingFor
  rw [h]
  split
  · rename_i hk
    rw [hk,AList.lookup_insert]
    rfl
  · rename_i hk
    rw [AList.lookup_insert_ne hk]

/-- A message that is taken in is the last under its key. -/
theorem Impl.enqueuePending_pending (env : Env) (st : Impl) (key : String) (msgType : UInt32)
    (payload : Bytes) (k : String) :
    (st.enqueuePending env key msgType payload).1.pendingFor k = st.pendingFor k ++
      if (st.enqueuePending env key msgType payload).2 = true ∧ key = k then
        [⟨msgType,payload,env.steady st.asked⟩] else [] := by
  have hqueue : (st.pendingMessages.lookup key).getD [] = st.pendingFor key := rfl
  unfold enqueuePending
  dsimp only
  rw [hqueue]
  split
  · rw [pendingFor_insert rfl]
    split
    · rename_i hk
      simp [hk]
    · simp
  · rw [pendingFor_insert rfl]
    split
    · rename_i hk
      simp [hk]
    · rename_i hk
      have hne : ¬ key = k := fun he => hk he.symm
      simp [hne,pendingFor]

theorem Impl.enqueuePending_keeps (env : Env) (st : Impl) (key : String) (msgType : UInt32)
    (payload : Bytes) :
    Impl.Keeps ConnectionRecord.settling st (st.enqueuePending env key msgType payload).1 ∧
      (st.enqueuePending env key msgType payload).1.nextId = st.nextId := by
  unfold enqueuePending
  dsimp only
  split
  · exact ⟨Keeps.of_records rfl,rfl⟩
  · exact ⟨Keeps.of_records rfl,rfl⟩

theorem Impl.requestUri_calm (st : Impl) (found : UriCheck) (uri : String) :
    Impl.Calm st (st.requestUri found uri) := by
  unfold requestUri
  split
  · exact ⟨Keeps.of_records rfl,rfl,fun _ => rfl⟩
  · exact Calm.refl st

theorem Impl.expire_keeps (st : Impl) (now : Nat) (key : String) :
    Impl.Keeps ConnectionRecord.settling st (st.expire now key) ∧
      (st.expire now key).nextId = st.nextId := by
  unfold expire
  split
  · exact ⟨Keeps.refl st,rfl⟩
  · dsimp only
    split
    · exact ⟨Keeps.of_records rfl,rfl⟩
    · exact ⟨Keeps.of_records rfl,rfl⟩

theorem Impl.expire_pending (st : Impl) (now : Nat) (key k : String) :
    (st.expire now key).pendingFor k = if k = key then
      (st.pendingFor key).filter (fun m => decide (now-m.queuedAt ≤ pendingTtl))
        else st.pendingFor k := by
  unfold expire
  split
  · rename_i hnone
    split
    · rename_i hk
      rw [hk]
      simp [pendingFor,hnone]
    · rfl
  · rename_i queue hqueue
    have hq : st.pendingFor key = queue := by simp [pendingFor,hqueue]
    dsimp only
    rw [hq]
    split
    · rename_i hempty
      rw [pendingFor_erase rfl,List.isEmpty_iff.mp hempty]
    · rw [pendingFor_insert rfl]

theorem Impl.openConnection_pending (st : Impl) (ep : Endpoint) :
    (st.openConnection env ep).pendingMessages = st.pendingMessages := by
  cases ho : ep.outbound with
  | false =>
    rw [openConnection_inbound ho]
    rfl
  | true =>
    rw [openConnection_outbound ho]
    rfl

end

namespace UriTraffic

section
variable {env : Env} {s : UriTraffic}

/-- The steps of a call, one after the other. -/
def wholeCall (thread : Nat) (uri : String) (msgType : UInt32) (payload : Bytes) : List UriStep :=
  [.check thread uri msgType payload,.append thread,.direct thread]

theorem appendCall_calls (env : Env) (s : UriTraffic) (c : UriCall) :
    (s.appendCall env c).calls = s.calls := by
  unfold appendCall
  dsimp only
  split
  · rfl
  · rfl

theorem wholeCall_refused (h : s.calls = []) {uri : String} {msgType : UInt32}
    (hno : s.st.checkUri uri msgType = none) (thread : Nat) (payload : Bytes) :
    s.run env (wholeCall thread uri msgType payload) = s := by
  simp [run,Interleaving.run,wholeCall,act,h,hno,pick]

theorem wholeCall_queued (h : s.calls = []) {uri : String} {msgType : UInt32} (found : UriCheck)
    (hfound : s.st.checkUri uri msgType = some found) (hq : ∀ id, found ≠ .ready id) (thread : Nat)
    (payload : Bytes) : s.run env (wholeCall thread uri msgType payload) =
      s.appendCall env ⟨thread,uri,msgType,payload,found⟩ := by
  have hcalls := s.appendCall_calls env ⟨thread,uri,msgType,payload,found⟩
  have hsame : ({ s with calls := [] } : UriTraffic) = s := by rw [← h]
  cases found with
  | absent =>
    simp [run,Interleaving.run,wholeCall,act,h,hfound,pick,hsame,hcalls]
  | notReady =>
    simp [run,Interleaving.run,wholeCall,act,h,hfound,pick,hsame,hcalls]
  | ready id => exact absurd rfl (hq id)

theorem wholeCall_ready (h : s.calls = []) {uri : String} {msgType : UInt32} {id : Nat}
    (hfound : s.st.checkUri uri msgType = some (.ready id)) (thread : Nat) (payload : Bytes) :
    s.run env (wholeCall thread uri msgType payload) =
      s.directCall env ⟨thread,uri,msgType,payload,.ready id⟩ id := by
  have hsame : ({ s with calls := [] } : UriTraffic) = s := by rw [← h]
  simp [run,Interleaving.run,wholeCall,act,h,hfound,pick,hsame]

/-- With nobody in between a call is the manager's `send`, and its message is among those
accepted when it says so. -/
theorem send_alone (h : s.calls = []) (thread : Nat) (uri : String) (msgType : UInt32)
    (payload : Bytes) :
    (s.run env (wholeCall thread uri msgType payload)).st =
        (s.st.sendUri env uri msgType payload).1 ∧
      (s.run env (wholeCall thread uri msgType payload)).accepted.length = s.accepted.length+
        (s.st.sendUri env uri msgType payload).2.toNat := by
  unfold Impl.sendUri
  split
  · rename_i hgo
    rw [wholeCall_refused h (by simp [Impl.checkUri,hgo])]
    exact ⟨rfl,rfl⟩
  · rename_i hgo
    dsimp only
    split
    · rename_i hnone
      rw [wholeCall_queued h .absent (by simp [Impl.checkUri,hgo,hnone]) (by simp)]
      unfold appendCall uriKey
      dsimp only
      cases hq : (s.st.enqueuePending env (splitUri uri).2 msgType payload).2 with
      | false => simp
      | true =>
        simp only [ite_true,Bool.not_true,Bool.false_eq_true,ite_false,Impl.requestUri,
          List.length_append,List.length_singleton]
        cases hconn : (s.st.enqueuePending env (splitUri uri).2 msgType payload).1.findConnector
            (splitUri uri).1 with
        | none => simp
        | some ops => simp
    · rename_i id hid
      split
      · rename_i hnone
        rw [wholeCall_refused h (by simp [Impl.checkUri,hgo,hid,hnone])]
        exact ⟨rfl,rfl⟩
      · rename_i r hr
        split
        · rename_i hdown
          rw [wholeCall_queued h .notReady
            (by simp only [Impl.checkUri,if_neg hgo,hid,hr,hdown,ite_true]) (by simp)]
          unfold appendCall uriKey
          dsimp only
          cases hq : (s.st.enqueuePending env (splitUri uri).2 msgType payload).2 with
          | false => simp
          | true => simp [Impl.requestUri]
        · rename_i hup
          have hready : s.st.checkUri uri msgType = some (.ready id) := by
            simp only [Impl.checkUri,if_neg hgo,hid,hr,if_neg hup]
          rw [wholeCall_ready h hready]
          unfold directCall
          dsimp only
          split
          · exact ⟨rfl,rfl⟩
          · simp only [Impl.sendParts_alone,SendCall.parts,SendCall.chunked,decide_eq_true_eq,
              List.length_append,List.length_singleton]
            split
            · exact ⟨rfl,rfl⟩
            · exact ⟨rfl,rfl⟩

/-- The rounds of a flush one after the other send its messages. -/
theorem flush_alone (f : PendingFlush) (rest : List PendingFlush) (h : s.flushes = f :: rest)
    (ht : f.taken = true) :
    (s.run env (f.messages.map (fun _ => .sendNext f.id))).st =
      s.st.sendMessages env f.id f.messages := by
  generalize hm : f.messages = messages
  induction messages generalizing s f with
  | nil => rfl
  | cons m messages ih =>
    have hpick : pick (fun g => g.id == f.id && g.taken) s.flushes = some (f,rest) := by
      simp [h,pick,ht]
    have hone : s.act env (.sendNext f.id) = s.sendOne env f rest := by
      simp only [act,hpick]
    have hst : (s.sendOne env f rest).st = s.st.sendFrame env f.id m.msgType m.payload := by
      simp only [sendOne,hm]
      exact Impl.sendPart_alone s.st
    have hflush : (s.sendOne env f rest).flushes =
        { f with messages := messages, tickets := f.tickets.tail } :: rest := by
      simp only [sendOne,hm]
    have hrun := ih { f with messages := messages, tickets := f.tickets.tail } hflush ht rfl
    have hsend : s.st.sendMessages env f.id (m :: messages) =
        (s.st.sendFrame env f.id m.msgType m.payload).sendMessages env f.id messages := rfl
    rw [hst,← hsend] at hrun
    simpa only [run,Interleaving.run,List.map_cons,List.foldl_cons,hone] using hrun

end

end UriTraffic

end GoodNet
