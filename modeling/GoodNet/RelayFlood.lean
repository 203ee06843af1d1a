import GoodNet.RelayNetwork
set_option autoImplicit false

/-! One frame is relayed through a network: how often it is handled and sent, and when it
arrives. -/

namespace GoodNet
open Codec Flood

/-- A relay payload on its way to a connection of a node. -/
structure RelayPacket (V : Type) where
  node : V
  conn : Nat
  plaintext : Bytes
  deriving DecidableEq

/-- A relay payload that a node has sent, and the one that caused it, if any, with the
connection on which that one came in. -/
structure RelaySend (V : Type) where
  node : V
  cause : Option (Nat × Bytes)
  conn : Nat
  payload : Bytes

/-- The nodes, what is in flight, and what has been done with the frame so far. -/
structure RelayNet (V : Type) where
  node : V → Impl
  flight : List (RelayPacket V) := []
  processed : List (RelayPacket V) := []
  dispatched : List V := []
  sent : List (RelaySend V) := []

/-- The frame that is relayed, complete by its header, and its destination. -/
structure Relayed where
  dest : Key
  inner : Bytes
  whole : headerSize+(Header.decode inner).payloadLen.toNat ≤ inner.length

def Relayed.header (f : Relayed) : Header := Header.decode f.inner

def Relayed.payload (f : Relayed) (ttl : UInt8) : Bytes := relayPayload ttl f.dest f.inner

section
variable {V : Type} [DecidableEq V]

/-- What a node sends to some of its connections. -/
def Network.packets (g : Network V) (v : V) (payload : Bytes) (targets : List Nat) :
    List (RelayPacket V) :=
  targets.map (fun id => ⟨(g.far v id).1,(g.far v id).2,payload⟩)

def RelayNet.setNode (net : RelayNet V) (v : V) (st : Impl) : RelayNet V :=
  { net with node := Function.update net.node v st }

def RelayNet.send (g : Network V) (net : RelayNet V) (v : V) (cause : Option (Nat × Bytes))
    (targets : List Nat) (payload : Bytes) : RelayNet V :=
  { net with
    flight := net.flight ++ g.packets v payload targets
    sent := targets.map (fun id => ⟨v,cause,id,payload⟩) ++ net.sent }

/-- A node calls `relay`. -/
def RelayNet.relay (g : Network V) (net : RelayNet V) (v : V) (exclude : Nat) (ttl : UInt8)
    (f : Relayed) : RelayNet V :=
  (net.setNode v ((net.node v).relay (g.env v) exclude ttl f.dest f.inner)).send g v none
    ((net.node v).relayTargets exclude f.dest) (f.payload ttl)

/-- A payload in flight reaches `handle_relay`. -/
def RelayNet.deliver (g : Network V) (net : RelayNet V) (p : RelayPacket V) : RelayNet V :=
  let st := net.node p.node
  let handled := st.handleRelay (g.env p.node) p.conn p.plaintext
  if p ∈ net.flight then
    ({ net.setNode p.node handled.1 with
        flight := net.flight.erase p
        processed := (if st.processes (g.env p.node) p.plaintext then [p] else []) ++ net.processed
        dispatched := (if handled.2.isSome then [p.node] else []) ++ net.dispatched }).send g
      p.node (some (p.conn,p.plaintext)) (st.forwardTargets (g.env p.node) p.conn p.plaintext)
      (forwardedPayload p.plaintext)
  else net

end

/-- The nodes as they are when `o` has called `relay`, and nothing else has happened yet. -/
def Network.launch {V : Type} [DecidableEq V] (g : Network V) (node : V → Impl) (o : V)
    (exclude : Nat) (ttl : UInt8) (f : Relayed) : RelayNet V :=
  ({ node := node } : RelayNet V).relay g o exclude ttl f

/-- What happens in the network: a delivery, another relay payload coming in, or anything
else a node does. -/
inductive RelayAct (V : Type)
  | deliver (p : RelayPacket V)
  | hear (v : V) (id : Nat) (plaintext : Bytes)
  | other (v : V) (st : Impl)

section
variable {V : Type} [DecidableEq V]

def RelayNet.act (g : Network V) (net : RelayNet V) : RelayAct V → RelayNet V
  | .deliver p => net.deliver g p
  | .hear v id plaintext =>
    net.setNode v ((net.node v).handleRelay (g.env v) id plaintext).1
  | .other v st => net.setNode v st

def RelayNet.run (g : Network V) (net : RelayNet V) (acts : List (RelayAct V)) : RelayNet V :=
  acts.foldl (RelayNet.act g) net

/-- `handle_relay` is called within 30 seconds of the node's `start`; other relay payloads
carry frames with another packet id or type; and whatever else a node does keeps its
connections and leaves the set of seen frames to `relay_seen`. -/
def RelayAct.Fair (g : Network V) (start : V → Nat) (hdr : Header) (net : RelayNet V) :
    RelayAct V → Prop
  | .deliver p => (net.node p.node).Timely (g.env p.node) (start p.node)
  | .hear v _ plaintext => (net.node v).Timely (g.env v) (start v) ∧
    (isRelayable plaintext = true → hdr.Distinct (Header.decode (relayedFrame plaintext)))
  | .other v st => st.relayDedup = (net.node v).relayDedup ∧ g.Fits v st

def RelayNet.FairRun (g : Network V) (start : V → Nat) (hdr : Header) :
    RelayNet V → List (RelayAct V) → Prop
  | _, [] => True
  | net, a :: as => a.Fair g start hdr net ∧ (net.act g a).FairRun g start hdr as

end

section
variable {V : Type} {f : Relayed}

theorem relayPayload_parts (ttl : UInt8) (dest : Key) (inner : Bytes) :
    (relayPayload ttl dest inner).getD 0 0 = ttl ∧ relayDest (relayPayload ttl dest inner) = dest ∧
      relayedFrame (relayPayload ttl dest inner) = inner :=
  ⟨rfl,dest.ofBytes_append inner,dest.drop_bytes inner⟩

theorem Relayed.payload_relayable (f : Relayed) (ttl : UInt8) :
    isRelayable (f.payload ttl) = (ttl != 0) := by
  obtain ⟨httl,_,hinner⟩ := relayPayload_parts ttl f.dest f.inner
  have hwhole := f.whole
  have hlen : (relayPayload ttl f.dest f.inner).length = relayHeaderSize+f.inner.length := by
    simp only [relayPayload,List.length_cons,List.length_append,Block.length_bytes,relayHeaderSize]
    omega
  unfold isRelayable payload
  rw [httl,hinner,hlen]
  simp [hwhole,Nat.le_trans (Nat.le_add_right _ _) hwhole]

theorem Relayed.payload_forwarded (f : Relayed) (ttl : UInt8) :
    forwardedPayload (f.payload ttl) = f.payload (ttl-1) := by
  obtain ⟨httl,hdest,hinner⟩ := relayPayload_parts ttl f.dest f.inner
  unfold forwardedPayload payload
  rw [httl,hdest,hinner]

/-- A copy of the flood as the packet it stands for. -/
def Relayed.packet (f : Relayed) (c : Copy V Nat) : RelayPacket V :=
  ⟨c.node,c.port,f.payload (UInt8.ofNat c.ttl)⟩

/-- A payload that goes out by another connection than its cause came in on, with exactly one
hop less. -/
def RelaySend.Orderly (s : RelaySend V) : Prop :=
  ∀ id plaintext, s.cause = some (id,plaintext) →
    s.conn ≠ id ∧ (s.payload.getD 0 0).toNat+1 = (plaintext.getD 0 0).toNat

end

/-- The nodes of the network: those that have been visited remember the frame. -/
structure Network.Knows {V : Type} (g : Network V) (start : V → Nat) (hdr : Header)
    (visited : List V) (node : V → Impl) : Prop where
  fits : ∀ v, g.Fits v (node v)
  marked : ∀ v ∈ visited, (node v).Marked (g.env v) (start v) hdr
  unmarked : ∀ v, v ∉ visited → (node v).Unmarked (g.env v) hdr

/-- The network does what the flood does after `o` has relayed the frame with `ttl` hops,
leaving out `exclude`. -/
structure Floods {V : Type} (g : Network V) (start : V → Nat) (f : Relayed) (o : V)
    (exclude : Nat) (ttl : UInt8) (net : RelayNet V) (s : State V Nat) : Prop where
  nodes : g.Knows start f.header s.visited net.node
  flight : (net.flight : Multiset (RelayPacket V)) = s.flight.map f.packet
  processed : net.processed = s.taken.map f.packet
  dispatched : net.dispatched = s.visited.filter (g.flood f.dest).ends
  count : net.sent.length = (g.flood f.dest).sends o exclude s.taken
  orderly : ∀ x ∈ net.sent, x.Orderly
  sound : (g.flood f.dest).Sound o exclude ttl.toNat s

section
variable {V : Type} {g : Network V} {start : V → Nat} {hdr : Header} {f : Relayed} {v : V}
  {visited visited' : List V} {node : V → Impl} {st : Impl}

theorem Network.Knows.of_fits (hf : ∀ v, g.Fits v (node v))
    (hu : ∀ v, (node v).Unmarked (g.env v) hdr) : g.Knows start hdr [] node :=
  ⟨hf,fun _ hv => absurd hv List.not_mem_nil,fun v _ => hu v⟩

theorem Network.Knows.update [DecidableEq V] (h : g.Knows start hdr visited node)
    (hv : ∀ u, u ≠ v → (u ∈ visited' ↔ u ∈ visited)) (hf : g.Fits v st)
    (hm : v ∈ visited' → st.Marked (g.env v) (start v) hdr)
    (hu : v ∉ visited' → st.Unmarked (g.env v) hdr) :
    g.Knows start hdr visited' (Function.update node v st) := by
  refine ⟨?_,?_,?_⟩
  · intro u
    by_cases he : u = v
    · subst he
      rw [Function.update_self]
      exact hf
    · rw [Function.update_of_ne he]
      exact h.fits u
  · intro u hin
    by_cases he : u = v
    · subst he
      rw [Function.update_self]
      exact hm hin
    · rw [Function.update_of_ne he]
      exact h.marked u ((hv u he).mp hin)
  · intro u hout
    by_cases he : u = v
    · subst he
      rw [Function.update_self]
      exact hu hout
    · rw [Function.update_of_ne he]
      exact h.unmarked u (fun hin => hout ((hv u he).mpr hin))

theorem Impl.Marked.of_dedup {env : Env} {k : Nat} {st st' : Impl} (h : st.Marked env k hdr)
    (hd : st'.relayDedup = st.relayDedup) : st'.Marked env k hdr := by
  unfold Impl.Marked
  rw [hd]
  exact h

theorem Impl.Unmarked.of_dedup {env : Env} {st st' : Impl} (h : st.Unmarked env hdr)
    (hd : st'.relayDedup = st.relayDedup) : st'.Unmarked env hdr := by
  unfold Impl.Unmarked
  rw [hd]
  exact h

/-- The packets of a call of `relay` are the copies that the flood spreads. -/
theorem Network.Fits.spreads (h : g.Fits v st) (i ttl : Nat) :
    (g.packets v (f.payload (UInt8.ofNat ttl)) (st.relayTargets i f.dest) :
      Multiset (RelayPacket V)) = ((g.flood f.dest).spread v i ttl).map f.packet := by
  unfold Network.packets
  rw [← Multiset.map_coe,h.targets i f.dest,Mesh.spread,Multiset.map_map]
  rfl

theorem Network.Fits.spreads_ne (h : g.Fits v st) {i id : Nat} {dest : Key}
    (hid : id ∈ st.relayTargets i dest) : id ≠ i := by
  have hout : id ∈ ((g.flood dest).out v i).val := by
    rw [← h.targets i dest]
    exact hid
  rintro rfl
  exact (g.flood dest).out_ne v id hout

/-- A payload of the flood at a node: it counts as seen, or is out of hops, or is taken. -/
theorem Relayed.processes_iff {env : Env} (f : Relayed) (st : Impl) (ttl : UInt8) :
    st.processes env (f.payload ttl) = (ttl != 0 && !(st.relaySeen env f.header).2) := by
  unfold Impl.processes
  rw [f.payload_relayable]
  obtain ⟨_,_,hinner⟩ := relayPayload_parts ttl f.dest f.inner
  unfold Relayed.payload Relayed.header
  rw [hinner]

/-- A node that takes the payload forwards it as the flood does. -/
theorem Network.Fits.forwards (h : g.Fits v st) {i ttl : Nat}
    (hp : st.processes (g.env v) (f.payload (UInt8.ofNat ttl)) = true) :
    st.forwardTargets (g.env v) i (f.payload (UInt8.ofNat ttl)) =
      if (g.flood f.dest).ends v then [] else st.relayTargets i f.dest := by
  obtain ⟨_,hdest,_⟩ := relayPayload_parts (UInt8.ofNat ttl) f.dest f.inner
  unfold Impl.forwardTargets
  rw [hp]
  unfold Relayed.payload
  rw [hdest,h.key]
  by_cases he : g.key v = f.dest
  · simp [Network.flood,he]
  · have hne : f.dest ≠ g.key v := fun hd => he hd.symm
    simp [Network.flood,he,hne]

theorem Network.Fits.forwarded {c : Copy V Nat} (h : g.Fits c.node st)
    (hp : st.processes (g.env c.node) (f.payload (UInt8.ofNat c.ttl)) = true) :
    (g.packets c.node (f.payload (UInt8.ofNat (c.ttl-1)))
      (st.forwardTargets (g.env c.node) c.port (f.payload (UInt8.ofNat c.ttl))) :
        Multiset (RelayPacket V)) = ((g.flood f.dest).forwards c).map f.packet := by
  rw [h.forwards hp]
  unfold Mesh.forwards
  split
  · rfl
  · exact h.spreads c.port (c.ttl-1)

end

section
variable {V : Type} {g : Network V} {start : V → Nat} {f : Relayed} {o : V} {exclude : Nat}
  {ttl : UInt8} {net : RelayNet V} {s : State V Nat}

/-- A copy has no more hops than the origin gave it. -/
theorem Floods.ttl_le (h : Floods g start f o exclude ttl net s) {c : Copy V Nat}
    (hc : c ∈ s.flight) : c.ttl < 256 := by
  obtain ⟨_,l,_,_,_,hlen,_⟩ := h.sound.from_sender (h.sound.flight c hc)
  have hsmall := ttl.toNat_lt
  omega

theorem Floods.in_flight (h : Floods g start f o exclude ttl net s) {p : RelayPacket V}
    (hp : p ∈ net.flight) : ∃ c ∈ s.flight, f.packet c = p := by
  have hmem : p ∈ s.flight.map f.packet := by
    rw [← h.flight]
    exact hp
  exact Multiset.mem_map.mp hmem

variable [DecidableEq V]

theorem Floods.launch (o : V) (exclude : Nat) (ttl : UInt8) {node : V → Impl}
    (hk : g.Knows start f.header [] node) :
    Floods g start f o exclude ttl (g.launch node o exclude ttl f)
      ((g.flood f.dest).start o exclude ttl.toNat) := by
  have hspread := (hk.fits o).spreads (f := f) exclude ttl.toNat
  rw [UInt8.ofNat_toNat] at hspread
  refine ⟨?_,?_,rfl,rfl,?_,?_,Mesh.Sound.start o exclude ttl.toNat⟩
  · have hrelay : (node o).relay (g.env o) exclude ttl f.dest f.inner = _ :=
      Impl.relay_eq exclude ttl f.dest f.inner
    refine hk.update (fun _ _ => Iff.rfl) ?_ (fun hin => absurd hin List.not_mem_nil) (fun _ => ?_)
    · rw [hrelay]
      exact (hk.fits o).sendRelays _ _
    · rw [hrelay]
      exact (hk.unmarked o List.not_mem_nil).of_dedup (Impl.sendRelays_dedup _ _)
  · exact hspread
  · have hcard := congrArg Multiset.card ((hk.fits o).targets exclude f.dest)
    simpa [Network.launch,RelayNet.relay,RelayNet.send,RelayNet.setNode,Mesh.sends,Mesh.start]
      using hcard
  · intro x hx
    simp only [Network.launch,RelayNet.relay,RelayNet.send,RelayNet.setNode,List.append_nil,
      List.mem_map] at hx
    obtain ⟨id,_,rfl⟩ := hx
    intro j plaintext hcause
    cases hcause

theorem Floods.erased (h : Floods g start f o exclude ttl net s) {c : Copy V Nat}
    (hc : c ∈ s.flight) :
    ((net.flight.erase (f.packet c) : List _) : Multiset (RelayPacket V)) =
      (s.flight.erase c).map f.packet := by
  rw [← Multiset.coe_erase,h.flight,← Multiset.cons_erase hc,Multiset.map_cons,
    Multiset.erase_cons_head,Multiset.erase_cons_head]

theorem RelayNet.deliver_skipped {p : RelayPacket V} (hp : p ∈ net.flight)
    (h : (net.node p.node).processes (g.env p.node) p.plaintext = false) :
    net.deliver g p =
      { net.setNode p.node ((net.node p.node).handleRelay (g.env p.node) p.conn p.plaintext).1 with
        flight := net.flight.erase p } := by
  have hdispatch : ((net.node p.node).handleRelay (g.env p.node) p.conn p.plaintext).2.isSome =
      _ := Impl.handleRelay_dispatches p.conn p.plaintext
  have htargets : (net.node p.node).forwardTargets (g.env p.node) p.conn p.plaintext = [] := by
    simp [Impl.forwardTargets,h]
  simp [deliver,hp,h,hdispatch,htargets,send,Network.packets,setNode]

theorem RelayNet.deliver_processed {p : RelayPacket V} (hp : p ∈ net.flight)
    (h : (net.node p.node).processes (g.env p.node) p.plaintext = true) :
    net.deliver g p =
      (({ net.setNode p.node ((net.node p.node).handleRelay (g.env p.node) p.conn p.plaintext).1
          with
          flight := net.flight.erase p
          processed := p :: net.processed
          dispatched := (if relayDest p.plaintext = (net.node p.node).identity.userPubkey then
            [p.node] else []) ++ net.dispatched } : RelayNet V).send g p.node
        (some (p.conn,p.plaintext))
        ((net.node p.node).forwardTargets (g.env p.node) p.conn p.plaintext)
        (forwardedPayload p.plaintext)) := by
  have hdispatch : ((net.node p.node).handleRelay (g.env p.node) p.conn p.plaintext).2.isSome =
      _ := Impl.handleRelay_dispatches p.conn p.plaintext
  simp [deliver,hp,h,hdispatch]

/-- The node has seen the frame, or the payload is out of hops: only the packet is gone. -/
theorem Floods.ignore (h : Floods g start f o exclude ttl net s) {c : Copy V Nat}
    (hc : c ∈ s.flight) (hin : f.packet c ∈ net.flight)
    (ht : (net.node c.node).Timely (g.env c.node) (start c.node))
    (hi : c.ttl = 0 ∨ c.node ∈ s.visited) :
    Floods g start f o exclude ttl (net.deliver g (f.packet c)) ⟨s.taken,s.flight.erase c⟩ := by
  have hskip : (net.node c.node).processes (g.env c.node) (f.payload (UInt8.ofNat c.ttl)) =
      false := by
    rw [f.processes_iff]
    rcases hi with hzero | hseen
    · simp [hzero]
    · simp [(h.nodes.marked c.node hseen).seen ht]
  rw [RelayNet.deliver_skipped hin hskip]
  refine ⟨?_,h.erased hc,h.processed,h.dispatched,h.count,h.orderly,
    (Mesh.Step.ignore c hc hi).sound h.sound⟩
  refine h.nodes.update (fun _ _ => Iff.rfl) ((h.nodes.fits c.node).handleRelay _ _)
    (fun hv => ?_) (fun hv => ?_)
  · exact ((h.nodes.marked c.node hv).heard ht c.port _).of_dedup (Impl.handleRelay_dedup _ _ _ _)
  · have hzero : c.ttl = 0 := hi.resolve_right hv
    have hdead : isRelayable (f.payload (UInt8.ofNat c.ttl)) = false := by
      rw [f.payload_relayable,hzero]
      rfl
    refine Impl.Unmarked.of_dedup ?_ (Impl.handleRelay_dedup _ _ _ _)
    exact (h.nodes.unmarked c.node hv).heard_other
      (fun hr => absurd (hdead.symm.trans hr) (by decide))

/-- The first copy: the node remembers the frame and passes it on, or keeps it. -/
theorem Floods.take (h : Floods g start f o exclude ttl net s) {c : Copy V Nat}
    (hc : c ∈ s.flight) (hin : f.packet c ∈ net.flight)
    (ht : (net.node c.node).Timely (g.env c.node) (start c.node)) (hpos : c.ttl ≠ 0)
    (hnew : c.node ∉ s.visited) :
    Floods g start f o exclude ttl (net.deliver g (f.packet c))
      ⟨c :: s.taken,s.flight.erase c+(g.flood f.dest).forwards c⟩ := by
  have hsmall := h.ttl_le hc
  have hfits := h.nodes.fits c.node
  have hunmarked := h.nodes.unmarked c.node hnew
  obtain ⟨httl,hdest,hinner⟩ := relayPayload_parts (UInt8.ofNat c.ttl) f.dest f.inner
  have hnat : (UInt8.ofNat c.ttl).toNat = c.ttl := by
    rw [UInt8.toNat_ofNat']
    exact Nat.mod_eq_of_lt hsmall
  have hne : UInt8.ofNat c.ttl ≠ 0 := by
    intro hz
    rw [hz] at hnat
    exact hpos hnat.symm
  have hless : (UInt8.ofNat (c.ttl-1)).toNat+1 = (UInt8.ofNat c.ttl).toNat := by
    rw [hnat,UInt8.toNat_ofNat',Nat.mod_eq_of_lt (by omega)]
    omega
  have hpassed : forwardedPayload (f.payload (UInt8.ofNat c.ttl)) =
      f.payload (UInt8.ofNat (c.ttl-1)) := by
    rw [f.payload_forwarded,UInt8.ofNat_sub (by omega)]
    rfl
  have hproc : (net.node c.node).processes (g.env c.node) (f.payload (UInt8.ofNat c.ttl)) =
      true := by
    rw [f.processes_iff]
    simp [hne,hunmarked.seen]
  have hrelayable : isRelayable (f.payload (UInt8.ofNat c.ttl)) = true := by
    rw [f.payload_relayable]
    simpa using hne
  have htargets := hfits.forwards (i := c.port) hproc
  have hpackets := hfits.forwarded hproc
  rw [RelayNet.deliver_processed hin hproc]
  refine ⟨?_,?_,?_,?_,?_,?_,(Mesh.Step.take c hc hpos hnew).sound h.sound⟩
  · refine h.nodes.update (fun u hu => ?_) (hfits.handleRelay _ _) (fun _ => ?_)
      (fun hout => absurd List.mem_cons_self hout)
    · exact ⟨fun hm => (List.mem_cons.mp hm).resolve_left hu,List.mem_cons_of_mem _⟩
    · exact (hunmarked.heard_own ht hrelayable (congrArg Header.decode hinner)).of_dedup
        (Impl.handleRelay_dedup _ _ _ _)
  · rw [Multiset.map_add,← h.erased hc,← hpackets]
    simp only [RelayNet.send,Relayed.packet,hpassed]
    rfl
  · exact congrArg (List.cons (f.packet c)) h.processed
  · have hhere : (g.flood f.dest).ends c.node = decide (g.key c.node = f.dest) := rfl
    have hvisited : State.visited ⟨c :: s.taken,s.flight.erase c+(g.flood f.dest).forwards c⟩ =
        c.node :: s.visited := rfl
    have hdest' : relayDest (f.packet c).plaintext = f.dest := hdest
    have hkey : (net.node (f.packet c).node).identity.userPubkey = g.key c.node := hfits.key
    rw [hvisited,List.filter_cons,hhere,← h.dispatched]
    simp only [RelayNet.send,hdest',hkey,decide_eq_true_eq,eq_comm (a := f.dest)]
    split
    · rfl
    · rfl
  · have hlength := congrArg Multiset.card hpackets
    simp only [Network.packets,Multiset.coe_card,List.length_map,Multiset.card_map] at hlength
    have hcount := h.count
    simp only [RelayNet.send,RelayNet.setNode,List.length_append,List.length_map,
      Mesh.sends] at hcount ⊢
    rw [hcount]
    simp only [Relayed.packet]
    omega
  · intro x hx
    rcases List.mem_append.mp hx with hx | hx
    · obtain ⟨id,hid,rfl⟩ := List.mem_map.mp hx
      intro j plaintext hcause
      cases hcause
      refine ⟨?_,?_⟩
      · have hid' : id ∈ (net.node c.node).forwardTargets (g.env c.node) c.port
            (f.payload (UInt8.ofNat c.ttl)) := hid
        rw [htargets] at hid'
        split at hid'
        · cases hid'
        · exact hfits.spreads_ne hid'
      · show ((forwardedPayload (f.payload (UInt8.ofNat c.ttl))).getD 0 0).toNat+1 = _
        rw [hpassed]
        exact hless
    · exact h.orderly x hx

theorem Floods.act (h : Floods g start f o exclude ttl net s) (a : RelayAct V)
    (ha : a.Fair g start f.header net) :
    ∃ s', Floods g start f o exclude ttl (net.act g a) s' := by
  cases a with
  | deliver p =>
    by_cases hp : p ∈ net.flight
    · obtain ⟨c,hc,rfl⟩ := h.in_flight hp
      by_cases hi : c.ttl = 0 ∨ c.node ∈ s.visited
      · exact ⟨_,h.ignore hc hp ha hi⟩
      · obtain ⟨hpos,hnew⟩ := not_or.mp hi
        exact ⟨_,h.take hc hp ha hpos hnew⟩
    · refine ⟨s,?_⟩
      have hsame : net.act g (.deliver p) = net := if_neg hp
      rw [hsame]
      exact h
  | hear v id plaintext =>
    obtain ⟨ht,hother⟩ := ha
    refine ⟨s,?_,h.flight,h.processed,h.dispatched,h.count,h.orderly,h.sound⟩
    refine h.nodes.update (fun _ _ => Iff.rfl) ((h.nodes.fits v).handleRelay id plaintext)
      (fun hv => ?_) (fun hv => ?_)
    · exact ((h.nodes.marked v hv).heard ht id plaintext).of_dedup (Impl.handleRelay_dedup _ _ _ _)
    · exact ((h.nodes.unmarked v hv).heard_other hother).of_dedup (Impl.handleRelay_dedup _ _ _ _)
  | other v st =>
    obtain ⟨hdedup,hfits⟩ := ha
    refine ⟨s,?_,h.flight,h.processed,h.dispatched,h.count,h.orderly,h.sound⟩
    exact h.nodes.update (fun _ _ => Iff.rfl) hfits
      (fun hv => (h.nodes.marked v hv).of_dedup hdedup)
      (fun hv => (h.nodes.unmarked v hv).of_dedup hdedup)

theorem Floods.run (h : Floods g start f o exclude ttl net s) (acts : List (RelayAct V))
    (hfair : net.FairRun g start f.header acts) :
    ∃ s', Floods g start f o exclude ttl (net.run g acts) s' := by
  induction acts generalizing net s with
  | nil => exact ⟨s,h⟩
  | cons a acts ih =>
    obtain ⟨s',h'⟩ := h.act a hfair.1
    exact ih h' hfair.2

/-- Wherever a frame is relayed from: every node handles it at most once, only the
destination dispatches it, no copy goes back to where its cause came from, hops run down
without a wrap, and there are at most as many sends as the origin and all nodes have
connections. -/
theorem relay_flood_bounded [Fintype V] {node : V → Impl} (hf : ∀ v, g.Fits v (node v))
    (hu : ∀ v, (node v).Unmarked (g.env v) f.header) (o : V) (exclude : Nat) (ttl : UInt8)
    (acts : List (RelayAct V))
    (hfair : (g.launch node o exclude ttl f).FairRun g start f.header acts) :
    let net := (g.launch node o exclude ttl f).run g acts
    (net.processed.map RelayPacket.node).Nodup ∧
    net.dispatched.Nodup ∧ (∀ v ∈ net.dispatched, g.key v = f.dest) ∧
    (∀ x ∈ net.sent, ∀ id plaintext, x.cause = some (id,plaintext) →
      x.conn ≠ id ∧ x.payload.getD 0 0 < plaintext.getD 0 0 ∧
      (x.payload.getD 0 0).toNat+1 = (plaintext.getD 0 0).toNat) ∧
    net.sent.length ≤ (g.links o).card+∑ v, (g.links v).card := by
  intro net
  obtain ⟨s,h⟩ := (Floods.launch o exclude ttl (.of_fits hf hu)).run acts hfair
  refine ⟨?_,?_,?_,?_,?_⟩
  · rw [h.processed,List.map_map]
    exact h.sound.once
  · rw [h.dispatched]
    exact h.sound.once.filter _
  · intro v hv
    rw [h.dispatched] at hv
    exact of_decide_eq_true (List.mem_filter.mp hv).2
  · intro x hx id plaintext hcause
    obtain ⟨hne,hless⟩ := h.orderly x hx id plaintext hcause
    refine ⟨hne,?_,hless⟩
    rw [UInt8.lt_iff_toNat_lt]
    omega
  · rw [h.count]
    exact h.sound.sends_le

end

/-- The record of an established connection. -/
def ConnectionRecord.linked (id : Nat) (peer : UInt8) : ConnectionRecord where
  id := id
  state := .established
  remote := Endpoint.sample "peer" 0
  localScheme := "tcp"
  peerUserPubkey := sampleKey peer
  peerAuthenticated := true

/-- A node with the given peers. -/
def Impl.linked (me : UInt8) (peers : List (Nat × UInt8)) : Impl where
  identity := NodeIdentity.sample me me
  connectors := (∅ : Table String ConnectorOps).insert "tcp" {}
  records := peers.foldr (fun p t => t.insert p.1 (ConnectionRecord.linked p.1 p.2)) ∅
  pkIndex := peers.foldr (fun p t => t.insert (bytesToHex (sampleKey p.2).bytes) p.1) ∅

theorem Impl.linked_established (me : UInt8) (peers : List (Nat × UInt8)) (id : Nat) :
    (Impl.linked me peers).establishedIn id = true ↔ id ∈ peers.map Prod.fst := by
  unfold establishedIn find linked
  induction peers with
  | nil => simp
  | cons p peers ih =>
    simp only [List.foldr_cons,List.map_cons,List.mem_cons]
    by_cases hid : id = p.1
    · subst hid
      simp [ConnectionRecord.established,ConnectionRecord.linked]
    · rw [AList.lookup_insert_ne hid]
      simpa [hid] using ih

theorem Impl.linked_index (me : UInt8) (peers : List (Nat × UInt8)) (k : Key) :
    (Impl.linked me peers).findConnByPubkey (bytesToHex k.bytes) =
      ((peers.find? (fun p => sampleKey p.2 = k)).map Prod.fst).getD connIdInvalid := by
  unfold findConnByPubkey linked
  induction peers with
  | nil => simp
  | cons p peers ih =>
    simp only [List.foldr_cons]
    by_cases hk : sampleKey p.2 = k
    · subst hk
      simp
    · have hne : bytesToHex k.bytes ≠ bytesToHex (sampleKey p.2).bytes :=
        fun he => hk (Block.ext (bytesToHex_inj he)).symm
      rw [AList.lookup_insert_ne hne]
      simpa [hk] using ih

/-- Connections between four nodes: 0 to 1 and 2, 1 to 2 and 3. -/
def diamondLinks : Fin 4 → List (Nat × Fin 4 × Nat)
  | 0 => [(1,1,1),(2,2,1)]
  | 1 => [(1,0,1),(2,2,2),(3,3,1)]
  | 2 => [(1,0,2),(2,1,2)]
  | 3 => [(1,1,3)]

def diamondKey (v : Fin 4) : UInt8 := UInt8.ofNat (v.val+1)

def diamondPeers (v : Fin 4) : List (Nat × UInt8) :=
  (diamondLinks v).map (fun e => (e.1,diamondKey e.2.1))

def diamondNode (v : Fin 4) : Impl := Impl.linked (diamondKey v) (diamondPeers v)

def diamond : Network (Fin 4) where
  env _ := Env.sample false
  key v := sampleKey (diamondKey v)
  key_inj := by decide
  links v := ((diamondPeers v).map Prod.fst).toFinset
  valid := by decide
  far v id := ((diamondLinks v).lookup id).getD (v,id)
  far_link := by decide
  far_far := by decide
  index v k := (((diamondPeers v).find? (fun p => sampleKey p.2 = k)).map Prod.fst).getD
    connIdInvalid
  index_link v k h := by
    have hpeers : ∀ v : Fin 4, ∀ p ∈ diamondPeers v,
        diamondKey (((diamondLinks v).lookup p.1).getD (v,p.1)).1 = p.2 := by decide
    cases hfind : (diamondPeers v).find? (fun p => sampleKey p.2 = k) with
    | none => simp [hfind] at h
    | some p =>
      have hmem := List.mem_of_find?_eq_some hfind
      have hkey := List.find?_some hfind
      simp only [Option.map_some,Option.getD_some,List.mem_toFinset]
      refine ⟨List.mem_map_of_mem hmem,?_⟩
      rw [hpeers v p hmem]
      exact of_decide_eq_true hkey

theorem diamond_fits (v : Fin 4) : diamond.Fits v (diamondNode v) where
  key := rfl
  links id := by
    unfold diamondNode
    rw [Impl.linked_established]
    exact List.mem_toFinset.symm
  index k := Impl.linked_index _ _ k

/-- A frame for node 3. -/
def diamondFrame : Relayed where
  dest := sampleKey (diamondKey 3)
  inner := (frameHeader 0 msgTypeChat 2 7).encode ++ [104,105]
  whole := by decide

/-- The copy of the frame for a connection of a node. -/
def diamondPacket (v : Fin 4) (conn : Nat) (ttl : UInt8) : RelayAct (Fin 4) :=
  .deliver ⟨v,conn,diamondFrame.payload ttl⟩

theorem diamond_unmarked (v : Fin 4) :
    (diamondNode v).Unmarked (diamond.env v) diamondFrame.header := by
  intro f hf
  cases hf

/-- Node 0 relays the frame. -/
def diamondRelays (ttl : UInt8) : RelayNet (Fin 4) :=
  diamond.launch diamondNode 0 connIdInvalid ttl diamondFrame

/-- Node 1 gets its copies in the order in which they were sent. -/
def straightOn : List (RelayAct (Fin 4)) :=
  [diamondPacket 1 1 4,diamondPacket 3 1 3,diamondPacket 2 1 4,diamondPacket 1 2 3]

set_option maxRecDepth 10000 in
theorem straightOn_fair : (diamondRelays 4).FairRun diamond (fun _ => 0) diamondFrame.header
    straightOn :=
  ⟨⟨Nat.zero_le _,by decide +kernel⟩,⟨Nat.zero_le _,by decide +kernel⟩,
    ⟨Nat.zero_le _,by decide +kernel⟩,⟨Nat.zero_le _,by decide +kernel⟩,True.intro⟩

theorem relay_flood_bounded_diamond :
    ((diamondRelays 4).run diamond straightOn).sent.length ≤ (diamond.links 0).card+
      ∑ v, (diamond.links v).card :=
  (relay_flood_bounded diamond_fits diamond_unmarked 0 connIdInvalid 4 straightOn
    straightOn_fair).2.2.2.2

section
variable {V : Type} [DecidableEq V] {g : Network V} {start : V → Nat} {f : Relayed}

/-- The destination dispatches the frame if no way to it that enters each node at most once
is longer than the hops allow. -/
theorem relay_flood_arrives {node : V → Impl} (hf : ∀ v, g.Fits v (node v))
    (hu : ∀ v, (node v).Unmarked (g.env v) f.header) (o : V) (ttl : UInt8)
    (acts : List (RelayAct V))
    (hfair : (g.launch node o connIdInvalid ttl f).FairRun g start f.header acts)
    (hquiet : ((g.launch node o connIdInvalid ttl f).run g acts).flight = [])
    {d : V} (hd : g.key d = f.dest) (hod : o ≠ d) {way : List V}
    (hway : (g.flood f.dest).Walk o way d)
    (hshort : ∀ l, (g.flood f.dest).Walk o l d → l.Nodup → l.length ≤ ttl.toNat) :
    d ∈ ((g.launch node o connIdInvalid ttl f).run g acts).dispatched := by
  obtain ⟨s,h⟩ := (Floods.launch o connIdInvalid ttl (.of_fits hf hu)).run acts hfair
  have hnone : s.flight = 0 := by
    have hflight := h.flight
    rw [hquiet] at hflight
    exact Multiset.map_eq_zero.mp hflight.symm
  have hends : ∀ v, (g.flood f.dest).ends v = true → v = d := by
    intro v hv
    exact g.key_inj ((of_decide_eq_true hv).trans hd.symm)
  have hcover : ∀ v j, ∀ p ∈ (g.flood f.dest).links v, p ≠ j →
      p ∈ (g.flood f.dest).out v j ∨
        ∃ q ∈ (g.flood f.dest).out v j, ((g.flood f.dest).far v q).1 = d := by
    intro v j p hp hj
    by_cases hdirect : g.index v f.dest ≠ connIdInvalid ∧ g.index v f.dest ≠ j
    · have hout : (g.flood f.dest).out v j = {g.index v f.dest} := if_pos hdirect
      refine Or.inr ⟨g.index v f.dest,?_,g.key_inj ?_⟩
      · rw [hout]
        exact Finset.mem_singleton_self _
      · exact (g.index_link v f.dest hdirect.1).2.trans hd.symm
    · have hout : (g.flood f.dest).out v j = (g.links v).erase j := if_neg hdirect
      rw [hout]
      exact Or.inl (Finset.mem_erase.mpr ⟨hj,hp⟩)
  have hvisited := h.sound.arrives hnone hends hcover (g.valid o) hod hway hshort
  rw [h.dispatched]
  exact List.mem_filter.mpr ⟨hvisited,decide_eq_true hd⟩

end

theorem diamond_way : (diamond.flood diamondFrame.dest).Walk 0 [1,3] 3 :=
  .step 1 (by decide) (.step 3 (by decide) (.stay _))

set_option maxRecDepth 10000 in
theorem relay_flood_arrives_diamond :
    3 ∈ ((diamondRelays 4).run diamond straightOn).dispatched :=
  relay_flood_arrives diamond_fits diamond_unmarked 0 4 straightOn straightOn_fair
    (by decide +kernel) rfl (by decide) diamond_way
    (fun l _ hl => hl.length_le_card)

/-- Node 1 gets the copy that went by node 2 first, with one hop left. -/
def roundabout : List (RelayAct (Fin 4)) :=
  [diamondPacket 2 1 2,diamondPacket 1 2 1,diamondPacket 1 1 2,diamondPacket 3 1 0]

set_option maxRecDepth 10000 in
theorem longer_way_first_loses :
    (∀ v, diamond.Fits v (diamondNode v)) ∧
    (∀ v, (diamondNode v).Unmarked (diamond.env v) diamondFrame.header) ∧
    (diamondRelays 2).FairRun diamond (fun _ => 0) diamondFrame.header roundabout ∧
    (diamond.flood diamondFrame.dest).Walk 0 [1,3] 3 ∧ [(1 : Fin 4),3].length ≤ (2 : UInt8).toNat ∧
    diamond.key 3 = diamondFrame.dest ∧
    ((diamondRelays 2).run diamond roundabout).flight = [] ∧
    3 ∉ ((diamondRelays 2).run diamond roundabout).dispatched :=
  ⟨diamond_fits,diamond_unmarked,
    ⟨⟨Nat.zero_le _,by decide +kernel⟩,⟨Nat.zero_le _,by decide +kernel⟩,
      ⟨Nat.zero_le _,by decide +kernel⟩,⟨Nat.zero_le _,by decide +kernel⟩,True.intro⟩,
    diamond_way,by decide,rfl,by decide +kernel,by decide +kernel⟩

end GoodNet
