import GoodNet.RelayedWindow
import GoodNet.FrameStream
set_option autoImplicit false

/-! A frame that comes in on an established connection, up to the signal bus. -/

namespace GoodNet
open Codec

/-- What the signal bus has been given, with the message type it was given under, newest
first. -/
def Impl.onBus (st : Impl) : List (UInt32 × Bytes) :=
  st.log.filterMap (fun e =>
    match e with
    | .deliver _ .bus hdr _ _ plain => some (hdr.type,plain)
    | _ => none)

/-- A message type that the core leaves to the bus. -/
def isBusType (msgType : UInt32) : Bool :=
  !isHandshakeType msgType && msgType != msgTypeHeartbeat && msgType != msgTypeRelay

section
variable {env : Env} {st : Impl} {id peer : Nat} {s : NoiseSession} {r : ConnectionRecord}

theorem Impl.onBus_emit (st : Impl) {e : Effect} (h : e.isDelivery = false) :
    (st.emit e).onBus = st.onBus := by
  unfold onBus
  rw [log_emit]
  cases e with
  | deliver owner sink hdr remote wire plain => cases h
  | _ => rfl

theorem Impl.onBus_log {st st' : Impl} {new : List Effect} (hl : st'.log = new ++ st.log)
    (hn : ∀ e ∈ new, e.isDelivery = false) : st'.onBus = st.onBus := by
  induction new generalizing st' with
  | nil =>
    unfold onBus
    rw [hl]
    rfl
  | cons e new ih =>
    have hrest : (({ st with log := new ++ st.log } : Impl).emit e).onBus = st.onBus := by
      rw [onBus_emit _ (hn e List.mem_cons_self)]
      exact ih rfl (fun x hx => hn x (List.mem_cons_of_mem e hx))
    unfold onBus at hrest ⊢
    rw [hl]
    exact hrest

theorem Impl.onBus_deliver (st : Impl) (owner : ConnectionRecord) (hdr : Header)
    (wire plain : Bytes) :
    (st.deliver id owner .bus hdr wire plain).onBus = (hdr.type,plain) :: st.onBus := rfl

theorem Effect.isDelivery_report {e : Effect} (h : e.isReport = true) : e.isDelivery = false := by
  cases e <;> first | rfl | cases h

/-- The header names the type in 16 bits. -/
theorem frameHeader_type {msgType : UInt32} (h : msgType.toNat < 2^16) (flags : UInt8) (len : Nat)
    (packetId : UInt64) : (frameHeader flags msgType len packetId).type = msgType := by
  apply UInt32.toNat_inj.mp
  show (msgType.toUInt16.toUInt32).toNat = msgType.toNat
  rw [UInt16.toNat_toUInt32,UInt32.toNat_toUInt16]
  exact Nat.mod_eq_of_lt h

theorem Impl.onBus_type (st : Impl) : ∀ d ∈ st.onBus, d.1.toNat < 2^16 := by
  intro d hd
  obtain ⟨e,_,he⟩ := List.mem_filterMap.mp hd
  split at he
  · rename_i hdr _ _ _ _
    cases he
    show (hdr.payloadType.toUInt32).toNat < 2^16
    rw [UInt16.toNat_toUInt32]
    exact hdr.payloadType.toNat_lt
  · cases he

/-- A frame whose length fits into its header, in one piece, is taken on the fast path. -/
theorem isWholeFrame_frame {w : Bytes} (hw : w.length < 2^32) (hb : r.recvBuf = [])
    (flags : UInt8) (msgType : UInt32) (packetId : UInt64) :
    isWholeFrame r ((frameHeader flags msgType w.length packetId).encode ++ w) = true := by
  have hlen : (UInt32.ofNat w.length).toNat = w.length := by
    rw [UInt32.toNat_ofNat']
    exact Nat.mod_eq_of_lt hw
  unfold isWholeFrame
  rw [Header.decode_encode]
  simp only [hb,List.isEmpty_nil,List.length_append,Header.encode_length,frameHeader,hlen,
    beq_self_eq_true,Nat.le_add_right,decide_true,Bool.and_self]

theorem isWholeFrame_long {w : Bytes} (hw : 2^32 ≤ w.length) (flags : UInt8) (msgType : UInt32)
    (packetId : UInt64) :
    isWholeFrame r ((frameHeader flags msgType w.length packetId).encode ++ w) = false := by
  have hlen : (UInt32.ofNat w.length).toNat < 2^32 := (UInt32.ofNat w.length).toNat_lt
  unfold isWholeFrame
  rw [Header.decode_encode]
  simp only [List.length_append,Header.encode_length,frameHeader,Bool.and_eq_false_iff,
    decide_eq_false_iff_not]
  exact Or.inl (Or.inl (Or.inr (by omega)))

theorem Impl.handleData_whole (hs : st.shuttingDown = false) (hid : st.resolveTransport id = peer)
    (hr : st.find peer = some r) (hb : r.recvBuf = []) {w : Bytes} (hw : w.length < 2^32)
    (flags : UInt8) (msgType : UInt32) (packetId : UInt64) :
    (st.handleData env id ((frameHeader flags msgType w.length packetId).encode ++ w) []).1 =
      st.dispatchPacket env peer (frameHeader flags msgType w.length packetId) w := by
  unfold handleData
  simp only [hs,Bool.false_eq_true,ite_false,hid,hr,isWholeFrame_frame hw hb,ite_true]
  rw [Header.decode_encode,List.drop_left' (Header.encode_length _)]
  rfl

theorem Impl.onBus_closeNow (st : Impl) (id : Nat) : (st.closeNow env id).onBus = st.onBus := by
  have hdisconnect : ∀ (st : Impl) (via : Nat), (st.handleDisconnect via).onBus = st.onBus := by
    intro st via
    obtain ⟨new,hl,hn⟩ := st.handleDisconnect_log via
    have hold : ∀ e ∈ new ++ [.disconnecting via st.toRegistry], e.isDelivery = false := by
      intro e he
      rcases List.mem_append.mp he with he | he
      · exact Effect.isDelivery_report (hn e he)
      · rw [List.mem_singleton.mp he]
        rfl
    exact onBus_log (by rw [hl,List.append_assoc]; rfl) hold
  have hclosed : ∀ (st : Impl) (via : Nat), (st.closed env via).onBus = st.onBus := by
    intro st via
    unfold closed
    split
    · exact hdisconnect st.ask via
    · rfl
  have hvia : ∀ (st : Impl) (scheme : String) (via : Nat),
      (st.closeNowVia env scheme via).1.onBus = st.onBus := by
    intro st scheme via
    unfold closeNowVia
    split
    · split
      · exact (hclosed _ via).trans (onBus_emit _ rfl)
      · split
        · exact (hclosed _ via).trans (onBus_emit _ rfl)
        · rfl
    · rfl
  have hpaths : ∀ (paths : List TransportPath) (st : Impl),
      (st.closePaths (Impl.closeNowVia env) paths).1.onBus = st.onBus := by
    intro paths
    induction paths with
    | nil => exact fun st => rfl
    | cons p ps ih => exact fun st => (ih _).trans (hvia st _ _)
  unfold closeNow
  split
  · rfl
  · dsimp only
    split
    · exact hpaths _ _
    · exact (hvia _ _ _).trans (hpaths _ _)

/-- A frame too long for its header drowns the receive buffer. -/
theorem Impl.handleData_long (hs : st.shuttingDown = false) (hid : st.resolveTransport id = peer)
    (hr : st.find peer = some r) {w : Bytes} (hw : 2^32 ≤ w.length) (flags : UInt8)
    (msgType : UInt32) (packetId : UInt64) :
    (st.handleData env id
      ((frameHeader flags msgType w.length packetId).encode ++ w) []).1.onBus = st.onBus := by
  have hbig : maxRecvBuf < (r.recvBuf ++
      ((frameHeader flags msgType w.length packetId).encode ++ w)).length := by
    rw [List.length_append,List.length_append]
    unfold maxRecvBuf
    omega
  unfold handleData
  simp only [hs,Bool.false_eq_true,ite_false,hid,hr,isWholeFrame_long hw,hbig,ite_true]
  unfold protocolError
  rw [onBus_closeNow,onBus_emit _ rfl]
  rfl

/-- The last leg keeps everything a later frame depends on. -/
theorem Impl.deliverToBus_after (env : Env) (st : Impl) (id : Nat) (owner : ConnectionRecord) :
    (st.deliverToBus env id owner).onBus = st.onBus ∧
      (st.deliverToBus env id owner).shuttingDown = st.shuttingDown ∧
      (st.deliverToBus env id owner).transportIndex = st.transportIndex := by
  unfold deliverToBus
  dsimp only
  split
  · refine ⟨?_,rfl,rfl⟩
    rw [onBus_emit _ rfl]
    rfl
  · split
    · refine ⟨?_,rfl,rfl⟩
      rw [onBus_emit _ rfl,onBus_emit _ rfl]
      rfl
    · exact ⟨rfl,rfl,rfl⟩

end

/-- A node that takes in frames for a connection on the given transport, with nothing
buffered. -/
structure Impl.Listens (st : Impl) (id peer : Nat) : Prop where
  running : st.shuttingDown = false
  resolves : st.resolveTransport id = peer
  empty : ∀ r, st.find peer = some r → r.recvBuf = []

section
variable {env : Env} {st : Impl} {id peer : Nat} {s : NoiseSession} {r : ConnectionRecord}

theorem Impl.decryptFor_after (env : Env) (st : Impl) (id : Nat) (s : NoiseSession) (hdr : Header)
    (payload : Bytes) :
    (st.decryptFor env id s hdr payload).1.onBus = st.onBus ∧
      (st.decryptFor env id s hdr payload).1.shuttingDown = st.shuttingDown ∧
      (st.decryptFor env id s hdr payload).1.transportIndex = st.transportIndex := by
  rcases st.decryptFor_cases env id s hdr payload with ⟨_,_,h⟩ | ⟨_,h⟩
  · rw [h,onBus_emit _ rfl]
    exact ⟨rfl,rfl,rfl⟩
  · rw [h]
    exact ⟨rfl,rfl,rfl⟩

theorem isBusType_cases {msgType : UInt32} (h : isBusType msgType = true) :
    isHandshakeType msgType = false ∧ msgType ≠ msgTypeHeartbeat ∧ msgType ≠ msgTypeRelay := by
  simp only [isBusType,Bool.and_eq_true,Bool.not_eq_true',bne_iff_ne,ne_eq] at h
  exact ⟨h.1.1,h.1.2,h.2⟩

theorem Impl.Listens.keep {st' : Impl} (h : st.Listens id peer) (hu : Undisturbed peer st st')
    (hs : st'.shuttingDown = st.shuttingDown) (ht : st'.transportIndex = st.transportIndex) :
    st'.Listens id peer where
  running := hs.trans h.running
  resolves := by
    unfold resolveTransport
    rw [ht]
    exact h.resolves
  empty := fun r' hr' => by
    obtain ⟨r,hr,hb⟩ := hu.buffer r' hr'
    exact hb.trans (h.empty r hr)

/-- An encrypted frame comes in. -/
theorem Hop.takes (h : Hop st peer s r) (hl : st.Listens id peer) (hp : peer < st.nextId)
    {msgType : UInt32} (ht : msgType.toNat < 2^16) (hbus : isBusType msgType = true) {w : Bytes}
    (hw : w.length < 2^32) (n : UInt64) :
    ∃ st' r', st' = (st.handleData env id
        ((frameHeader 0 msgType w.length n).encode ++ w) []).1 ∧
      Hop st' peer (s.decrypt env.sodium env.zstd w n).1 r' ∧ st'.Listens id peer ∧
      peer < st'.nextId ∧
      st'.onBus = (if (s.decrypt env.sodium env.zstd w n).2.isEmpty then []
        else [(msgType,(s.decrypt env.sodium env.zstd w n).2)]) ++ st.onBus := by
  obtain ⟨hhand,hbeat,hrelay⟩ := isBusType_cases hbus
  have htype := frameHeader_type ht 0 w.length n
  have hdepth : dispatchDepth = dispatchDepth-1+1 := by decide
  have hdata : (st.handleData env id ((frameHeader 0 msgType w.length n).encode ++ w) []).1 =
      st.dispatchNested env (dispatchDepth-1+1) peer (frameHeader 0 msgType w.length n) w :=
    (Impl.handleData_whole hl.running hl.resolves h.find (hl.empty r h.find) hw 0 msgType n).trans
      (congrArg (fun k => st.dispatchNested env k peer _ w) hdepth)
  have hsteps : Undisturbed peer st
      (st.dispatchNested env (dispatchDepth-1+1) peer (frameHeader 0 msgType w.length n) w) :=
    (Impl.dispatchNested_steps _ st peer _ w).undisturbed hp
  rw [h.dispatch_eq (by rw [htype]; exact hhand),
    if_neg (by simp [frameHeader])] at hdata hsteps
  rw [hdata]
  dsimp only at hsteps ⊢
  have hdec : Hop (st.decryptFor env peer s (frameHeader 0 msgType w.length n) w).1 peer
      (s.decrypt env.sodium env.zstd w n).1 _ := h.decrypted _ w
  obtain ⟨hlog,hrun,hindex⟩ := st.decryptFor_after env peer s (frameHeader 0 msgType w.length n) w
  have hid : (frameHeader 0 msgType w.length n).packetId = n := rfl
  rw [hid] at hsteps ⊢
  cases hempty : (s.decrypt env.sodium env.zstd w n).2.isEmpty with
  | true =>
    rw [if_pos hempty] at hsteps
    refine ⟨_,_,rfl,hdec.emit _,hl.keep hsteps hrun hindex,
      Nat.lt_of_lt_of_le hp hsteps.nextId,?_⟩
    exact (Impl.onBus_emit _ rfl).trans hlog
  | false =>
    rw [hempty] at hsteps
    rw [if_neg Bool.false_ne_true,if_neg (by rw [htype]; exact hbeat),
      if_neg (by rw [htype]; exact hrelay)] at hsteps ⊢
    obtain ⟨hbuslog,hbusrun,hbusindex⟩ := Impl.deliverToBus_after env
      ((st.decryptFor env peer s (frameHeader 0 msgType w.length n) w).1.deliver peer r .bus
        (frameHeader 0 msgType w.length n) w (s.decrypt env.sodium env.zstd w n).2) peer r
    obtain ⟨r',hr'⟩ := (hdec.deliver r .bus (frameHeader 0 msgType w.length n) w
      (s.decrypt env.sodium env.zstd w n).2).agrees
        ((Impl.deliverToBus_quiet _ peer r).agrees (fun r => rfl))
    refine ⟨_,r',rfl,hr',hl.keep hsteps (hbusrun.trans hrun) (hbusindex.trans hindex),
      Nat.lt_of_lt_of_le hp hsteps.nextId,?_⟩
    rw [hbuslog,Impl.onBus_deliver,htype,hlog]
    rfl

end

/-- A local peer, on the passthrough path. -/
structure Nearby (st : Impl) (id : Nat) (r : ConnectionRecord) : Prop where
  find : st.find id = some r
  established : r.established = true
  passthrough : r.localhostPassthrough = true

section
variable {env : Env} {st st' : Impl} {id peer : Nat} {r : ConnectionRecord}

theorem Nearby.agrees (h : Nearby st peer r) (ha : Impl.Agrees ConnectionRecord.keyed st st') :
    ∃ r', Nearby st' peer r' := by
  obtain ⟨r',hr',hk⟩ := ha.find_some h.find
  simp only [ConnectionRecord.keyed,ConnectionRecord.standing,Prod.mk.injEq] at hk
  obtain ⟨⟨hstate,_,hpass,_⟩,_⟩ := hk
  refine ⟨r',hr',?_,hpass.trans h.passthrough⟩
  have he := h.established
  unfold ConnectionRecord.established at he ⊢
  rw [hstate]
  exact he

/-- A frame in clear comes in: whatever it carries goes to the bus. -/
theorem Nearby.takes (h : Nearby st peer r) (hl : st.Listens id peer) (hp : peer < st.nextId)
    {msgType : UInt32} (ht : msgType.toNat < 2^16) (hbus : isBusType msgType = true) {w : Bytes}
    (hw : w.length < 2^32) (n : UInt64) :
    ∃ st' r', st' = (st.handleData env id
        ((frameHeader gnetFlagTrusted msgType w.length n).encode ++ w) []).1 ∧
      Nearby st' peer r' ∧ st'.Listens id peer ∧ peer < st'.nextId ∧
      st'.onBus = (msgType,w) :: st.onBus := by
  obtain ⟨hhand,hbeat,hrelay⟩ := isBusType_cases hbus
  have htype := frameHeader_type ht gnetFlagTrusted w.length n
  have hdata : (st.handleData env id
      ((frameHeader gnetFlagTrusted msgType w.length n).encode ++ w) []).1 =
        st.dispatchNested env (dispatchDepth-1+1) peer
          (frameHeader gnetFlagTrusted msgType w.length n) w :=
    (Impl.handleData_whole hl.running hl.resolves h.find (hl.empty r h.find) hw _ msgType n).trans
      (congrArg (fun k => st.dispatchNested env k peer _ w) (by decide))
  have hsteps : Undisturbed peer st (st.dispatchNested env (dispatchDepth-1+1) peer
      (frameHeader gnetFlagTrusted msgType w.length n) w) :=
    (Impl.dispatchNested_steps _ st peer _ w).undisturbed hp
  have hthrough : st.dispatchNested env (dispatchDepth-1+1) peer
      (frameHeader gnetFlagTrusted msgType w.length n) w =
        (st.deliver peer r .bus (frameHeader gnetFlagTrusted msgType w.length n) w w).deliverToBus
          env peer r := by
    simp only [isHandshakeType,Bool.or_eq_false_iff,beq_eq_false_iff_ne,ne_eq] at hhand
    obtain ⟨⟨h1,h2⟩,h3⟩ := hhand
    unfold Impl.dispatchNested
    simp only [htype,h1,h2,h3,hbeat,hrelay,ite_false,h.find,h.established,Bool.not_true,
      Bool.false_eq_true,Impl.openPayload,h.passthrough,ite_true]
  rw [hthrough] at hdata hsteps
  obtain ⟨hbuslog,hbusrun,hbusindex⟩ := Impl.deliverToBus_after env
    (st.deliver peer r .bus (frameHeader gnetFlagTrusted msgType w.length n) w w) peer r
  have hopen : Nearby (st.deliver peer r .bus (frameHeader gnetFlagTrusted msgType w.length n) w w)
      peer r := ⟨h.find,h.established,h.passthrough⟩
  obtain ⟨r',hr'⟩ := hopen.agrees ((Impl.deliverToBus_quiet _ peer r).agrees (fun r => rfl))
  refine ⟨_,r',hdata.symm,hr',hl.keep hsteps hbusrun hbusindex,
    Nat.lt_of_lt_of_le hp hsteps.nextId,?_⟩
  rw [hbuslog,Impl.onBus_deliver,htype]

end

end GoodNet
