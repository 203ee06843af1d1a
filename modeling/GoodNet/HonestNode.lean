import GoodNet.ManagerSteps
import GoodNet.NoiseExchange
set_option autoImplicit false

/-! What a node does with the handshake frames of an honest peer, when its connector takes
every frame and reports a close later. -/

namespace GoodNet
open Codec Noise

/-- Keys as libsodium generates them. -/
structure NodeIdentity.Lawful (S : Sodium) (me : NodeIdentity) : Prop where
  signs : ∀ m, S.verifyDetached (S.signDetached me.userSeckey m) m me.userPubkey = true
  converts : S.pkToCurve25519 me.devicePubkey =
    some (S.scalarmultBase (S.skToCurve25519 me.deviceSeckey))

/-- The static Noise key of a node. -/
def NodeIdentity.static (S : Sodium) (me : NodeIdentity) : Key :=
  S.scalarmultBase (S.skToCurve25519 me.deviceSeckey)

/-- A payload that passes for the identity of `me`. -/
structure Introduces (S : Sodium) (me : NodeIdentity) (data : Bytes) : Prop where
  long : handshakePayloadSize ≤ data.length
  user : (HandshakePayload.decode data).userPubkey = me.userPubkey
  device : (HandshakePayload.decode data).devicePubkey = me.devicePubkey
  signature : S.verifyDetached (HandshakePayload.decode data).signature
    (me.userPubkey.bytes ++ me.devicePubkey.bytes) me.userPubkey = true

theorem schemeSlot_length (s : String) : (schemeSlot s).length = handshakeSchemeLen := by
  unfold schemeSlot
  dsimp only
  rw [List.length_append,List.length_replicate,List.length_take]
  unfold handshakeSchemeLen
  omega

theorem setSchemes_length (sv : List String) : (setSchemes sv).2.length = 128 := by
  have hslots : ∀ used : List String,
      (used.flatMap schemeSlot).length = handshakeSchemeLen*used.length := by
    intro used
    induction used with
    | nil => rfl
    | cons s used ih =>
      rw [List.flatMap_cons,List.length_append,schemeSlot_length,ih,List.length_cons]
      unfold handshakeSchemeLen
      omega
  unfold setSchemes
  dsimp only
  rw [List.length_append,hslots,List.length_replicate,List.length_take]
  unfold handshakeSchemeLen handshakeMaxSchemes
  omega

theorem HandshakePayload.encode_length {p : HandshakePayload} (h : p.schemes.length = 128) :
    p.encode.length = handshakePayloadSize := by
  simp [encode,h,handshakePayloadSize]

theorem HandshakePayload.decode_encode (p : HandshakePayload) :
    (HandshakePayload.decode p.encode).userPubkey = p.userPubkey ∧
      (HandshakePayload.decode p.encode).devicePubkey = p.devicePubkey ∧
      (HandshakePayload.decode p.encode).signature = p.signature := by
  have hshape : p.encode = p.userPubkey.bytes ++ (p.devicePubkey.bytes ++ (p.signature.bytes ++
      ([p.schemesCount] ++ p.schemes ++ leBytes 4 p.coreMeta.coreVersion.toNat ++
        leBytes 4 p.coreMeta.capsMask.toNat))) := by simp [encode]
  have hdevice : p.encode.drop 32 = p.devicePubkey.bytes ++ (p.signature.bytes ++
      ([p.schemesCount] ++ p.schemes ++ leBytes 4 p.coreMeta.coreVersion.toNat ++
        leBytes 4 p.coreMeta.capsMask.toNat)) := by rw [hshape,Block.drop_bytes]
  have hsign : p.encode.drop 64 = p.signature.bytes ++ ([p.schemesCount] ++ p.schemes ++
      leBytes 4 p.coreMeta.coreVersion.toNat ++ leBytes 4 p.coreMeta.capsMask.toNat) := by
    rw [← Block.drop_bytes p.devicePubkey (p.signature.bytes ++ _),← hdevice,List.drop_drop]
  refine ⟨?_,?_,?_⟩
  · unfold decode
    dsimp only
    rw [hshape,Block.ofBytes_append]
  · unfold decode
    dsimp only
    rw [hdevice,Block.ofBytes_append]
  · unfold decode
    dsimp only
    rw [hsign,Block.ofBytes_append]

theorem Impl.introduces {env : Env} {st : Impl} {me : NodeIdentity} (h : me.Lawful env.sodium)
    (hst : st.identity = me) : Introduces env.sodium me (st.buildHandshakePayload env) ∧
      (st.buildHandshakePayload env).length = handshakePayloadSize := by
  unfold buildHandshakePayload
  dsimp only
  have hlen := HandshakePayload.encode_length (p :=
    { userPubkey := st.identity.userPubkey, devicePubkey := st.identity.devicePubkey,
      signature := env.sodium.signDetached st.identity.userSeckey
        (st.identity.userPubkey.bytes ++ st.identity.devicePubkey.bytes),
      schemesCount := (setSchemes st.localSchemes).1, schemes := (setSchemes st.localSchemes).2,
      coreMeta := st.localCoreMeta }) (setSchemes_length st.localSchemes)
  obtain ⟨hu,hd,hs⟩ := HandshakePayload.decode_encode
    { userPubkey := st.identity.userPubkey, devicePubkey := st.identity.devicePubkey,
      signature := env.sodium.signDetached st.identity.userSeckey
        (st.identity.userPubkey.bytes ++ st.identity.devicePubkey.bytes),
      schemesCount := (setSchemes st.localSchemes).1, schemes := (setSchemes st.localSchemes).2,
      coreMeta := st.localCoreMeta }
  refine ⟨⟨hlen.ge,?_,?_,?_⟩,hlen⟩
  · rw [hu,hst]
  · rw [hd,hst]
  · rw [hs,hst]
    exact h.signs _

/-- A connector that takes every frame and reports a close only later. -/
structure Env.Reliable (env : Env) : Prop where
  sends : ∀ n, env.sends n = true
  closes : ∀ n, env.closes n = false

/-- A running node with nothing but the TCP connector, and nothing waiting anywhere. -/
structure Impl.Ready (me : NodeIdentity) (ops : ConnectorOps) (st : Impl) : Prop where
  identity : st.identity = me
  running : st.shuttingDown = false
  connectors : st.connectors = (∅ : Table String ConnectorOps).insert "tcp" ops
  transports : ∀ id, st.transportIndex.lookup id = none
  queues : ∀ id q, st.sendQueues.lookup id = some q → q.frames = [] ∧ q.pendingBytes = 0
  pending : ∀ key, st.pendingMessages.lookup key = none

/-- What reaches a connector. -/
def Effect.isOutgoing : Effect → Bool
  | .sendTo .. => true
  | .sendGather .. => true
  | .close .. => true
  | .closeNow .. => true
  | _ => false

def Impl.outbox (st : Impl) : List Effect := st.log.filter Effect.isOutgoing

/-- An operation on one record that hands `new` to connectors. -/
structure Acts (me : NodeIdentity) (ops : ConnectorOps) (id : Nat) (st st' : Impl)
    (new : List Effect) : Prop where
  ready : st'.Ready me ops
  elsewhere : ∀ j, j ≠ id → st'.find j = st.find j
  pk : st'.pkIndex = st.pkIndex
  outbox : st'.outbox = new ++ st.outbox

section
variable {env : Env} {me : NodeIdentity} {ops : ConnectorOps} {id : Nat} {st st' st'' : Impl}
  {new new' : List Effect} {r : ConnectionRecord}

theorem Acts.refl (h : st.Ready me ops) : Acts me ops id st st [] := ⟨h,fun _ _ => rfl,rfl,rfl⟩

theorem Acts.trans (h : Acts me ops id st st' new) (h' : Acts me ops id st' st'' new') :
    Acts me ops id st st'' (new' ++ new) := by
  refine ⟨h'.ready,fun j hj => (h'.elsewhere j hj).trans (h.elsewhere j hj),h'.pk.trans h.pk,?_⟩
  rw [h'.outbox,h.outbox,List.append_assoc]

theorem Acts.emit (id : Nat) (h : st.Ready me ops) {e : Effect} (he : e.isOutgoing = false) :
    Acts me ops id st (st.emit e) [] := by
  refine ⟨⟨h.identity,h.running,h.connectors,h.transports,h.queues,h.pending⟩,fun _ _ => rfl,rfl,?_⟩
  show List.filter Effect.isOutgoing (e :: st.log) = _
  rw [List.filter_cons_of_neg (by simp [he])]
  rfl

theorem Acts.say (h : st.Ready me ops) {e : Effect} (he : e.isOutgoing = true) :
    Acts me ops id st (st.emit e) [e] := by
  refine ⟨⟨h.identity,h.running,h.connectors,h.transports,h.queues,h.pending⟩,fun _ _ => rfl,rfl,?_⟩
  exact List.filter_cons_of_pos he

theorem Acts.ask (h : st.Ready me ops) : Acts me ops id st st.ask [] :=
  ⟨⟨h.identity,h.running,h.connectors,h.transports,h.queues,h.pending⟩,fun _ _ => rfl,rfl,rfl⟩

theorem Acts.modify (id : Nat) (h : st.Ready me ops) (f : ConnectionRecord → ConnectionRecord) :
    Acts me ops id st (st.modify id f) [] := by
  refine ⟨⟨h.identity,h.running,h.connectors,h.transports,h.queues,h.pending⟩,fun j hj => ?_,rfl,rfl⟩
  rw [Impl.find_modify,if_neg hj]

theorem Acts.setQueue (id : Nat) (h : st.Ready me ops) {q : PerConnQueue} (hq : q.frames = [])
    (hp : q.pendingBytes = 0) : Acts me ops id st (st.setQueue id q) [] := by
  refine ⟨⟨h.identity,h.running,h.connectors,h.transports,fun j p hj => ?_,h.pending⟩,
    fun _ _ => rfl,rfl,rfl⟩
  by_cases hjd : j = id
  · subst hjd
    simp only [Impl.setQueue,AList.lookup_insert,Option.some.injEq] at hj
    subst hj
    exact ⟨hq,hp⟩
  · simp only [Impl.setQueue,AList.lookup_insert_ne hjd] at hj
    exact h.queues j p hj

theorem Impl.Ready.connector (h : st.Ready me ops) : st.findConnector "tcp" = some ops := by
  unfold findConnector
  rw [h.connectors,if_neg (by decide),AList.lookup_insert]

/-- A record with its one path over TCP. -/
def ConnectionRecord.Direct (id : Nat) (r : ConnectionRecord) : Prop :=
  ∃ p, r.transportPaths = [p] ∧ p.transportConnId = id ∧ p.scheme = "tcp" ∧ p.active = true

/-- The record after a batch went out over its path. -/
def ConnectionRecord.flushed (id : Nat) (r : ConnectionRecord) : ConnectionRecord :=
  { r with transportPaths := modifyPath r.transportPaths id TransportPath.succeed }

theorem ConnectionRecord.Direct.flushed (h : r.Direct id) : (r.flushed id).Direct id := by
  obtain ⟨p,hp,hid,hs,ha⟩ := h
  refine ⟨p.succeed,?_,hid,hs,ha⟩
  simp [ConnectionRecord.flushed,modifyPath,hp,hid]

theorem ConnectionRecord.Direct.activePaths (h : r.Direct id) :
    ∃ p, r.activePaths = [p] ∧ p.transportConnId = id ∧ p.scheme = "tcp" := by
  obtain ⟨p,hp,hid,hs,ha⟩ := h
  refine ⟨p,?_,hid,hs⟩
  simp [ConnectionRecord.activePaths,hp,ha]

theorem Impl.Ready.queue (id : Nat) (h : st.Ready me ops) :
    Acts me ops id st (st.getOrCreateQueue id).1 [] ∧
      (st.getOrCreateQueue id).2.frames = [] ∧ (st.getOrCreateQueue id).2.pendingBytes = 0 := by
  unfold getOrCreateQueue
  cases hq : st.sendQueues.lookup id with
  | some q => exact ⟨Acts.refl h,h.queues id q hq⟩
  | none => exact ⟨Acts.setQueue id h rfl rfl,rfl,rfl⟩

theorem Impl.flushFrame_acts (id : Nat) (henv : env.Reliable) (h : st.Ready me ops)
    (owner : ConnectionRecord)
    (frame : Bytes) :
    Acts me ops id st (st.flushFramesToConnector env owner id "tcp" ops [frame]).1
      [.sendTo owner id "tcp" frame true] ∧
    (st.flushFramesToConnector env owner id "tcp" ops [frame]).2 = true ∧
    (st.flushFramesToConnector env owner id "tcp" ops [frame]).1.find id = st.find id := by
  have hone : st.flushFramesToConnector env owner id "tcp" ops [frame] =
      ((((st.ask.emit (.sendTo owner id "tcp" frame true)).emit
        (.stat .txBytes frame.length id)).emit (.stat .txPacket 1 id)),true) := by
    simp [flushFramesToConnector,sendEach,henv.sends]
  rw [hone]
  refine ⟨?_,rfl,rfl⟩
  have h1 : Acts me ops id st st.ask [] := Acts.ask h
  have h2 : Acts me ops id st.ask (st.ask.emit (.sendTo owner id "tcp" frame true)) _ :=
    Acts.say h1.ready rfl
  have h3 := (h1.trans h2).trans (Acts.emit id h2.ready (e := .stat .txBytes frame.length id) rfl)
  exact h3.trans (Acts.emit id h3.ready rfl)

def PerConnQueue.holding (q : PerConnQueue) (frames : List Bytes) : PerConnQueue :=
  { q with frames := frames, pendingBytes := totalBytes frames }

theorem PerConnQueue.push_one {q : PerConnQueue} {frame : Bytes} (hq : q.frames = [])
    (hp : q.pendingBytes = 0) (hl : frame.length ≤ perConnMaxBytes) :
    q.tryPush frame = (q.holding [frame],true) := by
  unfold tryPush holding
  rw [hp,hq,Nat.zero_add,if_neg (Nat.not_lt.mpr hl)]
  rfl

theorem PerConnQueue.drain_one (q : PerConnQueue) (frame : Bytes) :
    (q.holding [frame]).drainBatch 64 = (q.holding [],[frame]) := by
  unfold drainBatch holding
  simp [totalBytes]

theorem Impl.flushQueue_one (henv : env.Reliable) (h : st.Ready me ops) (hr : st.find id = some r)
    (hd : r.Direct id) (q : PerConnQueue) (frame : Bytes) :
    (st.setQueue id (q.holding [frame])).flushQueue env id =
      ((st.setQueue id (q.holding [])).flushFramesToConnector env r id "tcp" ops
        [frame]).1.modifyPath id id TransportPath.succeed := by
  obtain ⟨p,hp,hpid,hps⟩ := hd.activePaths
  have hready : (st.setQueue id (q.holding [])).Ready me ops := (Acts.setQueue id h rfl rfl).ready
  have hok := (flushFrame_acts id henv hready r frame).2.1
  have hfind : (st.setQueue id (q.holding [frame])).find id = some r := hr
  have hlook : (st.setQueue id (q.holding [frame])).sendQueues.lookup id =
      some (q.holding [frame]) := AList.lookup_insert _
  have hset : (st.setQueue id (q.holding [frame])).setQueue id (q.holding []) =
      st.setQueue id (q.holding []) := by simp [setQueue,AList.insert_insert]
  have hrun : (st.setQueue id (q.holding [frame])).shuttingDown = false := h.running
  unfold flushQueue
  simp only [hrun,Bool.false_eq_true,ite_false,hfind,hlook,PerConnQueue.drain_one,
    List.isEmpty_cons,hset,hp,tryPaths,hps,hready.connector,hpid,hok,ite_true]

/-- One frame, pushed to an empty queue, goes out at once and alone. -/
theorem Impl.pushAndFlush_acts (henv : env.Reliable) (h : st.Ready me ops)
    (hr : st.find id = some r) (hd : r.Direct id) {frame : Bytes}
    (hl : frame.length ≤ perConnMaxBytes) :
    Acts me ops id st (st.pushAndFlush env id frame) [.sendTo r id "tcp" frame true] ∧
      (st.pushAndFlush env id frame).find id = some (r.flushed id) := by
  obtain ⟨hacts,hempty,hzero⟩ := h.queue id
  obtain ⟨hfind,_⟩ := st.getOrCreateQueue_same id id
  unfold pushAndFlush
  dsimp only
  rw [PerConnQueue.push_one hempty hzero hl]
  simp only [ite_true]
  rw [flushQueue_one henv hacts.ready (hfind.trans hr) hd]
  have hset := Acts.setQueue id (q := (st.getOrCreateQueue id).2.holding []) hacts.ready rfl rfl
  obtain ⟨hsend,_,hsame⟩ := flushFrame_acts id henv hset.ready r frame
  have hall := ((hacts.trans hset).trans hsend).trans (Acts.modify id hsend.ready
    (fun r => { r with transportPaths := GoodNet.modifyPath r.transportPaths id TransportPath.succeed }))
  refine ⟨hall,?_⟩
  unfold modifyPath
  rw [find_modify_self,hsame]
  show Option.map _ ((st.getOrCreateQueue id).1.find id) = _
  rw [hfind,hr]
  rfl

theorem ConnectionRecord.frame_handshake {S : Sodium} {Z : Zstd} {c : Compression}
    {msgType : UInt32} (h : isHandshakeType msgType = true) (payload : Bytes) :
    ∃ flags, r.frame S Z c msgType payload =
      (frameHeader flags msgType payload.length r.sendPacketId).encode ++ payload := by
  refine ⟨if r.isLocalhost then gnetFlagTrusted else 0,?_⟩
  simp [ConnectionRecord.frame,h]

/-- The frame is of the given type and has the given payload. -/
structure IsFrame (msgType : UInt32) (payload frame : Bytes) : Prop where
  type : (Header.decode frame).type = msgType
  payload : frame.drop headerSize = payload

theorem isFrame_header {msgType : UInt32} (h : isHandshakeType msgType = true) (flags : UInt8)
    (len : Nat) (packetId : UInt64) (payload : Bytes) :
    IsFrame msgType payload ((frameHeader flags msgType len packetId).encode ++ payload) := by
  refine ⟨?_,?_⟩
  · rw [Header.decode_encode]
    simp only [isHandshakeType,Bool.or_eq_true,beq_iff_eq] at h
    rcases h with (rfl | rfl) | rfl
    · rfl
    · rfl
    · rfl
  · rw [← (frameHeader flags msgType len packetId).encode_length,List.drop_left]

/-- A handshake frame of moderate size goes out as it is. -/
theorem Impl.sendFrame_acts (henv : env.Reliable) (h : st.Ready me ops)
    (hr : st.find id = some r) (hd : r.Direct id) (msgType : UInt32)
    (ht : isHandshakeType msgType = true) {payload : Bytes} (hl : payload.length ≤ 1000) :
    ∃ frame, IsFrame msgType payload frame ∧
      Acts me ops id st (st.sendFrame env id msgType payload)
        [.sendTo r.takePacketId id "tcp" frame true] ∧
      (st.sendFrame env id msgType payload).find id = some (r.takePacketId.flushed id) := by
  obtain ⟨flags,hframe⟩ : ∃ flags, r.frame env.sodium env.zstd st.compression msgType payload =
    (frameHeader flags msgType payload.length r.sendPacketId).encode ++ payload :=
      ConnectionRecord.frame_handshake ht payload
  refine ⟨_,isFrame_header ht flags payload.length r.sendPacketId payload,?_⟩
  have hmod := Acts.modify id h ConnectionRecord.takePacketId
  have hr' : (st.modify id ConnectionRecord.takePacketId).find id = some r.takePacketId := by
    rw [find_modify_self,hr,Option.map_some]
  have hlen : ((frameHeader flags msgType payload.length r.sendPacketId).encode ++ payload).length ≤
      perConnMaxBytes := by
    rw [List.length_append,Header.encode_length]
    unfold headerSize perConnMaxBytes
    omega
  obtain ⟨hpush,hfind⟩ := pushAndFlush_acts henv hmod.ready hr' hd hlen
  have hsend : st.sendFrame env id msgType payload =
      (st.modify id ConnectionRecord.takePacketId).pushAndFlush env id
        ((frameHeader flags msgType payload.length r.sendPacketId).encode ++ payload) := by
    unfold sendFrame buildFrame
    simp only [h.running,Bool.false_eq_true,ite_false,hr,hframe]
    rw [if_neg]
    simp [Header.encode]
  rw [hsend]
  exact ⟨hmod.trans hpush,hfind⟩

theorem Impl.closeNow_acts (henv : env.Reliable) (ho : ops.hasCloseNow = true)
    (h : st.Ready me ops) (hr : st.find id = some r) (hd : r.Direct id) :
    Acts me ops id st (st.closeNow env id) [.closeNow "tcp" id] ∧
      (st.closeNow env id).find id = some r := by
  obtain ⟨p,hp,hpid,hps,_⟩ := hd
  have hclose : st.closeNow env id = (st.emit (.closeNow "tcp" id)).ask := by
    unfold closeNow
    simp [hr,hp,closePaths,closeNowVia,hps,hpid,h.connector,ho,closed,henv.closes]
  rw [hclose]
  have hsay : Acts me ops id st (st.emit (.closeNow "tcp" id)) _ := Acts.say h rfl
  exact ⟨hsay.trans (Acts.ask hsay.ready),hr⟩

theorem Impl.Ready.negotiates (h : st.Ready me ops) (r : ConnectionRecord) :
    st.negotiateScheme r = "tcp" := by
  have hlocal : st.localSchemes = ["tcp"] := by
    unfold localSchemes
    rw [h.connectors]
    rfl
  unfold negotiateScheme
  rw [hlocal]
  cases hf : st.schemePriority.find? (fun prio => ["tcp"].contains prio &&
      (r.peerSchemes.isEmpty || r.peerSchemes.contains prio)) with
  | none => rfl
  | some prio =>
    have hmem := List.find?_some hf
    simp only [Bool.and_eq_true,List.contains_iff_mem,List.mem_singleton] at hmem
    exact hmem.1

theorem Impl.authenticate_direct (h : st.Ready me ops) (hp : HandshakePayload)
    (schemes : List String) (hd : r.Direct id) : (st.authenticate hp schemes r).Direct id := by
  obtain ⟨p,hpath,hpid,hps,ha⟩ := hd
  refine ⟨{ p with scheme := "tcp", priority := st.schemePriorityIndex "tcp" },?_,hpid,rfl,ha⟩
  unfold authenticate
  simp [h.negotiates,hpath]

/-- The identity check passes for the peer whose static key the handshake has brought. -/
theorem Impl.processHandshakePayload_acts {you : NodeIdentity} {hs : HandshakeState}
    {data : Bytes} (hy : you.Lawful env.sodium) (hdata : Introduces env.sodium you data)
    (h : st.Ready me ops) (hr : st.find id = some r) (hd : r.Direct id)
    (hh : r.handshake = some hs) (hrs : hs.rs = you.static env.sodium) :
    (st.processHandshakePayload env id data).2 = true ∧
      Acts me ops id st (st.processHandshakePayload env id data).1 [] ∧
      ∃ r', (st.processHandshakePayload env id data).1.find id = some r' ∧ r'.Direct id ∧
        r'.handshake = some hs ∧ r'.peerUserPubkey = you.userPubkey ∧
        r'.peerAuthenticated = true := by
  have hproc : st.processHandshakePayload env id data =
      (st.modify id (st.authenticate (HandshakePayload.decode data) (getSchemes data)),true) := by
    have hbind : (st.find id).bind ConnectionRecord.handshake = some hs := by rw [hr]; exact hh
    have hconv : env.sodium.pkToCurve25519 you.devicePubkey = some hs.rs := by
      rw [hrs]
      exact hy.converts
    unfold processHandshakePayload
    rw [if_neg (Nat.not_lt.mpr hdata.long)]
    dsimp only
    rw [hdata.user,hdata.device,hdata.signature,hbind,hconv]
    simp
  have hr' : (st.modify id (st.authenticate (HandshakePayload.decode data)
      (getSchemes data))).find id =
      some (st.authenticate (HandshakePayload.decode data) (getSchemes data) r) := by
    rw [find_modify_self,hr,Option.map_some]
  obtain ⟨hhs,hauth,_⟩ := st.authenticate_keeps (HandshakePayload.decode data) (getSchemes data) r
  rw [hproc]
  refine ⟨rfl,Acts.modify id h _,_,hr',authenticate_direct h _ _ hd,hhs.trans hh,?_,hauth⟩
  rw [← hdata.user]
  unfold authenticate
  dsimp only
  split
  · rfl
  · rfl

theorem Impl.scheduleTransportUpgrade_acts (id : Nat) (h : st.Ready me ops) :
    Acts me ops id st (st.scheduleTransportUpgrade id) [] ∧
      (st.scheduleTransportUpgrade id).find id = st.find id := by
  unfold scheduleTransportUpgrade
  split
  · exact ⟨Acts.refl h,rfl⟩
  · split
    · exact ⟨Acts.refl h,rfl⟩
    · split
      · exact ⟨Acts.refl h,rfl⟩
      · split
        · exact ⟨Acts.refl h,rfl⟩
        · exact ⟨Acts.emit id h rfl,rfl⟩

theorem Impl.commitSession_ready (env : Env) (id : Nat) (r : ConnectionRecord)
    (h : st.Ready me ops) (hs : HandshakeState) : (st.commitSession env id r hs).Ready me ops :=
  ⟨h.identity,h.running,h.connectors,h.transports,h.queues,h.pending⟩

/-- A node that finishes a handshake with a peer it has no connection to. -/
theorem Impl.finalizeHandshake_up {hs : HandshakeState} (h : st.Ready me ops)
    (hr : st.find id = some r) (hh : r.handshake = some hs)
    (hpk : st.pkIndex.lookup r.pkHex = none) :
    (st.finalizeHandshake env id).Ready me ops ∧
      (∀ j, j ≠ id → (st.finalizeHandshake env id).find j = st.find j) ∧
      (st.finalizeHandshake env id).find id = some (r.committed env.sodium hs) ∧
      (st.finalizeHandshake env id).pkIndex = st.pkIndex.insert r.pkHex id ∧
      (st.finalizeHandshake env id).outbox = st.outbox := by
  have hfin : st.finalizeHandshake env id = st.completeHandshake env id r hs := by
    unfold finalizeHandshake isDuplicate
    simp [hr,hh,hpk]
  have hcommit := commitSession_ready env id r h hs
  have hflush : (st.commitSession env id r hs).flushPendingMessages env r.remote.key id =
      st.commitSession env id r hs := by
    unfold flushPendingMessages
    rw [hcommit.pending]
  have h1 : Acts me ops id (st.commitSession env id r hs)
      ((((st.commitSession env id r hs).emit (.notify r.pkHex .established)).emit
        (.stat .authOk 1 id)).emit (.connState id .established)) [] := by
    have a := Acts.emit id (e := .notify r.pkHex .established) hcommit rfl
    have b := a.trans (Acts.emit id (e := .stat .authOk 1 id) a.ready rfl)
    exact b.trans (Acts.emit id b.ready rfl)
  obtain ⟨h2,hsame⟩ := scheduleTransportUpgrade_acts id h1.ready
  have hdone : ∃ st', st.finalizeHandshake env id = st' ∧
      Acts me ops id (st.commitSession env id r hs) st' [] ∧
      st'.find id = (st.commitSession env id r hs).find id := by
    rw [hfin]
    unfold completeHandshake
    dsimp only
    rw [hflush]
    cases r.isInitiator with
    | true => exact ⟨_,rfl,h1.trans h2,hsame⟩
    | false => exact ⟨_,rfl,h1,rfl⟩
  obtain ⟨st',heq,hacts,hfind⟩ := hdone
  rw [heq]
  refine ⟨hacts.ready,fun j hj => ?_,?_,hacts.pk,?_⟩
  · rw [hacts.elsewhere j hj,commitSession_find_ne r hs hj]
  · rw [hfind,commitSession_find hr]
  · rw [hacts.outbox]
    rfl

/-- A node that has another connection to the peer already. -/
theorem Impl.finalizeHandshake_refused {hs : HandshakeState} {other : Nat} (henv : env.Reliable)
    (ho : ops.hasCloseNow = true) (h : st.Ready me ops) (hr : st.find id = some r)
    (hd : r.Direct id) (hh : r.handshake = some hs)
    (hpk : st.pkIndex.lookup r.pkHex = some other) (hne : other ≠ id) :
    Acts me ops id st (st.finalizeHandshake env id) [.closeNow "tcp" id] ∧
      (st.finalizeHandshake env id).find id = none := by
  have hfin : st.finalizeHandshake env id = (st.closeNow env id).removeDuplicate id r := by
    unfold finalizeHandshake isDuplicate rejectDuplicate
    simp [hr,hh,hpk,hne]
  obtain ⟨hclose,_⟩ := closeNow_acts henv ho h hr hd
  rw [hfin]
  have hremove : Acts me ops id (st.closeNow env id)
      ((st.closeNow env id).removeDuplicate id r) [] := by
    refine ⟨?_,fun j hj => AList.lookup_erase_ne hj,rfl,rfl⟩
    have hready := hclose.ready
    refine ⟨hready.identity,hready.running,hready.connectors,hready.transports,fun j q hq => ?_,
      hready.pending⟩
    by_cases hj : j = id
    · subst hj
      simp [removeDuplicate] at hq
    · simp only [removeDuplicate,AList.lookup_erase_ne hj] at hq
      exact hready.queues j q hq
  exact ⟨hclose.trans hremove,AList.lookup_erase _ _⟩

/-- A connector reports that a connection is gone. -/
theorem Impl.handleDisconnect_acts (id : Nat) (h : st.Ready me ops) :
    (st.handleDisconnect id).Ready me ops ∧
      (∀ j, j ≠ id → (st.handleDisconnect id).find j = st.find j) ∧
      (st.handleDisconnect id).find id = none ∧
      (st.handleDisconnect id).outbox = st.outbox ∧
      (st.handleDisconnect id).pkIndex =
        match st.find id with
        | none => st.pkIndex
        | some r => if r.peerAuthenticated then st.pkIndex.erase r.pkHex else st.pkIndex := by
  have hemit : Acts me ops id st (st.emit (.disconnecting id st.toRegistry)) [] := Acts.emit id h rfl
  unfold handleDisconnect
  dsimp only
  rw [hemit.ready.transports]
  unfold dropPeer
  rw [find_emit]
  cases hr : st.find id with
  | none => exact ⟨hemit.ready,fun _ _ => rfl,hr,hemit.outbox,rfl⟩
  | some r =>
    have hready := hemit.ready
    refine ⟨⟨hready.identity,hready.running,hready.connectors,fun j => ?_,fun j q hq => ?_,
      fun key => ?_⟩,fun j hj => AList.lookup_erase_ne hj,AList.lookup_erase _ _,?_,rfl⟩
    · show (eraseTransports st.transportIndex id r.transportPaths).lookup j = none
      rw [eraseTransports_lookup,h.transports]
      simp
    · by_cases hj : j = id
      · subst hj
        simp [forgetPeer,emit] at hq
      · simp only [forgetPeer,emit,AList.lookup_erase_ne hj] at hq
        exact hready.queues j q hq
    · by_cases hk : key = r.remote.key
      · subst hk
        simp [forgetPeer,emit]
      · simp only [forgetPeer,emit,AList.lookup_erase_ne hk]
        exact hready.pending key
    · exact hemit.outbox

theorem Impl.handshakeAs_eq {hs : HandshakeState} {role : Bool} (hr : st.find id = some r)
    (hh : r.handshake = some hs) (hrole : hs.initiator = role) :
    st.handshakeAs id role = some hs := by
  simp [handshakeAs,hr,hh,hrole]

theorem Impl.readNoise_acts (h : st.Ready me ops) (kind : NoiseFrame) (hs : HandshakeState)
    (msg : Bytes) (cap : Nat) :
    Acts me ops id st (st.readNoise env id kind hs msg cap).1 [] := by
  have hmod := Acts.modify id h (ConnectionRecord.withHandshake (hs.readMessage env.sodium msg).state)
  exact hmod.trans (Acts.emit id hmod.ready rfl)

theorem Impl.writeNoise_acts (h : st.Ready me ops) (hs : HandshakeState) (payload : Bytes) :
    Acts me ops id st (st.writeNoise env id hs payload).1 [] := by
  have hask : Acts me ops id st st.ask [] := Acts.ask h
  have hmod := hask.trans (Acts.modify id hask.ready (ConnectionRecord.withHandshake
    (hs.writeMessage env.sodium (env.random st.asked) payload).state))
  exact hmod.trans (Acts.emit id hmod.ready rfl)

/-- A responder answers a first message. -/
theorem Impl.handleNoiseInit_honest {hi hr : HandshakeState} {msg : Bytes}
    (L : env.sodium.Lawful) (hme : me.Lawful env.sodium) (henv : env.Reliable)
    (h : st.Ready me ops) (hf : st.find id = some r) (hd : r.Direct id)
    (hh : r.handshake = some hr) (hg : Greets env.sodium hi hr msg) :
    ∃ r' hr' payload out frame owner, (st.handleNoiseInit env id msg).find id = some r' ∧
      r'.Direct id ∧ r'.handshake = some hr' ∧ r'.peerAuthenticated = r.peerAuthenticated ∧
      hr'.sPk = hr.sPk ∧ Introduces env.sodium me payload ∧
      Answers env.sodium hi hr' out payload ∧ IsFrame msgTypeNoiseResp out frame ∧
      Acts me ops id st (st.handleNoiseInit env id msg) [.sendTo owner id "tcp" frame true] := by
  unfold handleNoiseInit
  rw [handshakeAs_eq hf hh hg.role]
  dsimp only
  have hread : Acts me ops id st (st.readNoise env id .init hr msg initPayloadCapacity).1 [] :=
    readNoise_acts h _ _ _ _
  have hf₁ : (st.readNoise env id .init hr msg initPayloadCapacity).1.find id = _ := readNoise_find hf
  rw [readNoise_result,hg.ok]
  simp only [Bool.not_true,Bool.false_eq_true,ite_false]
  generalize (st.readNoise env id .init hr msg initPayloadCapacity).1 = st₁ at hread hf₁ ⊢
  obtain ⟨hintro,hlen⟩ := introduces hme hread.ready.identity
  obtain ⟨hok,hans,hout,hpk⟩ := second_message L.seal_open hg.met hg.ephemeral
    (env.random st₁.asked) (L.dh_agree _ _) (L.dh_agree _ _) (st₁.buildHandshakePayload env)
  have hwrite : Acts me ops id st₁ (st₁.writeNoise env id (hr.readMessage env.sodium msg).state
      (st₁.buildHandshakePayload env)).1 [] := writeNoise_acts hread.ready _ _
  have hf₂ := writeNoise_find env (hr.readMessage env.sodium msg).state
    (st₁.buildHandshakePayload env) hf₁
  have hres : (st₁.writeNoise env id (hr.readMessage env.sodium msg).state
      (st₁.buildHandshakePayload env)).2 = (hr.readMessage env.sodium msg).state.writeMessage
        env.sodium (env.random st₁.asked) (st₁.buildHandshakePayload env) := rfl
  rw [hres] at hf₂ ⊢
  rw [hok]
  simp only [Bool.not_true,Bool.false_eq_true,ite_false]
  have hsmall : ((hr.readMessage env.sodium msg).state.writeMessage env.sodium
      (env.random st₁.asked) (st₁.buildHandshakePayload env)).out.length ≤ 1000 := by
    rw [hout,hlen]
    decide
  obtain ⟨frame,hframe,hsend,hf₃⟩ := sendFrame_acts henv hwrite.ready hf₂ hd
    msgTypeNoiseResp rfl hsmall
  refine ⟨_,_,_,_,frame,_,hf₃,ConnectionRecord.Direct.flushed hd,rfl,rfl,hpk.trans hg.same,hintro,
    hans,hframe,(hread.trans hwrite).trans hsend⟩

/-- A node that has read the last message meant for it: everything but the commit is done. -/
structure Identified (you : NodeIdentity) (id : Nat) (st : Impl) (r : ConnectionRecord)
    (hs : HandshakeState) : Prop where
  find : st.find id = some r
  direct : r.Direct id
  handshake : r.handshake = some hs
  user : r.peerUserPubkey = you.userPubkey
  authenticated : r.peerAuthenticated = true

/-- A responder takes the third message. -/
theorem Impl.handleNoiseFin_honest {you : NodeIdentity} {hr : HandshakeState}
    {msg payload : Bytes} (hyou : you.Lawful env.sodium) (h : st.Ready me ops)
    (hf : st.find id = some r) (hd : r.Direct id) (hh : r.handshake = some hr)
    (hc : Concludes env.sodium hr (you.static env.sodium) msg payload)
    (hp : Introduces env.sodium you payload) :
    ∃ st' r' hs, st.handleNoiseFin env id msg = st'.finalizeHandshake env id ∧
      Acts me ops id st st' [] ∧ Identified you id st' r' hs := by
  unfold handleNoiseFin
  rw [handshakeAs_eq hf hh hc.role]
  dsimp only
  have hread : Acts me ops id st (st.readNoise env id .fin hr msg msg.length).1 [] :=
    readNoise_acts h _ _ _ _
  have hf₁ : (st.readNoise env id .fin hr msg msg.length).1.find id = _ := readNoise_find hf
  rw [readNoise_result]
  generalize (st.readNoise env id .fin hr msg msg.length).1 = st₁ at hread hf₁ ⊢
  obtain ⟨hok,hproc,r',hf₂,hd',hh',hu,ha⟩ :=
    processHandshakePayload_acts hyou hp hread.ready hf₁ hd rfl hc.static
  unfold afterFin
  rw [hc.ok,hc.payload]
  simp only [Bool.not_true,Bool.false_eq_true,ite_false,hok]
  exact ⟨_,r',_,rfl,hread.trans hproc,hf₂,hd',hh',hu,ha⟩

/-- An initiator takes the second message and sends the third. -/
theorem Impl.handleNoiseResp_honest {you : NodeIdentity} {hi hr : HandshakeState}
    {msg payload : Bytes} (L : env.sodium.Lawful) (hme : me.Lawful env.sodium)
    (hyou : you.Lawful env.sodium) (henv : env.Reliable) (h : st.Ready me ops)
    (hf : st.find id = some r) (hd : r.Direct id) (hh : r.handshake = some hi)
    (ha : Answers env.sodium hi hr msg payload) (hs : hr.sPk = you.static env.sodium)
    (hp : Introduces env.sodium you payload) :
    ∃ st' r' hs' out mine frame owner,
      st.handleNoiseResp env id msg = st'.finalizeHandshake env id ∧
      Acts me ops id st st' [.sendTo owner id "tcp" frame true] ∧
      Identified you id st' r' hs' ∧ Introduces env.sodium me mine ∧
      Concludes env.sodium hr hi.sPk out mine ∧ IsFrame msgTypeNoiseFin out frame := by
  unfold handleNoiseResp
  rw [handshakeAs_eq hf hh ha.role]
  dsimp only
  have hread : Acts me ops id st (st.readNoise env id .resp hi msg msg.length).1 [] :=
    readNoise_acts h _ _ _ _
  have hf₁ : (st.readNoise env id .resp hi msg msg.length).1.find id = _ := readNoise_find hf
  rw [readNoise_result]
  generalize (st.readNoise env id .resp hi msg msg.length).1 = st₁ at hread hf₁ ⊢
  obtain ⟨hok,hproc,r',hf₂,hd',hh',hu,hauth⟩ :=
    processHandshakePayload_acts hyou hp hread.ready hf₁ hd rfl (ha.static.trans hs)
  unfold afterResp
  rw [ha.ok,ha.payload]
  simp only [Bool.not_true,Bool.false_eq_true,ite_false,hok]
  generalize (st₁.processHandshakePayload env id payload).1 = st₂ at hproc hf₂ ⊢
  obtain ⟨hintro,hlen⟩ := introduces hme hproc.ready.identity
  obtain ⟨hwok,hcon,hout,_⟩ := third_message L.seal_open ha.met ha.ephemeral ha.keyed
    (L.dh_agree _ _) (env.random st₂.asked) (st₂.buildHandshakePayload env)
  have hwrite : Acts me ops id st₂ (st₂.writeNoise env id (hi.readMessage env.sodium msg).state
      (st₂.buildHandshakePayload env)).1 [] := writeNoise_acts hproc.ready _ _
  have hf₃ := writeNoise_find env (hi.readMessage env.sodium msg).state
    (st₂.buildHandshakePayload env) hf₂
  have hres : (st₂.writeNoise env id (hi.readMessage env.sodium msg).state
      (st₂.buildHandshakePayload env)).2 = (hi.readMessage env.sodium msg).state.writeMessage
        env.sodium (env.random st₂.asked) (st₂.buildHandshakePayload env) := rfl
  rw [hres] at hf₃ ⊢
  rw [hwok]
  simp only [Bool.not_true,Bool.false_eq_true,ite_false]
  have hsmall : ((hi.readMessage env.sodium msg).state.writeMessage env.sodium
      (env.random st₂.asked) (st₂.buildHandshakePayload env)).out.length ≤ 1000 := by
    rw [hout,hlen]
    decide
  obtain ⟨frame,hframe,hsend,hf₄⟩ := sendFrame_acts henv hwrite.ready hf₃ hd'
    msgTypeNoiseFin rfl hsmall
  rw [ha.same] at hcon
  exact ⟨_,_,_,_,_,frame,_,rfl,((hread.trans hproc).trans hwrite).trans hsend,
    ⟨hf₄,ConnectionRecord.Direct.flushed hd',rfl,hu,hauth⟩,hintro,hcon,hframe⟩

/-- A connection whose handshake is under way. -/
structure Held (st : Impl) (id : Nat) (r : ConnectionRecord) (hs : HandshakeState) : Prop where
  find : st.find id = some r
  direct : r.Direct id
  handshake : r.handshake = some hs
  unknown : r.peerAuthenticated = false

theorem Impl.insertRecord_acts (h : st.Ready me ops) (ep : Endpoint) :
    Acts me ops st.nextId st (st.insertRecord env ep) [] := by
  refine ⟨⟨h.identity,h.running,h.connectors,h.transports,fun j q hq => ?_,h.pending⟩,
    fun j hj => insertRecord_find_ne hj,rfl,rfl⟩
  by_cases hj : j = st.nextId
  · subst hj
    have hq' : (st.sendQueues.insert st.nextId {}).lookup st.nextId = some q := hq
    rw [AList.lookup_insert] at hq'
    cases hq'
    exact ⟨rfl,rfl⟩
  · have hq' : (st.sendQueues.insert st.nextId {}).lookup j = some q := hq
    rw [AList.lookup_insert_ne hj] at hq'
    exact h.queues j q hq'

theorem Impl.insertRecord_held (hme : me.Lawful env.sodium) (h : st.Ready me ops) (ep : Endpoint) :
    ∃ r, Held (st.insertRecord env ep) st.nextId r (HandshakeState.init env.sodium ep.outbound
      (me.static env.sodium) (env.sodium.skToCurve25519 me.deviceSeckey)) := by
  refine ⟨_,st.insertRecord_find ep,⟨_,rfl,rfl,rfl,rfl⟩,?_,rfl⟩
  show some (HandshakeState.init env.sodium ep.outbound
    ((env.sodium.pkToCurve25519 st.identity.devicePubkey).getD (env.random st.asked)) _) = _
  rw [h.identity,hme.converts]
  rfl

/-- Accepting a connection says nothing yet. -/
theorem Impl.handleConnect_accept (hme : me.Lawful env.sodium) (h : st.Ready me ops)
    {ep : Endpoint} (hin : ep.outbound = false) :
    Acts me ops st.nextId st (st.handleConnect env ep).1 [] ∧
      (st.handleConnect env ep).1.nextId = st.nextId+1 ∧
      ∃ r, Held (st.handleConnect env ep).1 st.nextId r (HandshakeState.init env.sodium false
        (me.static env.sodium) (env.sodium.skToCurve25519 me.deviceSeckey)) := by
  have hopen : (st.handleConnect env ep).1 = st.insertRecord env ep := by
    unfold handleConnect
    simp [h.running,hin]
  have hheld := insertRecord_held hme h ep
  rw [hin] at hheld
  rw [hopen]
  exact ⟨insertRecord_acts h ep,rfl,hheld⟩

theorem Impl.sendNoiseInit_acts (henv : env.Reliable) (h : st.Ready me ops) {hs : HandshakeState}
    (hh : Held st id r hs) (hok : ∀ secret, (hs.writeMessage env.sodium secret []).ok = true ∧
      (hs.writeMessage env.sodium secret []).out.length = dhLen) :
    ∃ secret frame owner, Acts me ops id st (st.sendNoiseInit env id)
        [.sendTo owner id "tcp" frame true] ∧
      (st.sendNoiseInit env id).nextId = st.nextId ∧
      IsFrame msgTypeNoiseInit (hs.writeMessage env.sodium secret []).out frame ∧
      ∃ r', Held (st.sendNoiseInit env id) id r' (hs.writeMessage env.sodium secret []).state := by
  have hwrite : Acts me ops id st (st.writeNoise env id hs []).1 [] := writeNoise_acts h hs []
  have hf := writeNoise_find env hs [] hh.find
  have hres : (st.writeNoise env id hs []).2 = hs.writeMessage env.sodium (env.random st.asked) [] :=
    rfl
  obtain ⟨hwok,hlen⟩ := hok (env.random st.asked)
  have hsend : st.sendNoiseInit env id = (st.writeNoise env id hs []).1.sendFrame env id
      msgTypeNoiseInit (hs.writeMessage env.sodium (env.random st.asked) []).out := by
    have hbind : (st.find id).bind ConnectionRecord.handshake = some hs := by
      rw [hh.find]
      exact hh.handshake
    unfold sendNoiseInit
    rw [hbind]
    dsimp only
    rw [hres,hwok]
    rfl
  have hsmall : (hs.writeMessage env.sodium (env.random st.asked) []).out.length ≤ 1000 := by
    rw [hlen]
    decide
  rw [hres] at hf
  obtain ⟨frame,hframe,hacts,hf'⟩ := sendFrame_acts henv hwrite.ready hf hh.direct
    msgTypeNoiseInit rfl hsmall
  rw [hsend]
  exact ⟨env.random st.asked,frame,_,hwrite.trans hacts,(sendFrame_outward _ _ _ _ _).nextId,hframe,
    _,hf',ConnectionRecord.Direct.flushed hh.direct,rfl,hh.unknown⟩

/-- Dialling sends the first message. -/
theorem Impl.handleConnect_dial (L : env.sodium.Lawful) (hme : me.Lawful env.sodium)
    (henv : env.Reliable) (h : st.Ready me ops) {ep : Endpoint} (hout : ep.outbound = true) :
    ∃ secret frame owner, Acts me ops st.nextId st (st.handleConnect env ep).1
        [.sendTo owner st.nextId "tcp" frame true] ∧
      (st.handleConnect env ep).1.nextId = st.nextId+1 ∧
      IsFrame msgTypeNoiseInit ((HandshakeState.init env.sodium true (me.static env.sodium)
        (env.sodium.skToCurve25519 me.deviceSeckey)).writeMessage env.sodium secret []).out frame ∧
      ∃ r, Held (st.handleConnect env ep).1 st.nextId r ((HandshakeState.init env.sodium true
        (me.static env.sodium) (env.sodium.skToCurve25519 me.deviceSeckey)).writeMessage
          env.sodium secret []).state := by
  have hins : Acts me ops st.nextId st (st.insertRecord env ep) [] := insertRecord_acts h ep
  obtain ⟨r,hheld⟩ := insertRecord_held hme h ep
  rw [hout] at hheld
  have hopen : (st.handleConnect env ep).1 =
      (st.insertRecord env ep).sendNoiseInit env st.nextId := by
    unfold handleConnect
    simp [h.running,hout]
  have hmet : Met env.sodium 0 (HandshakeState.init env.sodium true (me.static env.sodium)
      (env.sodium.skToCurve25519 me.deviceSeckey)) (HandshakeState.init env.sodium false
      (me.static env.sodium) (env.sodium.skToCurve25519 me.deviceSeckey)) := met_init rfl rfl
  obtain ⟨secret,frame,owner,hacts,hnext,hframe,hheld'⟩ := sendNoiseInit_acts henv hins.ready hheld
    (fun secret => ⟨(first_message L.seal_open hmet rfl secret []).1,
      (first_message L.seal_open hmet rfl secret []).2.2.1⟩)
  rw [hopen]
  exact ⟨secret,frame,owner,hins.trans hacts,hnext,hframe,hheld'⟩

end

end GoodNet
