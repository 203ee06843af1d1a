import GoodNet.SendFootprint
import GoodNet.SessionTrace
set_option autoImplicit false

/-! What the calls into the manager do to handshakes, transport paths, the number of records
and the identity, as a list of motions. The list is finer than that of the small steps where
these are concerned: it knows who writes which Noise message, which connectors are told what
and which calls alone bring in a new record, a new path, a new key or a new connector. -/

namespace GoodNet
open Codec Noise

/-- The id and the connector of a path. -/
def TransportPath.place (p : TransportPath) : Nat × String := (p.transportConnId,p.scheme)

/-- The handshake of a record and all that decides where its frames go. -/
def ConnectionRecord.spine (r : ConnectionRecord) :
    Option HandshakeState × (String × String) × List (Nat × String) :=
  (r.handshake,(r.localScheme,r.negotiatedScheme),r.transportPaths.map TransportPath.place)

/-- Neither told to a connector, nor a Noise message, nor a change in the number of
connections. -/
def Effect.isPlain : Effect → Bool
  | .sendTo .. => false
  | .sendGather .. => false
  | .close .. => false
  | .closeNow .. => false
  | .noiseWrite .. => false
  | .duplicate .. => false
  | .stat .connect .. => false
  | .stat .disconnect .. => false
  | _ => true

structure Mild (st st' : Impl) : Prop where
  spine : Impl.Agrees ConnectionRecord.spine st st'
  ids : st'.ids.Perm st.ids
  transport : st'.transportIndex = st.transportIndex
  nextId : st'.nextId = st.nextId
  identity : st'.identity = st.identity
  connectors : st'.connectors = st.connectors
  schemePriority : st'.schemePriority = st.schemePriority
  log : ∃ new, st'.log = new ++ st.log ∧ ∀ e ∈ new, e.isPlain = true

section
variable {env : Env} {st st' st'' : Impl}

theorem ConnectionRecord.spine_of_core {a b : ConnectionRecord} (h : a.core = b.core) :
    a.spine = b.spine := by
  refine ConnectionRecord.core_field ConnectionRecord.spine (fun r => ?_) h
  unfold spine core
  dsimp only
  rw [List.map_map]
  rfl

theorem ConnectionRecord.spine_of_unsent {a b : ConnectionRecord} (h : a.unsent = b.unsent) :
    a.spine = b.spine := by
  refine ConnectionRecord.unsent_field ConnectionRecord.spine (fun r => ?_) h
  unfold spine unsent
  dsimp only
  rw [List.map_map]
  rfl

theorem Mild.refl (st : Impl) : Mild st st where
  spine := Impl.Agrees.refl st
  ids := List.Perm.refl _
  transport := rfl
  nextId := rfl
  identity := rfl
  connectors := rfl
  schemePriority := rfl
  log := ⟨[],rfl,by simp⟩

theorem Mild.trans (h : Mild st st') (h' : Mild st' st'') : Mild st st'' where
  spine := h.spine.trans h'.spine
  ids := h'.ids.trans h.ids
  transport := h'.transport.trans h.transport
  nextId := h'.nextId.trans h.nextId
  identity := h'.identity.trans h.identity
  connectors := h'.connectors.trans h.connectors
  schemePriority := h'.schemePriority.trans h.schemePriority
  log := History.added_trans h.log h'.log

theorem Mild.emit (st : Impl) {e : Effect} (he : e.isPlain = true) : Mild st (st.emit e) :=
  { Mild.refl st with log := ⟨[e],rfl,by simpa using he⟩ }

theorem Mild.ask (st : Impl) : Mild st st.ask := { Mild.refl st with }

theorem Mild.modify (st : Impl) (id : Nat) {f : ConnectionRecord → ConnectionRecord}
    (hf : ∀ r, (f r).spine = r.spine) : Mild st (st.modify id f) :=
  { Mild.refl st with spine := Impl.Agrees.modify id hf, ids := st.ids_modify id f }

theorem Mild.setQueue (st : Impl) (id : Nat) (q : PerConnQueue) : Mild st (st.setQueue id q) :=
  { Mild.refl st with }

theorem Mild.setPending (st : Impl) (pending : Table String (List PendingMessage)) :
    Mild st { st with pendingMessages := pending } := { Mild.refl st with }

end

/-- Anything an established connection is used for: bookkeeping and frames. -/
inductive Talk (env : Env) : Impl → Impl → Prop where
  | mild {st st' : Impl} (h : Mild st st') : Talk env st st'
  | frame (st : Impl) (id : Nat) (msgType : UInt32) (payload : Bytes) :
      Talk env st (st.sendFrame env id msgType payload)

abbrev Talks (env : Env) : Impl → Impl → Prop := Relation.ReflTransGen (Talk env)

def NoiseFrame.msgType : NoiseFrame → UInt32
  | .init => msgTypeNoiseInit
  | .resp => msgTypeNoiseResp
  | .fin => msgTypeNoiseFin

/-- The payload of a message passes the checks of `process_handshake_payload` against the
static key the message has brought. -/
def Noise.Read.authentic (S : Sodium) (d : Read) : Bool :=
  let hp := HandshakePayload.decode d.payloadOut
  d.ok && decide (handshakePayloadSize ≤ d.payloadOut.length) &&
    S.verifyDetached hp.signature (hp.userPubkey.bytes ++ hp.devicePubkey.bytes) hp.userPubkey &&
    decide (S.pkToCurve25519 hp.devicePubkey = some d.state.rs)

/-- What a call does once it has begun. `heard` are the Noise messages it has read. -/
inductive Motion (env : Env) (heard : Nat → NoiseFrame → Read → Prop) : Impl → Impl → Prop where
  | talk {st st' : Impl} (h : Talk env st st') : Motion env heard st st'
  | disconnect (st : Impl) (id : Nat) : Motion env heard st (st.handleDisconnect id)
  | hangUp {st st' : Impl} {id : Nat}
      (h : st' = st.closeNow env id ∨ st' = st.disconnect env id) : Motion env heard st st'
  | duplicate (st : Impl) (id : Nat) (r : ConnectionRecord) :
      Motion env heard st (st.removeDuplicate id r)
  | read {st : Impl} {id : Nat} {hs : HandshakeState} (kind : NoiseFrame) (msg : Bytes) (cap : Nat)
      (h : (st.find id).bind ConnectionRecord.handshake = some hs) :
      Motion env heard st (st.readNoise env id kind hs msg cap).1
  | greet {st : Impl} {id : Nat} {hs : HandshakeState}
      (h : (st.find id).bind ConnectionRecord.handshake = some hs) (h0 : hs.step = 0) :
      Motion env heard st (st.writeNoise env id hs []).1
  | answer {st : Impl} {id : Nat} {kind : NoiseFrame} {d : Read}
      (h : (st.find id).bind ConnectionRecord.handshake = some d.state) (hd : heard id kind d)
      (hok : d.ok = true) :
      Motion env heard st (st.writeNoise env id d.state (st.buildHandshakePayload env)).1
  | authenticate {st : Impl} {id : Nat} {kind : NoiseFrame} {d : Read}
      (h : (st.find id).bind ConnectionRecord.handshake = some d.state) (hd : heard id kind d)
      (hk : kind ≠ .init) (ha : d.authentic env.sodium = true) :
      Motion env heard st (st.modify id (st.authenticate (HandshakePayload.decode d.payloadOut)
        (getSchemes d.payloadOut)))
  | commit {st : Impl} {id : Nat} {r : ConnectionRecord} {hs : HandshakeState}
      (h : st.find id = some r) (hh : r.handshake = some hs) :
      Motion env heard st (st.commitSession env id r hs)

abbrev Motions (env : Env) (heard : Nat → NoiseFrame → Read → Prop) : Impl → Impl → Prop :=
  Relation.ReflTransGen (Motion env heard)

section
variable {env : Env} {st st' : Impl}

theorem Talks.mild (h : Mild st st') : Talks env st st' := Relation.ReflTransGen.single (.mild h)

theorem Talks.frame (st : Impl) (id : Nat) (msgType : UInt32) (payload : Bytes) :
    Talks env st (st.sendFrame env id msgType payload) :=
  Relation.ReflTransGen.single (.frame st id msgType payload)

theorem Talks.plain (st : Impl) {e : Effect} (he : e.isPlain = true) : Talks env st (st.emit e) :=
  Talks.mild (Mild.emit st he)

theorem Talk.agrees (h : Talk env st st') : Impl.Agrees ConnectionRecord.spine st st' := by
  cases h with
  | mild h => exact h.spine
  | frame id msgType payload =>
    intro j
    have hf := (st.sendFrame_footprint env id msgType payload).find j
    cases h0 : st.find j with
    | none => simpa [h0] using hf
    | some r =>
      rw [h0] at hf
      obtain ⟨r',hr',hu⟩ := Option.map_eq_some_iff.1 hf
      rw [hr']
      exact congrArg some (ConnectionRecord.spine_of_unsent hu)

theorem Talks.agrees (h : Talks env st st') : Impl.Agrees ConnectionRecord.spine st st' := by
  induction h with
  | refl => exact Impl.Agrees.refl st
  | tail _ h ih => exact ih.trans h.agrees

theorem foldl_talks {α : Type} {f : Impl → α → Impl} (hf : ∀ st a, Talks env st (f st a))
    (st : Impl) (xs : List α) : Talks env st (xs.foldl f st) := by
  induction xs generalizing st with
  | nil => exact Relation.ReflTransGen.refl
  | cons x xs ih => exact (hf st x).trans (ih _)

theorem Impl.sendChunks_talks (st : Impl) (id : Nat) (msgType : UInt32) (parts : List Bytes) :
    Talks env st (st.sendChunks env id msgType parts) :=
  foldl_talks (fun st part => Talks.frame st id msgType part) st parts

theorem Impl.sendAll_talks (st : Impl) (ids : List Nat) (msgType : UInt32) (payload : Bytes) :
    Talks env st (st.sendAll env ids msgType payload) := by
  refine foldl_talks (fun st id => ?_) st ids
  split
  · exact Talks.frame st id msgType payload
  · exact Relation.ReflTransGen.refl

theorem Impl.enqueuePending_mild (st : Impl) (key : String) (msgType : UInt32) (payload : Bytes) :
    Mild st (st.enqueuePending env key msgType payload).1 := by
  unfold enqueuePending
  dsimp only
  split
  · exact Mild.setPending st _
  · exact (Mild.ask st).trans (Mild.setPending _ _)

theorem Impl.sendUri_talks (st : Impl) (uri : String) (msgType : UInt32) (payload : Bytes) :
    Talks env st (st.sendUri env uri msgType payload).1 := by
  have hq : ∀ key, Talks env st (st.enqueuePending env key msgType payload).1 := fun key =>
    Talks.mild (st.enqueuePending_mild key msgType payload)
  unfold sendUri
  split
  · exact Relation.ReflTransGen.refl
  · dsimp only
    split
    · split
      · exact hq _
      · split
        · exact (hq _).trans (Talks.plain _ rfl)
        · exact hq _
    · split
      · exact Relation.ReflTransGen.refl
      · split
        · exact hq _
        · split
          · exact Talks.plain st rfl
          · split
            · exact st.sendChunks_talks _ msgType _
            · exact Talks.frame st _ msgType payload

theorem Impl.send_talks (st : Impl) (id : Nat) (msgType : UInt32) (payload : Bytes) :
    Talks env st (st.send env id msgType payload).1 := by
  unfold send
  split
  · exact Relation.ReflTransGen.refl
  · exact (Talks.plain st rfl).trans (Talks.frame _ id msgType payload)

theorem Impl.flushPending_talks (st : Impl) (key : String) (id : Nat) :
    Talks env st (st.flushPendingMessages env key id) := by
  unfold flushPendingMessages
  split
  · exact Relation.ReflTransGen.refl
  · exact Relation.ReflTransGen.refl
  · rename_i messages _ _
    have hsend : ∀ st : Impl, Talks env st (st.sendMessages env id messages) := fun st =>
      foldl_talks (fun st (m : PendingMessage) => Talks.frame st id m.msgType m.payload) st messages
    exact (Talks.mild (Mild.setPending st _)).trans (hsend _)

theorem Impl.relay_talks (st : Impl) (exclude : Nat) (ttl : UInt8) (dest : Key) (inner : Bytes) :
    Talks env st (st.relay env exclude ttl dest inner) := by
  unfold relay
  dsimp only
  split
  · exact Talks.frame st _ _ _
  · exact st.sendAll_talks _ _ _

theorem Impl.cleanupStalePending_talks (st : Impl) : Talks env st (st.cleanupStalePending env) := by
  unfold cleanupStalePending
  refine (Talks.mild (Mild.ask st)).trans (foldl_talks (fun st key => ?_) st.ask _)
  split
  · exact Relation.ReflTransGen.refl
  · dsimp only
    split
    · exact Talks.mild (Mild.setPending st _)
    · exact Talks.mild (Mild.setPending st _)

theorem Impl.connect_talks (st : Impl) (uri : String) : Talks env st (st.connect uri) := by
  unfold connect
  dsimp only
  split
  · exact Talks.plain st rfl
  · exact Relation.ReflTransGen.refl

theorem Impl.scheduleTransportUpgrade_talks (st : Impl) (id : Nat) :
    Talks env st (st.scheduleTransportUpgrade id) := by
  unfold scheduleTransportUpgrade
  split
  · exact Relation.ReflTransGen.refl
  · split
    · exact Relation.ReflTransGen.refl
    · split
      · exact Relation.ReflTransGen.refl
      · split
        · exact Relation.ReflTransGen.refl
        · exact Talks.plain st rfl

theorem Impl.rekeySession_talks (st : Impl) (id : Nat) :
    Talks env st (st.rekeySession env id).1 := by
  rcases st.rekeySession_cases env id with h | ⟨r,s,-,-,-,h⟩
  · rw [h]
  · rw [h]
    refine Talks.mild (Mild.trans ?_ (Mild.emit _ rfl))
    exact Mild.modify st id (fun r => rfl)

theorem Impl.sendHeartbeat_talks (st : Impl) (id : Nat) :
    Talks env st (st.sendHeartbeat env id) := by
  unfold sendHeartbeat
  split
  · exact Relation.ReflTransGen.refl
  · split
    · exact Relation.ReflTransGen.refl
    · have hseq : Mild st
          (st.ask.modify id (fun r => { r with heartbeatSeq := r.heartbeatSeq+1 })) :=
        (Mild.ask st).trans (Mild.modify _ id (fun r => rfl))
      exact (Talks.mild hseq).trans (Talks.frame _ id _ _)

theorem Impl.handleHeartbeat_talks (st : Impl) (id : Nat) (payload : Bytes) :
    Talks env st (st.handleHeartbeat env id payload) := by
  have hheard : Mild st
      (st.modify id (fun r => r.heardPaths (parseHeartbeatExtension payload))) :=
    Mild.modify st id (fun r => ConnectionRecord.spine_of_core (r.core_heardPaths _))
  unfold handleHeartbeat
  split
  · exact Relation.ReflTransGen.refl
  · dsimp only
    split
    · exact (Talks.mild hheard).trans (Talks.frame _ id _ _)
    · split
      · exact Talks.mild (hheard.trans ((Mild.ask _).trans (Mild.modify _ id (fun r =>
          ConnectionRecord.spine_of_core (r.core_pong _ _ _)))))
      · exact Talks.mild hheard

theorem Impl.relaySeen_mild (st : Impl) (inner : Header) :
    Mild st (st.relaySeen env inner).1 := by
  have hset : ∀ dedup, Mild st.ask { st.ask with relayDedup := dedup } := fun dedup =>
    { Mild.refl st.ask with }
  unfold relaySeen
  dsimp only
  generalize (ite (8192 < st.ask.relayDedup.length) _ _ : List RelayFingerprint) = kept
  split
  · exact (Mild.ask st).trans (hset _)
  · exact (Mild.ask st).trans (hset _)

theorem Impl.handleRelay_talks (st : Impl) (id : Nat) (plaintext : Bytes) :
    Talks env st (st.handleRelay env id plaintext).1 := by
  unfold handleRelay
  split
  · exact Talks.plain st rfl
  · dsimp only
    split
    · exact Talks.plain st rfl
    · split
      · exact Talks.plain st rfl
      · have hseen : Talks env st
            (st.relaySeen env (Header.decode (plaintext.drop relayHeaderSize))).1 :=
          Talks.mild (st.relaySeen_mild _)
        split
        · exact hseen
        · split
          · exact hseen
          · exact hseen.trans (relay_talks _ _ _ _ _)

theorem Impl.openPayload_mild {id : Nat} {r : ConnectionRecord} {hdr : Header} {payload : Bytes}
    {out : Option Bytes} (h : st.openPayload env id r hdr payload = (st',out)) : Mild st st' := by
  have hdec : ∀ s, Mild st (st.decryptFor env id s hdr payload).1 := by
    intro s
    have hmod : Mild st (st.modify id (ConnectionRecord.withSession
        (s.decrypt env.sodium env.zstd payload hdr.packetId).1)) :=
      Mild.modify st id (fun r => rfl)
    rcases st.decryptFor_cases env id s hdr payload with ⟨-,-,hd⟩ | ⟨-,hd⟩
    · rw [hd]
      exact hmod.trans (Mild.emit _ rfl)
    · rw [hd]
      exact hmod
  rcases openPayload_cases h with
    ⟨rfl,-⟩ | ⟨rfl,-⟩ | ⟨s,-,-,-,-,rfl⟩ | ⟨s,-,-,-,-,rfl⟩
  · exact Mild.refl st'
  · exact Mild.emit st rfl
  · exact (hdec s).trans (Mild.emit _ rfl)
  · exact hdec s

theorem Impl.deliver_mild (st : Impl) (id : Nat) (r : ConnectionRecord) (sink : Sink)
    (hdr : Header) (wire plain : Bytes) : Mild st (st.deliver id r sink hdr wire plain) :=
  ((Mild.emit st rfl).trans (Mild.emit _ rfl)).trans (Mild.emit _ rfl)

theorem Impl.deliverToBus_mild (st : Impl) (id : Nat) (r : ConnectionRecord) :
    Mild st (st.deliverToBus env id r) := by
  unfold deliverToBus
  dsimp only
  split
  · refine Mild.trans ?_ (Mild.emit _ rfl)
    exact (Mild.ask st).trans (Mild.modify _ id (fun r => rfl))
  · split
    · exact ((Mild.ask st).trans (Mild.emit _ rfl)).trans (Mild.emit _ rfl)
    · exact Mild.ask st

end

/-- A connector that a closing function may call for a record, and the id it is given. -/
def Impl.Told (st : Impl) (id via : Nat) (scheme : String) : Prop :=
  ∃ r, st.find id = some r ∧
    ((via,scheme) ∈ r.transportPaths.map TransportPath.place ∨ via = id ∧ scheme = r.fallbackScheme)

section
variable {env : Env} {st : Impl} {I : Impl → Prop}
  (hmild : ∀ a b : Impl, Mild a b → I a → I b)
  (hreport : ∀ (a : Impl) via, I a → I (a.handleDisconnect via))
include hmild hreport

theorem Impl.closed_rule (hst : I st) (via : Nat) : I (st.closed env via) := by
  have hask := hmild _ _ (Mild.ask st) hst
  unfold closed
  split
  · exact hreport _ via hask
  · exact hask

theorem Impl.closeVia_rule {scheme : String} {via : Nat} (hst : I st)
    (hemit : ∀ a : Impl, I a → I (a.emit (.close scheme via))) :
    I (st.closeVia env scheme via).1 := by
  unfold closeVia
  split
  · split
    · exact closed_rule hmild hreport (hemit st hst) via
    · exact hst
  · exact hst

theorem Impl.closeNowVia_rule {scheme : String} {via : Nat} (hst : I st)
    (hemit : ∀ a : Impl, I a → I (a.emit (.close scheme via)))
    (hnow : ∀ a : Impl, I a → I (a.emit (.closeNow scheme via))) :
    I (st.closeNowVia env scheme via).1 := by
  unfold closeNowVia
  split
  · split
    · exact closed_rule hmild hreport (hnow st hst) via
    · split
      · exact closed_rule hmild hreport (hemit st hst) via
      · exact hst
  · exact hst

omit hmild hreport in
theorem Impl.closePaths_rule {close : Impl → String → Nat → Impl × Bool} {paths : List TransportPath}
    (hclose : ∀ a : Impl, ∀ p ∈ paths, I a → I (close a p.scheme p.transportConnId).1)
    (hst : I st) : I (st.closePaths close paths).1 := by
  induction paths generalizing st with
  | nil => exact hst
  | cons p ps ih =>
    exact ih (fun a q hq => hclose a q (List.mem_cons_of_mem p hq))
      (hclose st p List.mem_cons_self hst)

/-- What bookkeeping, a reported disconnect and a call to one of the connectors of a record
keep up, closing the record keeps up. -/
theorem Impl.hangUp_rule {st' : Impl} {id : Nat}
    (h : st' = st.closeNow env id ∨ st' = st.disconnect env id)
    (hemit : ∀ (a : Impl) via scheme, st.Told id via scheme → I a → I (a.emit (.close scheme via)))
    (hnow : ∀ (a : Impl) via scheme, st.Told id via scheme → I a →
      I (a.emit (.closeNow scheme via))) (hst : I st) : I st' := by
  rcases h with rfl | rfl
  · unfold closeNow
    split
    · exact hst
    · rename_i r hr
      have hone : ∀ (a : Impl) scheme via, st.Told id via scheme → I a →
          I (a.closeNowVia env scheme via).1 := fun a scheme via ht ha =>
        closeNowVia_rule hmild hreport ha (fun b => hemit b via scheme ht)
          (fun b => hnow b via scheme ht)
      have hall : I (st.closePaths (Impl.closeNowVia env) r.transportPaths).1 :=
        closePaths_rule (fun a p hp =>
          hone a p.scheme p.transportConnId ⟨r,hr,.inl (List.mem_map_of_mem hp)⟩) hst
      dsimp only
      split
      · exact hall
      · exact hone _ _ _ ⟨r,hr,.inr ⟨rfl,rfl⟩⟩ hall
  · have hdrain : I (st.markDraining id) := by
      unfold markDraining
      split
      · exact hmild _ _ (Mild.setQueue st id _) hst
      · exact hst
    have hsame : (st.markDraining id).find id = st.find id := by
      unfold markDraining
      split
      · rfl
      · rfl
    unfold disconnect
    dsimp only
    split
    · exact hdrain
    · rename_i r hr
      rw [hsame] at hr
      have hone : ∀ (a : Impl) scheme via, st.Told id via scheme → I a →
          I (a.closeVia env scheme via).1 := fun a scheme via ht ha =>
        closeVia_rule hmild hreport ha (fun b => hemit b via scheme ht)
      have hall : I ((st.markDraining id).closePaths (Impl.closeVia env)
          (r.transportPaths.filter (fun p => p.active))).1 :=
        closePaths_rule (fun a p hp => hone a p.scheme p.transportConnId
          ⟨r,hr,.inl (List.mem_map_of_mem (List.mem_of_mem_filter hp))⟩) hdrain
      split
      · exact hall
      · exact hone _ _ _ ⟨r,hr,.inr ⟨rfl,rfl⟩⟩ hall

end

/-- What only a call of its own changes. -/
structure Impl.Fixed (st st' : Impl) : Prop where
  nextId : st'.nextId = st.nextId
  identity : st'.identity = st.identity
  connectors : st'.connectors = st.connectors
  schemePriority : st'.schemePriority = st.schemePriority

section
variable {env : Env} {heard : Nat → NoiseFrame → Read → Prop} {st st' st'' : Impl}

theorem Impl.Fixed.trans (h : st.Fixed st') (h' : st'.Fixed st'') : st.Fixed st'' :=
  ⟨h'.nextId.trans h.nextId,h'.identity.trans h.identity,h'.connectors.trans h.connectors,
    h'.schemePriority.trans h.schemePriority⟩

theorem Mild.fixed (h : Mild st st') : st.Fixed st' :=
  ⟨h.nextId,h.identity,h.connectors,h.schemePriority⟩

theorem Impl.handleDisconnect_fixed (st : Impl) (id : Nat) : st.Fixed (st.handleDisconnect id) := by
  unfold handleDisconnect
  dsimp only
  split
  · unfold dropTransport
    dsimp only
    split
    · exact ⟨rfl,rfl,rfl,rfl⟩
    · split
      · exact ⟨rfl,rfl,rfl,rfl⟩
      · split
        · exact ⟨rfl,rfl,rfl,rfl⟩
        · exact ⟨rfl,rfl,rfl,rfl⟩
  · unfold dropPeer
    split
    · exact ⟨rfl,rfl,rfl,rfl⟩
    · exact ⟨rfl,rfl,rfl,rfl⟩

theorem Motion.fixed (h : Motion env heard st st') : st.Fixed st' := by
  cases h with
  | talk h =>
    cases h with
    | mild h => exact h.fixed
    | frame id msgType payload =>
      have hf := st.sendFrame_footprint env id msgType payload
      exact ⟨hf.nextId,hf.identity,hf.connectors,hf.schemePriority⟩
  | disconnect id => exact st.handleDisconnect_fixed id
  | hangUp h =>
    exact Impl.hangUp_rule (fun a b hab ha => ha.trans hab.fixed)
      (fun a via ha => ha.trans (a.handleDisconnect_fixed via)) h
      (fun a via scheme _ ha => ha.trans ⟨rfl,rfl,rfl,rfl⟩)
      (fun a via scheme _ ha => ha.trans ⟨rfl,rfl,rfl,rfl⟩) ⟨rfl,rfl,rfl,rfl⟩
  | duplicate id r => exact ⟨rfl,rfl,rfl,rfl⟩
  | read kind msg cap h => exact ⟨rfl,rfl,rfl,rfl⟩
  | greet h h0 => exact ⟨rfl,rfl,rfl,rfl⟩
  | answer h hd hok => exact ⟨rfl,rfl,rfl,rfl⟩
  | authenticate h hd hk ha => exact ⟨rfl,rfl,rfl,rfl⟩
  | commit h hh => exact ⟨rfl,rfl,rfl,rfl⟩

/-- The rule for a call: what a motion keeps up, in a state that has the identity, the
connectors and the priorities the call has found, the call keeps up. -/
theorem Motions.invariant {I : Impl → Prop} (h : Motions env heard st st') (hst : I st)
    (hmotion : ∀ a b : Impl, st.Fixed a → Motion env heard a b → I a → I b) : I st' ∧ st.Fixed st' := by
  induction h with
  | refl => exact ⟨hst,⟨rfl,rfl,rfl,rfl⟩⟩
  | tail _ h ih => exact ⟨hmotion _ _ ih.2 h ih.1,ih.2.trans h.fixed⟩

theorem Talks.motions (h : Talks env st st') : Motions env heard st st' :=
  Relation.ReflTransGen.mono (fun _ _ => Motion.talk) _ _ h

theorem Motions.plain (st : Impl) {e : Effect} (he : e.isPlain = true) :
    Motions env heard st (st.emit e) := (Talks.plain st he).motions

theorem Impl.closeNow_motions (st : Impl) (id : Nat) : Motions env heard st (st.closeNow env id) :=
  Relation.ReflTransGen.single (.hangUp (.inl rfl))

theorem Impl.disconnect_motions (st : Impl) (id : Nat) : Motions env heard st (st.disconnect env id) :=
  Relation.ReflTransGen.single (.hangUp (.inr rfl))

theorem foldl_motions {α : Type} {f : Impl → α → Impl} (hf : ∀ st a, Motions env heard st (f st a))
    (st : Impl) (xs : List α) : Motions env heard st (xs.foldl f st) := by
  induction xs generalizing st with
  | nil => exact Relation.ReflTransGen.refl
  | cons x xs ih => exact (hf st x).trans (ih _)

theorem Impl.completeHandshake_motions {id : Nat} {r : ConnectionRecord} {hs : HandshakeState}
    (h : st.find id = some r) (hh : r.handshake = some hs) :
    Motions env heard st (st.completeHandshake env id r hs) := by
  have hcommit : Motions env heard st (st.commitSession env id r hs) :=
    Relation.ReflTransGen.single (.commit h hh)
  have hflush := hcommit.trans (flushPending_talks (st.commitSession env id r hs) r.remote.key id).motions
  have htail := ((hflush.trans (Motions.plain _ (e := .notify r.pkHex .established) rfl)).trans
    (Motions.plain _ (e := .stat .authOk 1 id) rfl)).trans
    (Motions.plain _ (e := .connState id .established) rfl)
  unfold completeHandshake
  dsimp only
  split
  · exact htail.trans (scheduleTransportUpgrade_talks _ id).motions
  · exact htail

theorem Impl.finalizeHandshake_motions (st : Impl) (id : Nat) :
    Motions env heard st (st.finalizeHandshake env id) := by
  unfold finalizeHandshake
  split
  · exact Relation.ReflTransGen.refl
  · rename_i r hr
    split
    · exact Relation.ReflTransGen.refl
    · rename_i hs hh
      split
      · exact (closeNow_motions st id).trans (Relation.ReflTransGen.single (.duplicate _ id r))
      · exact completeHandshake_motions hr hh

/-- A payload is refused with at most a note, or it is authentic and taken over. -/
theorem Impl.processHandshakePayload_motions {id : Nat} {kind : NoiseFrame} {d : Read}
    (h : (st.find id).bind ConnectionRecord.handshake = some d.state) (hd : heard id kind d)
    (hk : kind ≠ .init) (hok : d.ok = true) :
    Motions env heard st (st.processHandshakePayload env id d.payloadOut).1 ∧
      ((st.processHandshakePayload env id d.payloadOut).1.find id).bind
        ConnectionRecord.handshake = some d.state := by
  have hdrop : ∀ why, Motions env heard st (st.emit (.drop id why)) ∧
      ((st.emit (.drop id why)).find id).bind ConnectionRecord.handshake = some d.state :=
    fun why => ⟨Motions.plain st rfl,h⟩
  unfold processHandshakePayload
  dsimp only
  split
  · exact hdrop _
  · rename_i hlen
    split
    · exact hdrop _
    · rename_i hsig
      rw [h]
      dsimp only
      split
      · exact hdrop _
      · rename_i expected hexp
        split
        · exact hdrop _
        · rename_i hrs
          have ha : d.authentic env.sodium = true := by
            rw [not_not.1 hrs] at hexp
            simp only [Bool.not_eq_true,Bool.not_eq_false'] at hsig
            simp [Noise.Read.authentic,hok,Nat.not_lt.1 hlen,hsig,hexp]
          refine ⟨Relation.ReflTransGen.single (.authenticate h hd hk ha),?_⟩
          obtain ⟨r,hr,hrh⟩ := Option.bind_eq_some_iff.1 h
          rw [find_modify_self,hr,Option.map_some,Option.bind_some,(st.authenticate_keeps _ _ r).1]
          exact hrh

theorem Impl.handshakeAs_bind {id : Nat} {role : Bool} {hs : HandshakeState}
    (h : st.handshakeAs id role = some hs) :
    (st.find id).bind ConnectionRecord.handshake = some hs := by
  obtain ⟨r,hr,hh,-⟩ := handshakeAs_some h
  rw [hr]
  exact hh

theorem Impl.readNoise_bind {id : Nat} {kind : NoiseFrame} {hs hs' : HandshakeState} {msg : Bytes}
    {cap : Nat} (h : (st.find id).bind ConnectionRecord.handshake = some hs') :
    ((st.readNoise env id kind hs msg cap).1.find id).bind ConnectionRecord.handshake =
      some (hs.readMessage env.sodium msg).state := by
  obtain ⟨r,hr,-⟩ := Option.bind_eq_some_iff.1 h
  rw [readNoise_find hr]
  rfl

/-- What a connection reads of a message, when it has a handshake in the role the message is
meant for. -/
def Impl.Hears (env : Env) (st : Impl) (id : Nat) (kind : NoiseFrame) (msg : Bytes) (d : Read) :
    Prop :=
  ∃ hs, st.handshakeAs id kind.forInitiator = some hs ∧ d = hs.readMessage env.sodium msg

theorem Impl.handleNoiseInit_motions {id : Nat} {payload : Bytes}
    (hheard : ∀ d, st.Hears env id .init payload d → heard id .init d) :
    Motions env heard st (st.handleNoiseInit env id payload) := by
  unfold handleNoiseInit
  split
  · exact Relation.ReflTransGen.refl
  · rename_i hs hh
    have hb := handshakeAs_bind hh
    have hread : Motions env heard st (st.readNoise env id .init hs payload initPayloadCapacity).1 :=
      Relation.ReflTransGen.single (.read .init payload _ hb)
    dsimp only
    split
    · exact (hread.trans (Motions.plain _ rfl)).trans (closeNow_motions _ id)
    · rename_i hok
      have hwrite := hread.trans (Relation.ReflTransGen.single (Motion.answer
        (readNoise_bind hb) (hheard _ ⟨hs,hh,rfl⟩) (by simpa using hok)))
      split
      · exact hwrite.trans (closeNow_motions _ id)
      · exact hwrite.trans (Talks.frame _ id _ _).motions

theorem Impl.afterResp_motions {id : Nat} {d : Read}
    (h : (st.find id).bind ConnectionRecord.handshake = some d.state) (hd : heard id .resp d) :
    Motions env heard st (st.afterResp env id d) := by
  unfold afterResp
  split
  · exact (Motions.plain st rfl).trans (closeNow_motions _ id)
  · rename_i hne
    have hok : d.ok = true := by simpa using hne
    obtain ⟨hauth,hkept⟩ : Motions env heard st (st.processHandshakePayload env id d.payloadOut).1 ∧
        _ := processHandshakePayload_motions h hd (by decide) hok
    dsimp only
    split
    · exact hauth.trans (closeNow_motions _ id)
    · have hwrite := hauth.trans (Relation.ReflTransGen.single (Motion.answer hkept hd hok))
      split
      · exact hwrite.trans (closeNow_motions _ id)
      · exact (hwrite.trans (Talks.frame _ id _ _).motions).trans (finalizeHandshake_motions _ id)

theorem Impl.handleNoiseResp_motions {id : Nat} {payload : Bytes}
    (hheard : ∀ d, st.Hears env id .resp payload d → heard id .resp d) :
    Motions env heard st (st.handleNoiseResp env id payload) := by
  unfold handleNoiseResp
  split
  · exact Relation.ReflTransGen.refl
  · rename_i hs hh
    have hb := handshakeAs_bind hh
    have hread : Motions env heard st (st.readNoise env id .resp hs payload payload.length).1 :=
      Relation.ReflTransGen.single (.read .resp payload _ hb)
    exact hread.trans (afterResp_motions (readNoise_bind hb) (hheard _ ⟨hs,hh,rfl⟩))

theorem Impl.handleNoiseFin_motions {id : Nat} {payload : Bytes}
    (hheard : ∀ d, st.Hears env id .fin payload d → heard id .fin d) :
    Motions env heard st (st.handleNoiseFin env id payload) := by
  unfold handleNoiseFin
  split
  · exact Relation.ReflTransGen.refl
  · rename_i hs hh
    have hb := handshakeAs_bind hh
    have hread : Motions env heard st (st.readNoise env id .fin hs payload payload.length).1 :=
      Relation.ReflTransGen.single (.read .fin payload _ hb)
    dsimp only
    unfold afterFin
    split
    · exact (hread.trans (Motions.plain _ rfl)).trans (closeNow_motions _ id)
    · rename_i hne
      have hauth := hread.trans (processHandshakePayload_motions (readNoise_bind hb)
        (hheard _ ⟨hs,hh,rfl⟩) (by decide) (by simpa using hne)).1
      dsimp only
      split
      · exact hauth.trans (closeNow_motions _ id)
      · exact hauth.trans (finalizeHandshake_motions _ id)

theorem Impl.checkHeartbeat_motions (now : Nat) (st : Impl) (id : Nat) :
    Motions env heard st (st.checkHeartbeat env now id) := by
  unfold checkHeartbeat
  split
  · exact Relation.ReflTransGen.refl
  · rename_i r _
    have hmodify : ∀ f : ConnectionRecord → ConnectionRecord, (∀ r, (f r).spine = r.spine) →
        Motions env heard st (st.modify id f) := fun f hf => (Talks.mild (Mild.modify st id hf)).motions
    split
    · exact Relation.ReflTransGen.refl
    · split
      · exact hmodify _ (fun r => rfl)
      · split
        · exact Relation.ReflTransGen.refl
        · have hmissed := hmodify
            (fun r' => { r' with missedHeartbeats := r.missedHeartbeats+1 }) (fun r => rfl)
          dsimp only
          split
          · exact hmissed.trans (disconnect_motions _ id)
          · exact hmissed.trans (sendHeartbeat_talks _ id).motions

/-- A frame inside a relayed one finds an established connection, which has no handshake to
read a Noise message with. -/
theorem Impl.dispatchNested_motions (depth : Nat) {id : Nat} {hdr : Header} {payload : Bytes}
    (hsettled : ∀ r, st.find id = some r → r.established = true → r.handshake = none)
    (hheard : ∀ kind d, hdr.type = kind.msgType → st.Hears env id kind payload d →
      heard id kind d) :
    Motions env heard st (st.dispatchNested env depth id hdr payload) := by
  induction depth generalizing st hdr payload with
  | zero => exact Relation.ReflTransGen.refl
  | succ depth ih =>
    unfold dispatchNested
    split
    · exact handleNoiseInit_motions (fun d => hheard .init d ‹_›)
    · split
      · exact handleNoiseResp_motions (fun d => hheard .resp d ‹_›)
      · split
        · exact handleNoiseFin_motions (fun d => hheard .fin d ‹_›)
        · split
          · exact Motions.plain st rfl
          · rename_i r hr
            split
            · exact Motions.plain st rfl
            · rename_i hne
              have hnone := hsettled r hr (by simpa using hne)
              split
              · rename_i st' ho
                exact (Talks.mild (openPayload_mild ho)).motions
              · rename_i st' plain ho
                have hopen : Talks env st st' := Talks.mild (openPayload_mild ho)
                split
                · exact Talks.motions ((hopen.trans (Talks.mild (st'.deliver_mild id r _ _ _ _))).trans
                    (handleHeartbeat_talks _ id plain))
                · split
                  · have hrelay : Talks env st ((st'.deliver id r .relay hdr payload
                        plain).handleRelay env id plain).1 :=
                      (hopen.trans (Talks.mild (st'.deliver_mild id r _ _ _ _))).trans
                        (handleRelay_talks _ id plain)
                    split
                    · rename_i st₂ hrel
                      rw [hrel] at hrelay
                      exact hrelay.motions
                    · rename_i st₂ innerHdr inner hrel
                      rw [hrel] at hrelay
                      have hidle : ∀ r', st₂.find id = some r' → r'.handshake = none := by
                        intro r' hr'
                        obtain ⟨r₀,hr₀,hspine⟩ := hrelay.agrees.keeps id r' hr'
                        rw [hr] at hr₀
                        cases hr₀
                        exact (congrArg Prod.fst hspine).trans hnone
                      refine hrelay.motions.trans (ih (fun r' hr' _ => hidle r' hr') ?_)
                      rintro kind d - ⟨hs,hb,-⟩
                      obtain ⟨r',hr',hh,-⟩ := handshakeAs_some hb
                      rw [hidle r' hr'] at hh
                      cases hh
                  · exact Talks.motions ((hopen.trans (Talks.mild
                      (st'.deliver_mild id r _ _ _ _))).trans
                      (Talks.mild (deliverToBus_mild _ id r)))

theorem Impl.handleConnect_motions (st : Impl) (ep : Endpoint) : Motions env heard
    (if st.shuttingDown then st else st.insertRecord env ep) (st.handleConnect env ep).1 := by
  unfold handleConnect
  split
  · exact Relation.ReflTransGen.refl
  · dsimp only
    split
    · have hfound : ((st.insertRecord env ep).find st.nextId).bind ConnectionRecord.handshake =
          some (st.freshHandshake env ep) := by
        rw [insertRecord_find]
        rfl
      have hwrite : Motions env heard (st.insertRecord env ep)
          ((st.insertRecord env ep).writeNoise env st.nextId (st.freshHandshake env ep) []).1 :=
        Relation.ReflTransGen.single (.greet hfound rfl)
      unfold sendNoiseInit
      rw [hfound]
      dsimp only
      split
      · exact hwrite.trans (closeNow_motions _ _)
      · exact hwrite.trans (Talks.frame _ _ _ _).motions
    · exact Relation.ReflTransGen.refl

end

/-- How a call begins: with the one thing that only it can do. -/
def Event.opening (env : Env) (st : Impl) : Event → Impl
  | .connected ep => if st.shuttingDown then st else st.insertRecord env ep
  | .addTransport pk ep scheme => (st.handleAddTransport pk ep scheme).1
  | .rotate next => st.rotateIdentityKeys next
  | .registerConnector scheme ops => st.registerConnector scheme ops
  | .setSchemePriority priority => st.setSchemePriority priority
  | _ => st

theorem Impl.handleAddTransport_cases (st : Impl) (pk : String) (ep : Endpoint) (scheme : String) :
    (st.handleAddTransport pk ep scheme).1 = st ∨
    ∃ peer r, st.find peer = some r ∧ r.established = true ∧
      (st.handleAddTransport pk ep scheme).1 = st.attachTransport peer ep scheme := by
  unfold handleAddTransport
  split
  · exact .inl rfl
  · dsimp only
    split
    · exact .inl rfl
    · split
      · exact .inl rfl
      · rename_i r hr
        split
        · exact .inl rfl
        · rename_i he
          split
          · exact .inl rfl
          · exact .inr ⟨_,r,hr,by simpa using he,rfl⟩

/-- Everything an opening can be. -/
theorem Event.opening_cases (env : Env) (st : Impl) (e : Event) :
    e.opening env st = st ∨
    (∃ ep, e = .connected ep ∧ st.shuttingDown = false ∧
      e.opening env st = st.insertRecord env ep) ∨
    (∃ pk ep scheme peer r, e = .addTransport pk ep scheme ∧ st.find peer = some r ∧
      r.established = true ∧ e.opening env st = st.attachTransport peer ep scheme) ∨
    (∃ next, e = .rotate next ∧ e.opening env st = st.rotateIdentityKeys next) ∨
    (∃ scheme ops, e = .registerConnector scheme ops ∧
      e.opening env st = st.registerConnector scheme ops) ∨
    (∃ priority, e = .setSchemePriority priority ∧
      e.opening env st = st.setSchemePriority priority) := by
  cases e with
  | connected ep =>
    cases hd : st.shuttingDown with
    | true => exact .inl (if_pos hd)
    | false => exact .inr (.inl ⟨ep,rfl,rfl,if_neg (by simp [hd])⟩)
  | addTransport pk ep scheme =>
    rcases st.handleAddTransport_cases pk ep scheme with h | ⟨peer,r,hr,he,h⟩
    · exact .inl h
    · exact .inr (.inr (.inl ⟨pk,ep,scheme,peer,r,rfl,hr,he,h⟩))
  | rotate next => exact .inr (.inr (.inr (.inl ⟨next,rfl,rfl⟩)))
  | registerConnector scheme ops => exact .inr (.inr (.inr (.inr (.inl ⟨scheme,ops,rfl,rfl⟩))))
  | setSchemePriority priority => exact .inr (.inr (.inr (.inr (.inr ⟨priority,rfl,rfl⟩))))
  | _ => exact .inl rfl

/-- The Noise message a call brings in. -/
def Event.Hears (env : Env) (st : Impl) (e : Event) (id : Nat) (kind : NoiseFrame) (d : Read) :
    Prop :=
  match e with
  | .dispatch via hdr payload =>
    id = via ∧ hdr.type = kind.msgType ∧ st.Hears env id kind payload d
  | _ => False

/-- Every call is its opening, followed by motions. -/
theorem Event.step_motions {env : Env} {st : Impl} (h : st.SoundRecords env.sodium) (e : Event) :
    Motions env (e.Hears env st) (e.opening env st) (e.step env st) := by
  cases e with
  | connected ep => exact st.handleConnect_motions ep
  | addTransport pk ep scheme => exact Relation.ReflTransGen.refl
  | disconnected id => exact Relation.ReflTransGen.single (.disconnect st id)
  | dispatch id hdr payload =>
    refine Impl.dispatchNested_motions dispatchDepth (fun r hr he => ?_)
      (fun kind d hk hd => ⟨rfl,hk,hd⟩)
    simpa using ((h.record id r hr).settled he).2
  | buffered id bytes =>
    have hbuf : Mild st (st.setRecvBuf id bytes) := Mild.modify st id (fun r => rfl)
    exact (Talks.mild hbuf).motions
  | protocolError id why => exact (Motions.plain st rfl).trans (Impl.closeNow_motions _ id)
  | sendUri uri msgType payload => exact (st.sendUri_talks uri msgType payload).motions
  | send id msgType payload => exact (st.send_talks id msgType payload).motions
  | broadcast msgType payload => exact (st.sendAll_talks st.ids msgType payload).motions
  | relay exclude ttl dest inner => exact (st.relay_talks exclude ttl dest inner).motions
  | heartbeats =>
    exact (Talks.mild (Mild.ask st)).motions.trans
      (foldl_motions (fun st id => st.checkHeartbeat_motions _ id) st.ask st.ids)
  | cleanup => exact st.cleanupStalePending_talks.motions
  | connect uri => exact (st.connect_talks uri).motions
  | disconnect id => exact st.disconnect_motions id
  | closeNow id => exact st.closeNow_motions id
  | shutdown =>
    have hset : Mild st { st with shuttingDown := true } := { Mild.refl st with }
    exact (Talks.mild hset).motions.trans (foldl_motions (fun st id => st.closeNow_motions id) _ st.ids)
  | rekey id => exact (st.rekeySession_talks id).motions
  | rotate next => exact Relation.ReflTransGen.refl
  | registerConnector scheme ops => exact Relation.ReflTransGen.refl
  | setSchemePriority priority => exact Relation.ReflTransGen.refl
  | configure compression =>
    have hset : Mild st { st with config := compression } := { Mild.refl st with }
    exact (Talks.mild hset).motions

/-- The invariants of the records hold after every call. -/
theorem Event.step_sound {env : Env} {st : Impl} (h : st.SoundRecords env.sodium) (e : Event) :
    (e.step env st).SoundRecords env.sodium := by
  have hticks : Ticks env st (e.step env st) := Event.step_ticks st e
  generalize e.step env st = after at hticks
  induction hticks with
  | refl => exact h
  | tail _ htick ih =>
    cases htick with
    | micro hm => exact hm.sound ih
    | buffer id bytes => exact ih.buffer id bytes

/-- The events among some calls. -/
def eventsOf (calls : List Call) : List Event :=
  calls.filterMap (fun c =>
    match c with
    | .event e => some e
    | .data .. => none)

end GoodNet
