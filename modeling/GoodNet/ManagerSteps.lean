import GoodNet.KeptFields
import GoodNet.NoiseFacts
import GoodNet.Lib.History
set_option autoImplicit false

/-! Every call into the manager is a sequence of a few kinds of small steps. Each kind is
listed here once, with everything that is known when it is taken, so that an invariant is
checked against the list and not against the code of every call. -/

namespace GoodNet
open Codec History

/-- The grounds on which a frame is sent on a connection. -/
def Impl.MaySend (st : Impl) (id : Nat) (msgType : UInt32) : Prop :=
  isHandshakeType msgType = true ∨
  (∃ key, st.pkIndex.lookup key = some id) ∨
  ∀ r, st.find id = some r → r.established = true ∨ Effect.direct r msgType ∈ st.log

/-- The buffer each of the three frame handlers brings along. -/
def NoiseFrame.capacity (kind : NoiseFrame) (msg : Bytes) : Nat :=
  match kind with
  | .init => initPayloadCapacity
  | .resp => msg.length
  | .fin => msg.length

/-- Which role a frame is meant for. -/
def NoiseFrame.forInitiator : NoiseFrame → Bool
  | .resp => true
  | _ => false

/-- The handshake has just taken its last message: a responder by reading a `FIN`, an
initiator by answering a `RESP`. -/
def Finished (log : List Effect) (id : Nat) (hs : Noise.HandshakeState) : Prop :=
  (hs.initiator = false ∧ ∃ before msg cap d,
    Effect.noiseRead id .fin before msg cap d ∈ log ∧ d.ok = true ∧ d.state = hs) ∨
  (hs.initiator = true ∧ ∃ before msg cap d secret w,
    Effect.noiseRead id .resp before msg cap d ∈ log ∧ d.ok = true ∧
    Effect.noiseWrite id d.state secret w ∈ log ∧ w.ok = true ∧ w.state = hs)

inductive Micro (env : Env) : Impl → Impl → Prop where
  | silent {st st' : Impl} (h : Quiet (fun e => e.isReport = true) st st') : Micro env st st'
  | frame {st : Impl} {id : Nat} {msgType : UInt32} (payload : Bytes)
      (h : st.MaySend id msgType) : Micro env st (st.sendFrame env id msgType payload)
  | direct {st : Impl} {id : Nat} {r : ConnectionRecord} (msgType : UInt32)
      (h : st.find id = some r) : Micro env st (st.emit (.direct r msgType))
  | connect {st : Impl} (ep : Endpoint) : Micro env st (st.openConnection env ep)
  | attach {st : Impl} {peer : Nat} {r : ConnectionRecord} (ep : Endpoint) (scheme : String)
      (h : st.find peer = some r) (he : r.established = true) :
      Micro env st (st.attachTransport peer ep scheme)
  | disconnect {st : Impl} (id : Nat) : Micro env st (st.handleDisconnect id)
  | duplicate {st : Impl} {id : Nat} {r : ConnectionRecord}
      (h : ∀ r', st.find id = some r' → r'.handshake.isSome = true ∧ r'.remote = r.remote) :
      Micro env st (st.removeDuplicate id r)
  | read {st : Impl} {id : Nat} {kind : NoiseFrame} {hs : Noise.HandshakeState} (msg : Bytes)
      (h : st.handshakeAs id kind.forInitiator = some hs) :
      Micro env st (st.readNoise env id kind hs msg (kind.capacity msg)).1
  | write {st : Impl} {id : Nat} {kind : NoiseFrame} {before : Noise.HandshakeState}
      {msg : Bytes} {cap : Nat} {d : Noise.Read} (payload : Bytes)
      (h : (st.find id).bind ConnectionRecord.handshake = some d.state)
      (hl : Effect.noiseRead id kind before msg cap d ∈ st.log) (hok : d.ok = true)
      (hk : kind ≠ .fin) :
      Micro env st (st.writeNoise env id d.state payload).1
  | authenticate {st : Impl} {id : Nat} {hs : Noise.HandshakeState} {hp : HandshakePayload}
      (schemes : List String) (h : (st.find id).bind ConnectionRecord.handshake = some hs)
      (hrs : env.sodium.pkToCurve25519 hp.devicePubkey = some hs.rs) :
      Micro env st (st.modify id (st.authenticate hp schemes))
  | commit {st : Impl} {id : Nat} {r : ConnectionRecord} {hs : Noise.HandshakeState}
      (h : st.find id = some r) (hh : r.handshake = some hs) (ha : r.peerAuthenticated = true)
      (hd : st.isDuplicate id r = false) (hf : Finished st.log id hs) :
      Micro env st (st.commitSession env id r hs)
  | rekey {st : Impl} (id : Nat) : Micro env st (st.rekeySession env id).1
  | refuse {st st' : Impl} {id : Nat} {r : ConnectionRecord} {hdr : Header} {payload : Bytes}
      (h : st.find id = some r) (he : r.established = true)
      (ho : st.openPayload env id r hdr payload = (st',none)) : Micro env st st'
  | receive {st st' : Impl} {id : Nat} {r : ConnectionRecord} {hdr : Header}
      {payload plain : Bytes} (sink : Sink) (h : st.find id = some r) (he : r.established = true)
      (ho : st.openPayload env id r hdr payload = (st',some plain)) :
      Micro env st (st'.deliver id r sink hdr payload plain)

/-- A run of small steps. -/
abbrev Steps (env : Env) : Impl → Impl → Prop := Relation.ReflTransGen (Micro env)

section
variable {env : Env} {st st' : Impl}

theorem Steps.one (h : Micro env st st') : Steps env st st' := Relation.ReflTransGen.single h

theorem Steps.silent (h : Quiet (fun e => e.isReport = true) st st') : Steps env st st' :=
  Steps.one (Micro.silent h)

theorem Steps.report (st : Impl) {e : Effect} (he : e.isReport = true) :
    Steps env st (st.emit e) := Steps.silent (Quiet.emit st he)

theorem Impl.closed_steps (st : Impl) (via : Nat) : Steps env st (st.closed env via) := by
  have hask : Steps env st st.ask := Steps.silent (Quiet.ask st)
  unfold closed
  split
  · exact hask.trans (Steps.one (Micro.disconnect via))
  · exact hask

theorem Impl.closeVia_steps (st : Impl) (scheme : String) (via : Nat) :
    Steps env st (st.closeVia env scheme via).1 := by
  unfold closeVia
  split
  · split
    · exact (Steps.report st rfl).trans (closed_steps _ via)
    · exact Relation.ReflTransGen.refl
  · exact Relation.ReflTransGen.refl

theorem Impl.closeNowVia_steps (st : Impl) (scheme : String) (via : Nat) :
    Steps env st (st.closeNowVia env scheme via).1 := by
  unfold closeNowVia
  split
  · split
    · exact (Steps.report st rfl).trans (closed_steps _ via)
    · split
      · exact (Steps.report st rfl).trans (closed_steps _ via)
      · exact Relation.ReflTransGen.refl
  · exact Relation.ReflTransGen.refl

theorem Impl.closePaths_steps {close : Impl → String → Nat → Impl × Bool}
    (hc : ∀ st scheme via, Steps env st (close st scheme via).1) (st : Impl)
    (paths : List TransportPath) : Steps env st (st.closePaths close paths).1 := by
  induction paths generalizing st with
  | nil => exact Relation.ReflTransGen.refl
  | cons p ps ih => exact (hc st p.scheme p.transportConnId).trans (ih _)

theorem Impl.closeNow_steps (st : Impl) (id : Nat) : Steps env st (st.closeNow env id) := by
  unfold closeNow
  split
  · exact Relation.ReflTransGen.refl
  · rename_i r _
    have hp : Steps env st (st.closePaths (Impl.closeNowVia env) r.transportPaths).1 :=
      closePaths_steps closeNowVia_steps st r.transportPaths
    dsimp only
    split
    · exact hp
    · exact hp.trans (closeNowVia_steps _ _ _)

theorem Impl.markDraining_quiet {allowed : Effect → Prop} (st : Impl) (id : Nat) :
    Quiet allowed st (st.markDraining id) := by
  unfold markDraining
  split
  · rename_i q hq
    exact Quiet.of_registry rfl rfl (fun hb => noBacklog_insert hb (hb id q hq)) rfl
  · exact Quiet.refl st

theorem Impl.disconnect_steps (st : Impl) (id : Nat) : Steps env st (st.disconnect env id) := by
  have hq : Steps env st (st.markDraining id) := Steps.silent (markDraining_quiet st id)
  unfold disconnect
  dsimp only
  split
  · exact hq
  · rename_i r _
    have hp : Steps env st ((st.markDraining id).closePaths (Impl.closeVia env)
        (r.transportPaths.filter (fun p => p.active))).1 :=
      hq.trans (closePaths_steps closeVia_steps (st.markDraining id) _)
    split
    · exact hp
    · exact hp.trans (closeVia_steps _ _ _)

theorem foldl_steps {α : Type} {f : Impl → α → Impl} (hf : ∀ st a, Steps env st (f st a))
    (st : Impl) (xs : List α) : Steps env st (xs.foldl f st) := by
  induction xs generalizing st with
  | nil => exact Relation.ReflTransGen.refl
  | cons x xs ih => exact (hf st x).trans (ih _)

theorem Impl.protocolError_steps (st : Impl) (id : Nat) (why : DropReason) :
    Steps env st (st.protocolError env id why) :=
  (Steps.report st rfl).trans (closeNow_steps _ id)

/-- The grounds that outlast a send. -/
def Impl.MayRepeat (st : Impl) (id : Nat) (msgType : UInt32) : Prop :=
  isHandshakeType msgType = true ∨ ∀ r, st.find id = some r → r.established = true

theorem Impl.MayRepeat.maySend {id : Nat} {msgType : UInt32} (h : st.MayRepeat id msgType) :
    st.MaySend id msgType := by
  rcases h with h | h
  · exact Or.inl h
  · exact Or.inr (Or.inr (fun r hr => Or.inl (h r hr)))

theorem Impl.MayRepeat.quiet {allowed : Effect → Prop} {id : Nat} {msgType : UInt32}
    (h : st.MayRepeat id msgType) (hq : Quiet allowed st st') : st'.MayRepeat id msgType := by
  rcases h with h | h
  · exact Or.inl h
  · refine Or.inr (fun r hr => ?_)
    obtain ⟨r₀,hr₀,hc⟩ := hq.find_some hr
    rw [← ConnectionRecord.core_field ConnectionRecord.established (fun _ => rfl) hc]
    exact h r₀ hr₀

theorem Impl.sendChunks_steps {id : Nat} {msgType : UInt32} (h : st.MayRepeat id msgType)
    (parts : List Bytes) : Steps env st (st.sendChunks env id msgType parts) := by
  induction parts generalizing st with
  | nil => exact Relation.ReflTransGen.refl
  | cons part parts ih =>
    have hnext := h.quiet (st.sendFrame_outward env id msgType part)
    exact (Steps.one (Micro.frame part h.maySend)).trans (ih hnext)

theorem Impl.sendMessages_steps {id : Nat} (h : ∀ r, st.find id = some r → r.established = true)
    (messages : List PendingMessage) : Steps env st (st.sendMessages env id messages) := by
  induction messages generalizing st with
  | nil => exact Relation.ReflTransGen.refl
  | cons m ms ih =>
    have hm : st.MayRepeat id m.msgType := Or.inr h
    have hplain : st.MayRepeat id 0 := Or.inr h
    have hnext := (hplain.quiet
      (st.sendFrame_outward env id m.msgType m.payload)).resolve_left (by decide)
    exact (Steps.one (Micro.frame m.payload hm.maySend)).trans (ih hnext)

theorem Impl.establishedIn_find {id : Nat} (h : st.establishedIn id = true) :
    ∀ r, st.find id = some r → r.established = true := by
  intro r hr
  simpa [establishedIn,hr] using h

theorem Impl.sendAll_steps (st : Impl) (ids : List Nat) (msgType : UInt32) (payload : Bytes) :
    Steps env st (st.sendAll env ids msgType payload) := by
  refine foldl_steps (fun st id => ?_) st ids
  split
  · rename_i he
    have hm : st.MayRepeat id msgType := Or.inr (establishedIn_find he)
    exact Steps.one (Micro.frame payload hm.maySend)
  · exact Relation.ReflTransGen.refl

theorem Impl.enqueuePending_quiet {allowed : Effect → Prop} (st : Impl) (key : String)
    (msgType : UInt32) (payload : Bytes) :
    Quiet allowed st (st.enqueuePending env key msgType payload).1 := by
  unfold enqueuePending
  dsimp only
  split
  · exact Quiet.of_registry rfl rfl (fun hb => hb) rfl
  · exact Quiet.of_registry rfl rfl (fun hb => hb) rfl

theorem Impl.sendUri_steps (st : Impl) (uri : String) (msgType : UInt32) (payload : Bytes) :
    Steps env st (st.sendUri env uri msgType payload).1 := by
  have hq : ∀ key, Steps env st (st.enqueuePending env key msgType payload).1 := fun key =>
    Steps.silent (st.enqueuePending_quiet key msgType payload)
  unfold sendUri
  split
  · exact Relation.ReflTransGen.refl
  · dsimp only
    split
    · split
      · exact hq _
      · split
        · exact (hq _).trans (Steps.report _ rfl)
        · exact hq _
    · rename_i id _
      split
      · exact Relation.ReflTransGen.refl
      · rename_i r hr
        split
        · exact hq _
        · rename_i hgate
          have hm : st.MayRepeat id msgType := by
            cases he : r.established with
            | true =>
              refine Or.inr (fun r' hr' => ?_)
              rw [hr] at hr'
              cases hr'
              exact he
            | false =>
              cases ht : isHandshakeType msgType with
              | true => exact Or.inl ht
              | false => simp [he,ht] at hgate
          split
          · exact Steps.report _ rfl
          · split
            · exact sendChunks_steps hm _
            · exact Steps.one (Micro.frame payload hm.maySend)

theorem Impl.send_steps (st : Impl) (id : Nat) (msgType : UInt32) (payload : Bytes) :
    Steps env st (st.send env id msgType payload).1 := by
  unfold send
  split
  · exact Relation.ReflTransGen.refl
  · rename_i r hr
    have hm : (st.emit (.direct r msgType)).MaySend id msgType := by
      refine Or.inr (Or.inr (fun r' hr' => Or.inr ?_))
      rw [find_emit,hr] at hr'
      cases hr'
      exact List.mem_cons_self
    exact (Steps.one (Micro.direct msgType hr)).trans (Steps.one (Micro.frame payload hm))

theorem Impl.flushPending_steps {id : Nat} (key : String)
    (h : ∀ r, st.find id = some r → r.established = true) :
    Steps env st (st.flushPendingMessages env key id) := by
  unfold flushPendingMessages
  split
  · exact Relation.ReflTransGen.refl
  · exact Relation.ReflTransGen.refl
  · rename_i messages _ _
    have hq : Quiet (fun e => e.isReport = true) st
        { st with pendingMessages := st.pendingMessages.erase key } :=
      Quiet.of_registry rfl rfl (fun hb => hb) rfl
    refine (Steps.silent hq).trans (sendMessages_steps ?_ messages)
    exact h

theorem Impl.relay_steps (st : Impl) (exclude : Nat) (ttl : UInt8) (dest : Key) (inner : Bytes) :
    Steps env st (st.relay env exclude ttl dest inner) := by
  unfold relay
  dsimp only
  split
  · rename_i hdirect
    have hm : st.MaySend (st.findConnByPubkey (bytesToHex dest.bytes)) msgTypeRelay := by
      refine Or.inr (Or.inl ⟨bytesToHex dest.bytes,?_⟩)
      unfold findConnByPubkey at hdirect ⊢
      cases hl : st.pkIndex.lookup (bytesToHex dest.bytes) with
      | none => simp [hl] at hdirect
      | some i => rfl
    exact Steps.one (Micro.frame _ hm)
  · exact sendAll_steps st _ _ _

theorem Impl.cleanupStalePending_steps (st : Impl) : Steps env st (st.cleanupStalePending env) := by
  have hask : Steps env st st.ask := Steps.silent (Quiet.ask st)
  unfold cleanupStalePending
  refine hask.trans (foldl_steps (fun st key => ?_) st.ask _)
  split
  · exact Relation.ReflTransGen.refl
  · dsimp only
    split
    · exact Steps.silent (Quiet.of_registry rfl rfl (fun hb => hb) rfl)
    · exact Steps.silent (Quiet.of_registry rfl rfl (fun hb => hb) rfl)

theorem Impl.processHandshakePayload_cases (env : Env) (st : Impl) (id : Nat) (data : Bytes) :
    ((st.processHandshakePayload env id data).2 = false ∧
      Quiet (fun e => e.isReport = true) st (st.processHandshakePayload env id data).1) ∨
    ((st.processHandshakePayload env id data).2 = true ∧ ∃ hs hp schemes,
      (st.find id).bind ConnectionRecord.handshake = some hs ∧
      env.sodium.pkToCurve25519 hp.devicePubkey = some hs.rs ∧
      (st.processHandshakePayload env id data).1 = st.modify id (st.authenticate hp schemes)) := by
  unfold processHandshakePayload
  dsimp only
  split
  · exact Or.inl ⟨rfl,Quiet.emit st rfl⟩
  · split
    · exact Or.inl ⟨rfl,Quiet.emit st rfl⟩
    · split
      · exact Or.inl ⟨rfl,Quiet.refl st⟩
      · rename_i hs hh
        split
        · exact Or.inl ⟨rfl,Quiet.emit st rfl⟩
        · rename_i expected hexp
          split
          · exact Or.inl ⟨rfl,Quiet.emit st rfl⟩
          · rename_i heq
            have he : expected = hs.rs := not_not.mp heq
            rw [he] at hexp
            exact Or.inr ⟨rfl,hs,_,_,hh,hexp,rfl⟩

/-- An accepted payload has been verified, and the record is written from it alone. -/
theorem Impl.processHandshakePayload_accepted {env : Env} {st : Impl} {id : Nat} {data : Bytes}
    (h : (st.processHandshakePayload env id data).2 = true) :
    let hp := HandshakePayload.decode data
    ∃ r, st.find id = some r ∧
      env.sodium.verifyDetached hp.signature (hp.userPubkey.bytes ++ hp.devicePubkey.bytes)
        hp.userPubkey = true ∧
      (st.processHandshakePayload env id data).1 =
        st.modify id (st.authenticate hp (getSchemes data)) := by
  intro hp
  revert h
  unfold processHandshakePayload
  dsimp only
  split
  · intro h
    cases h
  · split
    · intro h
      cases h
    · rename_i hverify
      split
      · intro h
        cases h
      · rename_i hs hh
        obtain ⟨r,hr,-⟩ := Option.bind_eq_some_iff.1 hh
        split
        · intro h
          cases h
        · split
          · intro h
            cases h
          · intro _
            exact ⟨r,hr,by simpa using hverify,rfl⟩

/-- What has to be known of a record before `finalize_handshake` is called. -/
def Impl.ReadyToFinalize (st : Impl) (id : Nat) : Prop :=
  ∀ r hs, st.find id = some r → r.handshake = some hs →
    r.peerAuthenticated = true ∧ Finished st.log id hs

theorem Finished.mono {log log' : List Effect} {id : Nat} {hs : Noise.HandshakeState}
    (h : Finished log id hs) (hl : ∀ e ∈ log, e ∈ log') : Finished log' id hs := by
  rcases h with ⟨hi,before,msg,cap,d,hm,hok,hst⟩ | ⟨hi,before,msg,cap,d,secret,w,hm,hok,hw,hwok,hst⟩
  · exact Or.inl ⟨hi,before,msg,cap,d,hl _ hm,hok,hst⟩
  · exact Or.inr ⟨hi,before,msg,cap,d,secret,w,hl _ hm,hok,hl _ hw,hwok,hst⟩

theorem Quiet.log_mono {allowed : Effect → Prop} (h : Quiet allowed st st') :
    ∀ e ∈ st.log, e ∈ st'.log := by
  obtain ⟨new,hl,_⟩ := h.log
  intro e he
  rw [hl]
  exact List.mem_append_right new he

theorem Impl.ReadyToFinalize.quiet {allowed : Effect → Prop} {id : Nat}
    (h : st.ReadyToFinalize id) (hq : Quiet allowed st st') : st'.ReadyToFinalize id := by
  intro r hs hr hh
  obtain ⟨r₀,hr₀,hc⟩ := hq.find_some hr
  have hch := ConnectionRecord.core_field ConnectionRecord.handshake (fun _ => rfl) hc
  have hca := ConnectionRecord.core_field ConnectionRecord.peerAuthenticated (fun _ => rfl) hc
  obtain ⟨ha,hf⟩ := h r₀ hs hr₀ (hch.trans hh)
  exact ⟨hca.symm.trans ha,hf.mono hq.log_mono⟩

theorem Impl.commitSession_find {id : Nat} {r : ConnectionRecord} {hs : Noise.HandshakeState}
    (h : st.find id = some r) :
    (st.commitSession env id r hs).find id = some (r.committed env.sodium hs) := by
  change (st.modify id _).find id = _
  rw [find_modify_self,h,Option.map_some]

theorem Impl.commitSession_established {id : Nat} {r : ConnectionRecord}
    {hs : Noise.HandshakeState} (h : st.find id = some r) :
    ∀ r', (st.commitSession env id r hs).find id = some r' → r'.established = true := by
  intro r' hr'
  rw [commitSession_find h] at hr'
  cases hr'
  rfl

theorem Impl.commitSession_agrees {α : Type} {f : ConnectionRecord → α} {id : Nat}
    {r : ConnectionRecord} {hs : Noise.HandshakeState}
    (hf : ∀ r : ConnectionRecord, f (r.committed env.sodium hs) = f r) :
    Impl.Agrees f st (st.commitSession env id r hs) := Agrees.modify id hf

theorem Impl.commitSession_find_ne {id j : Nat} (r : ConnectionRecord)
    (hs : Noise.HandshakeState) (hj : j ≠ id) :
    (st.commitSession env id r hs).find j = st.find j := by
  change (st.modify id _).find j = _
  rw [find_modify,if_neg hj]

theorem Impl.scheduleTransportUpgrade_quiet (st : Impl) (id : Nat) :
    Quiet (fun e => e.isReport = true) st (st.scheduleTransportUpgrade id) := by
  unfold scheduleTransportUpgrade
  split
  · exact Quiet.refl st
  · split
    · exact Quiet.refl st
    · split
      · exact Quiet.refl st
      · split
        · exact Quiet.refl st
        · exact Quiet.emit st rfl

/-- What follows a commit. -/
theorem Impl.afterCommit_steps {id : Nat} {r : ConnectionRecord} {hs : Noise.HandshakeState}
    (h : ∀ r', (st.commitSession env id r hs).find id = some r' → r'.established = true) :
    Steps env (st.commitSession env id r hs) (st.completeHandshake env id r hs) := by
  have hflush : Steps env (st.commitSession env id r hs)
      ((st.commitSession env id r hs).flushPendingMessages env r.remote.key id) :=
    flushPending_steps r.remote.key h
  have htail := ((hflush.trans (Steps.report _ (e := .notify r.pkHex .established) rfl)).trans
    (Steps.report _ (e := .stat .authOk 1 id) rfl)).trans
    (Steps.report _ (e := .connState id .established) rfl)
  unfold completeHandshake
  dsimp only
  split
  · exact htail.trans (Steps.silent (scheduleTransportUpgrade_quiet _ id))
  · exact htail

theorem Impl.completeHandshake_steps {id : Nat} {r : ConnectionRecord} {hs : Noise.HandshakeState}
    (h : st.find id = some r) (hm : Micro env st (st.commitSession env id r hs)) :
    Steps env st (st.completeHandshake env id r hs) :=
  (Steps.one hm).trans (afterCommit_steps (commitSession_established h))

theorem Impl.rejectDuplicate_steps {id : Nat} {r : ConnectionRecord} (hr : st.find id = some r)
    (hh : r.handshake.isSome = true) : Steps env st (st.rejectDuplicate env id r) := by
  refine (closeNow_steps st id).trans (Steps.one (Micro.duplicate (fun r' hr' => ?_)))
  obtain ⟨r₀,hr₀,hf⟩ := closeNow_keeps (f := fun r => (r.handshake,r.remote)) st id
    (fun _ r => rfl) id r' hr'
  rw [hr] at hr₀
  cases hr₀
  obtain ⟨hh₀,hm₀⟩ := Prod.mk.inj hf
  exact ⟨by rw [hh₀]; exact hh,hm₀⟩

theorem Impl.finalizeHandshake_steps {id : Nat} (h : st.ReadyToFinalize id) :
    Steps env st (st.finalizeHandshake env id) := by
  unfold finalizeHandshake
  split
  · exact Relation.ReflTransGen.refl
  · rename_i r hr
    split
    · exact Relation.ReflTransGen.refl
    · rename_i hs hh
      obtain ⟨ha,hf⟩ := h r hs hr hh
      split
      · exact rejectDuplicate_steps hr (by simp [hh])
      · rename_i hdup
        exact completeHandshake_steps hr (Micro.commit hr hh ha (by simpa using hdup) hf)

theorem Impl.handshakeAs_some {id : Nat} {role : Bool} {hs : Noise.HandshakeState}
    (h : st.handshakeAs id role = some hs) :
    ∃ r, st.find id = some r ∧ r.handshake = some hs ∧ hs.initiator = role := by
  unfold handshakeAs at h
  cases hf : st.find id with
  | none => simp [hf] at h
  | some r =>
    cases hh : r.handshake with
    | none => simp [hf,hh] at h
    | some hs' =>
      simp only [hf,Option.bind_some,hh] at h
      split at h
      · rename_i hi
        cases h
        exact ⟨r,rfl,hh,hi⟩
      · cases h

theorem Impl.readNoise_find {id : Nat} {r : ConnectionRecord} {kind : NoiseFrame}
    {hs : Noise.HandshakeState} {msg : Bytes} {cap : Nat} (h : st.find id = some r) :
    (st.readNoise env id kind hs msg cap).1.find id =
      some (r.withHandshake (hs.readMessage env.sodium msg).state) := by
  unfold readNoise
  rw [find_emit,find_modify_self,h,Option.map_some]

@[simp] theorem Impl.readNoise_result (st : Impl) (id : Nat) (kind : NoiseFrame)
    (hs : Noise.HandshakeState) (msg : Bytes) (cap : Nat) :
    (st.readNoise env id kind hs msg cap).2 = hs.readMessage env.sodium msg := rfl

theorem Impl.writeNoise_find (env : Env) {id : Nat} {r : ConnectionRecord}
    (hs : Noise.HandshakeState) (payload : Bytes) (h : st.find id = some r) :
    (st.writeNoise env id hs payload).1.find id =
      some (r.withHandshake (st.writeNoise env id hs payload).2.state) := by
  unfold writeNoise
  dsimp only
  rw [find_emit,find_modify_self,find_ask,h,Option.map_some]

theorem Impl.readNoise_log (st : Impl) (id : Nat) (kind : NoiseFrame) (hs : Noise.HandshakeState)
    (msg : Bytes) (cap : Nat) :
    Effect.noiseRead id kind hs msg cap (hs.readMessage env.sodium msg) ∈
      (st.readNoise env id kind hs msg cap).1.log := List.mem_cons_self

theorem Impl.handleNoiseInit_steps (st : Impl) (id : Nat) (payload : Bytes) :
    Steps env st (st.handleNoiseInit env id payload) := by
  unfold handleNoiseInit
  split
  · exact Relation.ReflTransGen.refl
  · rename_i hs hh
    obtain ⟨r,hr,_,_⟩ := handshakeAs_some hh
    have hread : Steps env st (st.readNoise env id .init hs payload initPayloadCapacity).1 :=
      Steps.one (Micro.read payload hh)
    dsimp only
    split
    · exact (hread.trans (Steps.report _ rfl)).trans (closeNow_steps _ id)
    · rename_i hok
      have hhs : ((st.readNoise env id .init hs payload initPayloadCapacity).1.find id).bind
          ConnectionRecord.handshake = some (hs.readMessage env.sodium payload).state := by
        rw [readNoise_find hr]
        rfl
      have hwrite := hread.trans (Steps.one (Micro.write (d := hs.readMessage env.sodium payload)
        ((st.readNoise env id .init hs payload initPayloadCapacity).1.buildHandshakePayload env)
        hhs (readNoise_log st id .init hs payload initPayloadCapacity) (by simpa using hok)
        (by decide)))
      split
      · exact hwrite.trans (closeNow_steps _ id)
      · exact hwrite.trans (Steps.one (Micro.frame _ (Or.inl rfl)))

/-- A payload that passes leaves the handshake in place and the peer authenticated. -/
theorem Impl.processHandshakePayload_ok {id : Nat} {data : Bytes} {r : ConnectionRecord}
    {hs : Noise.HandshakeState} (hr : st.find id = some r) (hh : r.handshake = some hs)
    (h : (st.processHandshakePayload env id data).2 = true) :
    Steps env st (st.processHandshakePayload env id data).1 ∧
      (st.processHandshakePayload env id data).1.log = st.log ∧
      ∃ r', (st.processHandshakePayload env id data).1.find id = some r' ∧
        r'.handshake = some hs ∧ r'.peerAuthenticated = true := by
  rcases st.processHandshakePayload_cases env id data with
    ⟨hp,_⟩ | ⟨_,hs',hp,schemes,hb,hrs,he⟩
  · rw [hp] at h
    cases h
  · rw [he]
    obtain ⟨k1,k2,_⟩ := st.authenticate_keeps hp schemes r
    refine ⟨Steps.one (Micro.authenticate schemes hb hrs),rfl,_,?_,k1.trans hh,k2⟩
    rw [find_modify_self,hr,Option.map_some]

theorem Impl.processHandshakePayload_failed {id : Nat} {data : Bytes}
    (h : (st.processHandshakePayload env id data).2 = false) :
    Steps env st (st.processHandshakePayload env id data).1 := by
  rcases st.processHandshakePayload_cases env id data with ⟨_,hq⟩ | ⟨hp,_⟩
  · exact Steps.silent hq
  · rw [hp] at h
    cases h

theorem Impl.afterFin_steps {id : Nat} {r : ConnectionRecord} {hs : Noise.HandshakeState}
    {msg : Bytes} {cap : Nat} {d : Noise.Read} (hr : st.find id = some r)
    (hh : r.handshake = some d.state) (hrole : d.state.initiator = false)
    (hlog : Effect.noiseRead id .fin hs msg cap d ∈ st.log) :
    Steps env st (st.afterFin env id d) := by
  unfold afterFin
  cases hok : d.ok with
  | false => exact (Steps.report _ rfl).trans (closeNow_steps _ id)
  | true =>
    cases hp : (st.processHandshakePayload env id d.payloadOut).2 with
    | false =>
      simp only [hp,Bool.not_true,Bool.not_false,Bool.false_eq_true,ite_false,ite_true]
      exact (processHandshakePayload_failed hp).trans (closeNow_steps _ id)
    | true =>
      simp only [hp,Bool.not_true,Bool.false_eq_true,ite_false]
      obtain ⟨hauth,hsame,r',hr',hh',ha'⟩ := processHandshakePayload_ok hr hh hp
      refine hauth.trans (finalizeHandshake_steps (fun r₁ hs₁ hr₁ hh₁ => ?_))
      rw [hr'] at hr₁
      cases hr₁
      rw [hh'] at hh₁
      cases hh₁
      rw [← hsame] at hlog
      exact ⟨ha',Or.inl ⟨hrole,hs,msg,cap,d,hlog,hok,rfl⟩⟩

theorem Impl.afterResp_steps {id : Nat} {r : ConnectionRecord} {hs : Noise.HandshakeState}
    {msg : Bytes} {cap : Nat} {d : Noise.Read} (hr : st.find id = some r)
    (hh : r.handshake = some d.state) (hrole : d.state.initiator = true)
    (hlog : Effect.noiseRead id .resp hs msg cap d ∈ st.log) :
    Steps env st (st.afterResp env id d) := by
  unfold afterResp
  cases hok : d.ok with
  | false => exact (Steps.report _ rfl).trans (closeNow_steps _ id)
  | true =>
    cases hp : (st.processHandshakePayload env id d.payloadOut).2 with
    | false =>
      simp only [hp,Bool.not_true,Bool.not_false,Bool.false_eq_true,ite_false,ite_true]
      exact (processHandshakePayload_failed hp).trans (closeNow_steps _ id)
    | true =>
      simp only [hp,Bool.not_true,Bool.false_eq_true,ite_false]
      obtain ⟨hauth,hsame,r',hr',hh',ha'⟩ := processHandshakePayload_ok hr hh hp
      generalize (st.processHandshakePayload env id d.payloadOut).1 = mid at hauth hsame hr'
      rw [← hsame] at hlog
      have hbound : (mid.find id).bind ConnectionRecord.handshake = some d.state := by
        rw [hr']
        exact hh'
      have hwrite := hauth.trans (Steps.one
        (Micro.write (mid.buildHandshakePayload env) hbound hlog hok (by decide)))
      have hwfind := writeNoise_find env d.state (mid.buildHandshakePayload env) hr'
      have hwrole := (d.state.writeMessage_wrote (S := env.sodium) (env.random mid.asked)
        (mid.buildHandshakePayload env)).1.initiator.trans hrole
      split
      · exact hwrite.trans (closeNow_steps _ id)
      · rename_i hwok
        refine (hwrite.trans (Steps.one (Micro.frame _ (Or.inl rfl)))).trans
          (finalizeHandshake_steps (ReadyToFinalize.quiet ?_ (sendFrame_outward _ _ id _ _)))
        intro r₁ hs₁ hr₁ hh₁
        rw [hwfind] at hr₁
        cases hr₁
        cases hh₁
        exact ⟨ha',Or.inr ⟨hwrole,hs,msg,cap,d,_,_,List.mem_cons_of_mem _ hlog,hok,
          List.mem_cons_self,by simpa [writeNoise] using hwok,rfl⟩⟩

theorem Impl.handleNoiseFin_steps (st : Impl) (id : Nat) (payload : Bytes) :
    Steps env st (st.handleNoiseFin env id payload) := by
  unfold handleNoiseFin
  split
  · exact Relation.ReflTransGen.refl
  · rename_i hs hh
    obtain ⟨r,hr,_,hi⟩ := handshakeAs_some hh
    exact (Steps.one (Micro.read payload hh)).trans
      (afterFin_steps (readNoise_find hr) rfl ((hs.readMessage_same payload).initiator.trans hi)
        (readNoise_log st id .fin hs payload payload.length))

theorem Impl.handleNoiseResp_steps (st : Impl) (id : Nat) (payload : Bytes) :
    Steps env st (st.handleNoiseResp env id payload) := by
  unfold handleNoiseResp
  split
  · exact Relation.ReflTransGen.refl
  · rename_i hs hh
    obtain ⟨r,hr,_,hi⟩ := handshakeAs_some hh
    exact (Steps.one (Micro.read payload hh)).trans
      (afterResp_steps (readNoise_find hr) rfl ((hs.readMessage_same payload).initiator.trans hi)
        (readNoise_log st id .resp hs payload payload.length))

theorem Impl.handleConnect_steps (st : Impl) (ep : Endpoint) :
    Steps env st (st.handleConnect env ep).1 := by
  have hopen : Steps env st (st.openConnection env ep) := Steps.one (Micro.connect ep)
  unfold handleConnect
  split
  · exact Relation.ReflTransGen.refl
  · unfold openConnection at hopen
    dsimp only at hopen ⊢
    rw [insertRecord_find] at hopen
    cases ho : ep.outbound with
    | false => simpa [newRecord,ho] using hopen
    | true =>
      simp only [newRecord,Option.bind_some,ho,ite_true] at hopen ⊢
      unfold sendNoiseInit
      rw [insertRecord_find]
      simp only [newRecord,Option.bind_some,ho]
      split
      · exact hopen.trans (closeNow_steps _ _)
      · exact hopen.trans (Steps.one (Micro.frame _ (Or.inl rfl)))

theorem Impl.handleAddTransport_steps (st : Impl) (pk : String) (ep : Endpoint)
    (scheme : String) : Steps env st (st.handleAddTransport pk ep scheme).1 := by
  unfold handleAddTransport
  split
  · exact Relation.ReflTransGen.refl
  · dsimp only
    split
    · exact Relation.ReflTransGen.refl
    · split
      · exact Relation.ReflTransGen.refl
      · rename_i r hr
        split
        · exact Relation.ReflTransGen.refl
        · rename_i he
          split
          · exact Relation.ReflTransGen.refl
          · exact Steps.one (Micro.attach ep scheme hr (by simpa using he))

theorem Impl.sendHeartbeat_steps (st : Impl) (id : Nat) :
    Steps env st (st.sendHeartbeat env id) := by
  unfold sendHeartbeat
  split
  · exact Relation.ReflTransGen.refl
  · rename_i r hr
    split
    · exact Relation.ReflTransGen.refl
    · rename_i he
      have hq : Quiet (fun e => e.isReport = true) st
          (st.ask.modify id (fun r => { r with heartbeatSeq := r.heartbeatSeq+1 })) :=
        (Quiet.ask st).trans (Quiet.modify _ id (fun r => rfl))
      have hm : st.MayRepeat id msgTypeHeartbeat := by
        refine Or.inr (fun r' hr' => ?_)
        rw [hr] at hr'
        cases hr'
        simpa using he
      exact (Steps.silent hq).trans (Steps.one (Micro.frame _ (hm.quiet hq).maySend))

theorem ConnectionRecord.core_recordRtt (r : ConnectionRecord) (rtt : Nat) :
    (r.recordRtt rtt).core = r.core := by
  unfold recordRtt
  split
  · rfl
  · rename_i best _
    have hm := map_modifyPath (g := TransportPath.core) (f := TransportPath.measured rtt) (fun p => rfl)
      r.transportPaths best.transportConnId
    simp [core,hm]

theorem ConnectionRecord.core_pong (r : ConnectionRecord) (steady wall : Nat)
    (hb : HeartbeatPayload) : (r.pong steady wall hb).core = r.core := by
  unfold pong
  dsimp only
  split
  · rw [core_recordRtt]
    rfl
  · rfl

theorem ConnectionRecord.core_heardPaths (r : ConnectionRecord) (info : List PeerPathInfo) :
    (r.heardPaths info).core = r.core := by
  unfold heardPaths
  split
  · rfl
  · rfl

theorem Impl.handleHeartbeat_steps {id : Nat} (payload : Bytes)
    (h : ∀ r, st.find id = some r → r.established = true) :
    Steps env st (st.handleHeartbeat env id payload) := by
  have hq : Quiet (fun e => e.isReport = true) st
      (st.modify id (fun r => r.heardPaths (parseHeartbeatExtension payload))) :=
    Quiet.modify st id (fun r => r.core_heardPaths _)
  unfold handleHeartbeat
  split
  · exact Relation.ReflTransGen.refl
  · dsimp only
    split
    · have hm : st.MayRepeat id msgTypeHeartbeat := Or.inr h
      exact (Steps.silent hq).trans (Steps.one (Micro.frame _ (hm.quiet hq).maySend))
    · split
      · exact (Steps.silent hq).trans (Steps.silent ((Quiet.ask _).trans
          (Quiet.modify _ id (fun r => r.core_pong _ _ _))))
      · exact Steps.silent hq

theorem Impl.checkHeartbeat_steps (now : Nat) (st : Impl) (id : Nat) :
    Steps env st (st.checkHeartbeat env now id) := by
  unfold checkHeartbeat
  split
  · exact Relation.ReflTransGen.refl
  · split
    · exact Relation.ReflTransGen.refl
    · split
      · exact Steps.silent (Quiet.modify st id (fun r => rfl))
      · split
        · exact Relation.ReflTransGen.refl
        · dsimp only
          rename_i r _ _ _ _
          have hq : Quiet (fun e => e.isReport = true) st
              (st.modify id (fun r' => { r' with missedHeartbeats := r.missedHeartbeats+1 })) :=
            Quiet.modify st id (fun r => rfl)
          refine (Steps.silent hq).trans ?_
          split
          · exact disconnect_steps _ id
          · exact sendHeartbeat_steps _ id

theorem Impl.relaySeen_quiet {allowed : Effect → Prop} (st : Impl) (inner : Header) :
    Quiet allowed st (st.relaySeen env inner).1 := by
  unfold relaySeen
  dsimp only
  generalize (ite (8192 < st.ask.relayDedup.length) _ _ : List RelayFingerprint) = kept
  split
  · exact Quiet.of_registry rfl rfl (fun hb => hb) rfl
  · exact Quiet.of_registry rfl rfl (fun hb => hb) rfl

theorem Impl.handleRelay_steps (st : Impl) (id : Nat) (plaintext : Bytes) :
    Steps env st (st.handleRelay env id plaintext).1 := by
  unfold handleRelay
  split
  · exact Steps.report _ rfl
  · dsimp only
    split
    · exact Steps.report _ rfl
    · split
      · exact Steps.report _ rfl
      · have hseen : Steps env st
            (st.relaySeen env (Header.decode (plaintext.drop relayHeaderSize))).1 :=
          Steps.silent (st.relaySeen_quiet _)
        split
        · exact hseen
        · split
          · exact hseen
          · exact hseen.trans (relay_steps _ _ _ _ _)

theorem Impl.deliverToBus_quiet (st : Impl) (id : Nat) (r : ConnectionRecord) :
    Quiet (fun e => e.isReport = true) st (st.deliverToBus env id r) := by
  have hreport : ∀ (st : Impl) {e : Effect}, e.isReport = true →
      Quiet (fun e => e.isReport = true) st (st.emit e) := fun st _ he => Quiet.emit st he
  unfold deliverToBus
  dsimp only
  split
  · refine Quiet.trans ?_ (hreport _ rfl)
    exact (Quiet.ask st).trans (Quiet.modify _ id (fun r => rfl))
  · split
    · exact ((Quiet.ask st).trans (hreport _ rfl)).trans (hreport _ rfl)
    · exact Quiet.ask st

theorem Impl.openPayload_established {id : Nat} {r : ConnectionRecord} {hdr : Header}
    {payload plain : Bytes} (hr : st.find id = some r) (he : r.established = true)
    (ho : st.openPayload env id r hdr payload = (st',some plain)) :
    ∀ r', st'.find id = some r' → r'.established = true := by
  intro r' hr'
  obtain ⟨r₀,hr₀,hf⟩ := (openPayload_agrees (f := ConnectionRecord.established) ho
    (fun r s => rfl)).keeps id r' hr'
  rw [hr] at hr₀
  cases hr₀
  exact hf.trans he

theorem Impl.dispatchNested_steps (depth : Nat) (st : Impl) (id : Nat) (hdr : Header)
    (payload : Bytes) : Steps env st (st.dispatchNested env depth id hdr payload) := by
  induction depth generalizing st hdr payload with
  | zero => exact Relation.ReflTransGen.refl
  | succ depth ih =>
    unfold dispatchNested
    split
    · exact handleNoiseInit_steps st id payload
    · split
      · exact handleNoiseResp_steps st id payload
      · split
        · exact handleNoiseFin_steps st id payload
        · split
          · exact Steps.report _ rfl
          · rename_i r hr
            split
            · exact Steps.report _ rfl
            · rename_i hne
              have he : r.established = true := by simpa using hne
              split
              · rename_i st' ho
                exact Steps.one (Micro.refuse hr he ho)
              · rename_i st' plain ho
                have hkeep := openPayload_established hr he ho
                split
                · exact (Steps.one (Micro.receive .heartbeat hr he ho)).trans
                    (handleHeartbeat_steps plain hkeep)
                · split
                  · have hrelay : Steps env st ((st'.deliver id r .relay hdr payload
                        plain).handleRelay env id plain).1 :=
                      (Steps.one (Micro.receive .relay hr he ho)).trans
                        (handleRelay_steps _ id plain)
                    split
                    · rename_i st₂ hrel
                      rw [hrel] at hrelay
                      exact hrelay
                    · rename_i st₂ ih₂ ip hrel
                      rw [hrel] at hrelay
                      exact hrelay.trans (ih _ _ _)
                  · exact (Steps.one (Micro.receive .bus hr he ho)).trans
                      (Steps.silent (deliverToBus_quiet _ id r))

/-- Every call into the manager but the parser's own writes is a run of small steps. -/
theorem Event.step_steps (st : Impl) {e : Event} (h : e.isBuffered = false) :
    Steps env st (e.step env st) := by
  cases e with
  | connected ep => exact st.handleConnect_steps ep
  | addTransport pk ep scheme => exact st.handleAddTransport_steps pk ep scheme
  | disconnected id => exact Steps.one (Micro.disconnect id)
  | dispatch id hdr payload => exact st.dispatchNested_steps dispatchDepth id hdr payload
  | buffered id bytes => cases h
  | protocolError id why => exact st.protocolError_steps id why
  | sendUri uri msgType payload => exact st.sendUri_steps uri msgType payload
  | send id msgType payload => exact st.send_steps id msgType payload
  | broadcast msgType payload => exact st.sendAll_steps st.ids msgType payload
  | relay exclude ttl dest inner => exact st.relay_steps exclude ttl dest inner
  | heartbeats =>
    exact (Steps.silent (Quiet.ask st)).trans
      (foldl_steps (fun st id => st.checkHeartbeat_steps _ id) st.ask st.ids)
  | cleanup => exact st.cleanupStalePending_steps
  | connect uri =>
    show Steps env st (st.connect uri)
    unfold Impl.connect
    dsimp only
    split
    · exact Steps.report _ rfl
    · exact Relation.ReflTransGen.refl
  | disconnect id => exact st.disconnect_steps id
  | closeNow id => exact st.closeNow_steps id
  | shutdown =>
    have hq : Quiet (fun e => e.isReport = true) st { st with shuttingDown := true } :=
      Quiet.of_registry rfl rfl (fun hb => hb) rfl
    exact (Steps.silent hq).trans (foldl_steps (fun st id => st.closeNow_steps id) _ st.ids)
  | rekey id => exact Steps.one (Micro.rekey id)
  | rotate next => exact Steps.silent (Quiet.of_registry rfl rfl (fun hb => hb) rfl)
  | registerConnector scheme ops =>
    exact Steps.silent (Quiet.of_registry rfl rfl (fun hb => hb) rfl)
  | setSchemePriority priority => exact Steps.silent (Quiet.of_registry rfl rfl (fun hb => hb) rfl)
  | configure compression => exact Steps.silent (Quiet.of_registry rfl rfl (fun hb => hb) rfl)

/-- A small step, or `handle_data` writing the receive buffer of a connection. -/
inductive Tick (env : Env) : Impl → Impl → Prop where
  | micro {st st' : Impl} (h : Micro env st st') : Tick env st st'
  | buffer (st : Impl) (id : Nat) (bytes : Bytes) : Tick env st (st.setRecvBuf id bytes)

abbrev Ticks (env : Env) : Impl → Impl → Prop := Relation.ReflTransGen (Tick env)

theorem Event.step_ticks (st : Impl) (e : Event) : Ticks env st (e.step env st) := by
  cases hb : e.isBuffered with
  | false => exact Relation.ReflTransGen.mono (fun _ _ => Tick.micro) _ _ (Event.step_steps st hb)
  | true =>
    cases e with
    | buffered id bytes => exact Relation.ReflTransGen.single (Tick.buffer st id bytes)
    | _ => cases hb

theorem foldl_ticks {α : Type} {f : Impl → α → Impl} (hf : ∀ st a, Ticks env st (f st a))
    (st : Impl) (xs : List α) : Ticks env st (xs.foldl f st) := by
  induction xs generalizing st with
  | nil => exact Relation.ReflTransGen.refl
  | cons x xs ih => exact (hf st x).trans (ih _)

theorem Call.step_ticks (st : Impl) (c : Call) : Ticks env st (c.step env st) := by
  cases c with
  | event e => exact Event.step_ticks st e
  | data id chunk others =>
    obtain ⟨events,h,_⟩ := st.handleData_events env id chunk others
    show Ticks env st (st.handleData env id chunk others).1
    rw [h]
    exact foldl_ticks (fun st e => Event.step_ticks st e) st events

theorem Micro.log_grows (h : Micro env st st') : ∃ new, st'.log = new ++ st.log := by
  cases h with
  | silent h =>
    obtain ⟨new,hl,_⟩ := h.log
    exact ⟨new,hl⟩
  | @frame id msgType payload h =>
    obtain ⟨new,hl,_⟩ := (st.sendFrame_outward env id msgType payload).log
    exact ⟨new,hl⟩
  | direct msgType h => exact ⟨[_],rfl⟩
  | connect ep => exact ⟨_ ++ [_,_],by rw [Impl.openConnection_log,List.append_assoc]; rfl⟩
  | attach ep scheme h he => exact ⟨[_,_],rfl⟩
  | disconnect id =>
    obtain ⟨new,hl,_⟩ := st.handleDisconnect_log id
    exact ⟨new ++ [.disconnecting id st.toRegistry],by rw [hl,List.append_assoc]; rfl⟩
  | duplicate h => exact ⟨[_],rfl⟩
  | read msg h => exact ⟨[_],rfl⟩
  | write payload h hl hok hk => exact ⟨[_],rfl⟩
  | authenticate schemes h hrs => exact ⟨[],rfl⟩
  | commit h hh ha hd hf => exact ⟨[_],rfl⟩
  | rekey id =>
    unfold Impl.rekeySession
    split
    · exact ⟨[],rfl⟩
    · split
      · exact ⟨[],rfl⟩
      · split
        · exact ⟨[],rfl⟩
        · exact ⟨[_],rfl⟩
  | refuse h he ho =>
    obtain ⟨new,hl,_⟩ := Impl.openPayload_log ho
    exact ⟨new,hl⟩
  | receive sink h he ho =>
    obtain ⟨new,hl,_⟩ := Impl.openPayload_log ho
    exact ⟨_ :: _ :: _ :: new,by
      rw [List.cons_append,List.cons_append,List.cons_append,← hl]
      rfl⟩

theorem Impl.openPayload_same {id : Nat} {r : ConnectionRecord} {hdr : Header} {payload : Bytes}
    {out : Option Bytes} (h : st.openPayload env id r hdr payload = (st',out)) :
    st'.nextId = st.nextId ∧ st'.sendQueues = st.sendQueues ∧ st'.pkIndex = st.pkIndex ∧
      st'.uriIndex = st.uriIndex ∧ st'.transportIndex = st.transportIndex := by
  have hdec : ∀ s, (st.decryptFor env id s hdr payload).1.nextId = st.nextId ∧
      (st.decryptFor env id s hdr payload).1.sendQueues = st.sendQueues ∧
      (st.decryptFor env id s hdr payload).1.pkIndex = st.pkIndex ∧
      (st.decryptFor env id s hdr payload).1.uriIndex = st.uriIndex ∧
      (st.decryptFor env id s hdr payload).1.transportIndex = st.transportIndex := by
    intro s
    rcases st.decryptFor_cases env id s hdr payload with ⟨_,_,hd⟩ | ⟨_,hd⟩
    · rw [hd]
      exact ⟨rfl,rfl,rfl,rfl,rfl⟩
    · rw [hd]
      exact ⟨rfl,rfl,rfl,rfl,rfl⟩
  rcases openPayload_cases h with
    ⟨rfl,_⟩ | ⟨rfl,_⟩ | ⟨s,_,_,_,_,rfl⟩ | ⟨s,_,_,_,_,rfl⟩
  · exact ⟨rfl,rfl,rfl,rfl,rfl⟩
  · exact ⟨rfl,rfl,rfl,rfl,rfl⟩
  · exact hdec s
  · exact hdec s

theorem Impl.openConnection_same (env : Env) (st : Impl) (ep : Endpoint) :
    (st.openConnection env ep).nextId = st.nextId+1 ∧
      (st.openConnection env ep).sendQueues = st.sendQueues.insert st.nextId {} ∧
      (st.openConnection env ep).pkIndex = st.pkIndex ∧
      (st.openConnection env ep).uriIndex = st.uriIndex.insert ep.key st.nextId ∧
      (st.openConnection env ep).transportIndex = st.transportIndex := by
  cases ho : ep.outbound with
  | false =>
    rw [openConnection_inbound ho]
    exact ⟨rfl,rfl,rfl,rfl,rfl⟩
  | true =>
    rw [openConnection_outbound ho]
    exact ⟨rfl,rfl,rfl,rfl,rfl⟩

/-- Ids are handed out once. -/
theorem Micro.nextId_le (h : Micro env st st') : st.nextId ≤ st'.nextId := by
  cases h with
  | silent h => exact h.nextId.ge
  | @frame id msgType payload h => exact (st.sendFrame_outward env id msgType payload).nextId.ge
  | direct msgType h => exact Nat.le_refl _
  | connect ep =>
    rw [(st.openConnection_same env ep).1]
    exact Nat.le_succ _
  | attach ep scheme h he => exact Nat.le_succ _
  | disconnect id => exact (st.handleDisconnect_nextId id).ge
  | duplicate h => exact Nat.le_refl _
  | read msg h => exact Nat.le_refl _
  | write payload h hl hok hk => exact Nat.le_refl _
  | authenticate schemes h hrs => exact Nat.le_refl _
  | commit h hh ha hd hf => exact Nat.le_refl _
  | rekey id =>
    rcases st.rekeySession_cases env id with h | ⟨r,s,_,_,_,h⟩
    · exact (congrArg Impl.nextId h).ge
    · exact (congrArg Impl.nextId h).ge
  | refuse h he ho => exact (Impl.openPayload_same ho).1.ge
  | receive sink h he ho => exact (Impl.openPayload_same ho).1.ge

theorem Micro.log_mono (h : Micro env st st') : ∀ e ∈ st.log, e ∈ st'.log := by
  obtain ⟨new,hl⟩ := h.log_grows
  intro e he
  rw [hl]
  exact List.mem_append_right new he

theorem Tick.log_mono (h : Tick env st st') : ∀ e ∈ st.log, e ∈ st'.log := by
  cases h with
  | micro h => exact h.log_mono
  | buffer id bytes => exact fun e he => he

theorem Impl.run_ticks (st : Impl) (calls : List Call) : Ticks env st (st.run env calls) :=
  foldl_ticks (fun st c => Call.step_ticks st c) st calls

/-- The rule every invariant below is proved by: what the small steps keep up, as long as the
trace they leave behind satisfies `C`, and what no receive buffer has a part in, a whole run
keeps up. -/
theorem Impl.run_invariant {C : Effect → Prop} {I : Impl → Prop} {st : Impl} (hst : I st)
    (hstep : ∀ a b : Impl, Micro env a b → (∀ e ∈ b.log, C e) → I a → I b)
    (hbuf : ∀ (a : Impl) (id : Nat) (bytes : Bytes), I a → I (a.setRecvBuf id bytes))
    (calls : List Call) (hc : ∀ e ∈ (st.run env calls).log, C e) : I (st.run env calls) := by
  have htick : ∀ a b : Impl, Tick env a b → (∀ e ∈ b.log, C e) → I a → I b := by
    intro a b h hb ha
    cases h with
    | micro h => exact hstep a b h hb ha
    | buffer id bytes => exact hbuf a id bytes ha
  exact invariant_under (fun _ _ h => h.log_mono) htick (run_ticks st calls) hst hc

end

end GoodNet
