import GoodNet.ManagerSteps
set_option autoImplicit false

/-! The handshake states of a run, as the trace tells them. A property of handshake states
that the three frame handlers keep up holds of every handshake a run ever touches. -/

namespace GoodNet
open Codec History Noise

/-- What the trace says of a call of `read_message` or `write_message`, and of a commit,
with `G` for what was known of the handshake before. -/
def Recorded (env : Env) (G : List Effect → Nat → HandshakeState → Prop) (e : Effect)
    (older : List Effect) : Prop :=
  match e with
  | .noiseRead id kind before msg cap d =>
    d = before.readMessage env.sodium msg ∧ cap = kind.capacity msg ∧
      before.initiator = kind.forInitiator ∧ G older id before
  | .noiseWrite _ before secret w =>
    (∃ n, secret = env.random n) ∧ ∃ payload, w = before.writeMessage env.sodium secret payload
  | .established id _ hs => Finished older id hs
  | _ => True

/-- A property of handshake states, given the trace, that every call keeps up. `C` is what
the entries of the trace are promised to satisfy. -/
structure HandshakeRule (env : Env) (C : Effect → Prop)
    (G : List Effect → Nat → HandshakeState → Prop) : Prop where
  mono : ∀ {log log' id hs}, G log id hs → (∀ e ∈ log, e ∈ log') → G log' id hs
  inbound : ∀ log id pk sk, G log id (HandshakeState.init env.sodium false pk sk)
  outbound : ∀ log id pk sk n w,
    w = (HandshakeState.init env.sodium true pk sk).writeMessage env.sodium (env.random n) [] →
    Effect.noiseWrite id (HandshakeState.init env.sodium true pk sk) (env.random n) w ∈ log →
    G log id w.state
  read : ∀ log id kind hs msg cap d, C (.noiseRead id kind hs msg cap d) →
    d = hs.readMessage env.sodium msg → hs.initiator = kind.forInitiator → G log id hs →
    Effect.noiseRead id kind hs msg cap d ∈ log → G log id d.state
  write : ∀ log id kind before msg cap d n payload w, C (.noiseRead id kind before msg cap d) →
    d = before.readMessage env.sodium msg → before.initiator = kind.forInitiator →
    d.ok = true → kind ≠ .fin → G log id before → G log id d.state →
    w = d.state.writeMessage env.sodium (env.random n) payload →
    Effect.noiseWrite id d.state (env.random n) w ∈ log → G log id w.state

/-- Every handshake in the registry satisfies `G`, and the trace is right about the past. -/
structure Tracked (env : Env) (G : List Effect → Nat → HandshakeState → Prop) (st : Impl) :
    Prop where
  held : ∀ id r hs, st.find id = some r → r.handshake = some hs → G st.log id hs
  told : Justified (Recorded env G) st.log

section
variable {env : Env} {C : Effect → Prop} {G : List Effect → Nat → HandshakeState → Prop}
  {st st' : Impl}

/-- Entries that say nothing about handshakes. -/
def Effect.isNoise : Effect → Bool
  | .noiseRead .. => true
  | .noiseWrite .. => true
  | .established .. => true
  | _ => false

theorem recorded_other {e : Effect} (h : e.isNoise = false) (older : List Effect) :
    Recorded env G e older := by
  cases e <;> first | exact True.intro | cases h

theorem Effect.isNoise_report {e : Effect} (h : e.isReport = true) : e.isNoise = false := by
  cases e <;> first | rfl | cases h

theorem Effect.isNoise_outward {e : Effect} (h : e.Outward) : e.isNoise = false := by
  cases e <;> first | rfl | (rcases h with h | h <;> cases h)

/-- Steps that leave every handshake alone and tell nothing about one. -/
theorem Tracked.keep (hG : HandshakeRule env C G) (h : Tracked env G st)
    (hk : Impl.Keeps ConnectionRecord.handshake st st')
    (hl : ∃ new, st'.log = new ++ st.log ∧ ∀ e ∈ new, e.isNoise = false) : Tracked env G st' := by
  obtain ⟨new,hl,hn⟩ := hl
  refine ⟨fun id r hs hr hh => ?_,?_⟩
  · obtain ⟨r₀,hr₀,hf⟩ := hk id r hr
    have hold := h.held id r₀ hs hr₀ (hf.symm.trans hh)
    exact hG.mono hold (fun e he => by rw [hl]; exact List.mem_append_right new he)
  · rw [hl]
    exact h.told.append (fun e he older => recorded_other (hn e he) older)

theorem Tracked.connect (hG : HandshakeRule env C G) (h : Tracked env G st) (ep : Endpoint) :
    Tracked env G (st.openConnection env ep) := by
  have hlog := st.openConnection_log env ep
  have hold : ∀ e ∈ st.log, e ∈ (st.openConnection env ep).log := by
    intro e he
    rw [hlog]
    simp [he]
  have hbase : Justified (Recorded env G)
      (.stat .connect 1 st.nextId :: .registered ep.key st.nextId :: st.log) :=
    ⟨True.intro,True.intro,h.told⟩
  refine ⟨fun id r hs hr hh => ?_,?_⟩
  · rcases Impl.openConnection_find hr with ⟨_,hr⟩ | ⟨rfl,ho,rfl⟩ | ⟨rfl,ho,rfl⟩
    · exact hG.mono (h.held id r hs hr hh) hold
    · cases hh
      rw [ho]
      exact hG.inbound _ _ _ _
    · cases hh
      rw [hlog,ho]
      have hfresh : st.freshHandshake env ep = HandshakeState.init env.sodium true
          ((env.sodium.pkToCurve25519 st.identity.devicePubkey).getD (env.random st.asked))
          (env.sodium.skToCurve25519 st.identity.deviceSeckey) := by
        rw [Impl.freshHandshake,ho]
      rw [hfresh]
      exact hG.outbound _ _ _ _ (st.asked+1) _ rfl (by simp)
  · rw [hlog]
    cases ep.outbound with
    | false => exact hbase
    | true => exact ⟨⟨⟨_,rfl⟩,_,rfl⟩,hbase⟩

theorem Tracked.read (hG : HandshakeRule env C G) (h : Tracked env G st) {id : Nat}
    {kind : NoiseFrame} {hs : HandshakeState} (msg : Bytes)
    (hh : st.handshakeAs id kind.forInitiator = some hs)
    (hc : C (.noiseRead id kind hs msg (kind.capacity msg) (hs.readMessage env.sodium msg))) :
    Tracked env G (st.readNoise env id kind hs msg (kind.capacity msg)).1 := by
  obtain ⟨r,hr,hrh,hi⟩ := Impl.handshakeAs_some hh
  have hbefore := h.held id r hs hr hrh
  refine ⟨fun j r' hs' hr' hh' => ?_,⟨rfl,rfl,hi,hbefore⟩,h.told⟩
  have hgrow : ∀ e ∈ st.log,
      e ∈ (st.readNoise env id kind hs msg (kind.capacity msg)).1.log := fun e he =>
    List.mem_cons_of_mem _ he
  obtain ⟨r₀,hr₀,⟨rfl,rfl⟩ | ⟨_,rfl⟩⟩ := Impl.find_modify_some hr'
  · cases hh'
    exact hG.read _ j kind hs msg _ _ hc rfl hi (hG.mono hbefore hgrow) List.mem_cons_self
  · exact hG.mono (h.held j r' hs' hr₀ hh') hgrow

theorem Tracked.write (hG : HandshakeRule env C G) (h : Tracked env G st) {id : Nat}
    {kind : NoiseFrame} {before : HandshakeState} {msg : Bytes} {cap : Nat} {d : Noise.Read}
    (payload : Bytes) (hh : (st.find id).bind ConnectionRecord.handshake = some d.state)
    (hl : Effect.noiseRead id kind before msg cap d ∈ st.log) (hok : d.ok = true)
    (hk : kind ≠ .fin) (hc : C (.noiseRead id kind before msg cap d)) :
    Tracked env G (st.writeNoise env id d.state payload).1 := by
  obtain ⟨newer,older,hsplit,hd,_,hi,hbefore⟩ := h.told.mem hl
  have hgrow : ∀ e ∈ st.log, e ∈ (st.writeNoise env id d.state payload).1.log := fun e he =>
    List.mem_cons_of_mem _ he
  have holder : ∀ e ∈ older, e ∈ st.log := by
    intro e he
    rw [hsplit]
    exact List.mem_append_right newer (List.mem_cons_of_mem _ he)
  obtain ⟨r,hr,hrh⟩ := Option.bind_eq_some_iff.mp hh
  have hstate := h.held id r d.state hr hrh
  refine ⟨fun j r' hs' hr' hh' => ?_,⟨⟨_,rfl⟩,_,rfl⟩,h.told⟩
  obtain ⟨r₀,hr₀,⟨rfl,rfl⟩ | ⟨_,rfl⟩⟩ := Impl.find_modify_some hr'
  · cases hh'
    exact hG.write _ j kind before msg cap d st.asked payload _ hc hd hi hok hk
      (hG.mono hbefore (fun e he => hgrow e (holder e he))) (hG.mono hstate hgrow) rfl
      List.mem_cons_self
  · exact hG.mono (h.held j r' hs' hr₀ hh') hgrow

theorem Tracked.commit (hG : HandshakeRule env C G) (h : Tracked env G st) {id : Nat}
    {r : ConnectionRecord} {hs : HandshakeState} (hf : Finished st.log id hs) :
    Tracked env G (st.commitSession env id r hs) := by
  refine ⟨fun j r' hs' hr' hh' => ?_,hf,h.told⟩
  obtain ⟨r₀,hr₀,⟨rfl,rfl⟩ | ⟨_,rfl⟩⟩ := Impl.find_modify_some hr'
  · cases hh'
  · exact hG.mono (h.held j r' hs' hr₀ hh') (fun e he => List.mem_cons_of_mem _ he)

theorem Micro.tracked (hG : HandshakeRule env C G) (h : Micro env st st')
    (hc : ∀ e ∈ st'.log, C e) (hi : Tracked env G st) : Tracked env G st' := by
  cases h with
  | silent h =>
    obtain ⟨new,hl,hn⟩ := h.log
    exact hi.keep hG (h.agrees (fun r => rfl)).keeps
      ⟨new,hl,fun e he => Effect.isNoise_report (hn e he)⟩
  | @frame id msgType payload h =>
    have hq := st.sendFrame_outward env id msgType payload
    obtain ⟨new,hl,hn⟩ := hq.log
    exact hi.keep hG (hq.agrees (fun r => rfl)).keeps
      ⟨new,hl,fun e he => Effect.isNoise_outward (hn e he)⟩
  | direct msgType h => exact hi.keep hG (Impl.Keeps.of_records rfl) ⟨[_],rfl,by simp [Effect.isNoise]⟩
  | connect ep => exact hi.connect hG ep
  | attach ep scheme h he =>
    exact hi.keep hG (Impl.attachTransport_agrees _ ep scheme (fun r paths => rfl)).keeps
      ⟨[_,_],rfl,by simp [Effect.isNoise]⟩
  | disconnect id =>
    obtain ⟨new,hl,hn⟩ := st.handleDisconnect_log id
    refine hi.keep hG (st.handleDisconnect_keeps id (fun r => rfl))
      ⟨new ++ [.disconnecting id st.toRegistry],by rw [hl,List.append_assoc]; rfl,?_⟩
    intro e he
    rcases List.mem_append.mp he with he | he
    · exact Effect.isNoise_report (hn e he)
    · rw [List.mem_singleton.mp he]
      rfl
  | duplicate h =>
    exact hi.keep hG (st.removeDuplicate_keeps _ _) ⟨[_],rfl,by simp [Effect.isNoise]⟩
  | read msg h => exact hi.read hG msg h (hc _ List.mem_cons_self)
  | write payload h hl hok hk =>
    exact hi.write hG payload h hl hok hk (hc _ (List.mem_cons_of_mem _ hl))
  | @authenticate id hs hp schemes h hrs =>
    exact hi.keep hG (Impl.Agrees.modify id (fun r => (st.authenticate_keeps hp schemes r).1)).keeps
      ⟨[],rfl,by simp⟩
  | commit h hh ha hd hf => exact hi.commit hG hf
  | rekey id =>
    have hk : Impl.Keeps ConnectionRecord.handshake st (st.rekeySession env id).1 :=
      (Impl.rekeySession_agrees id (fun r s n => rfl)).keeps
    rcases st.rekeySession_cases env id with h | ⟨r,s,_,_,_,h⟩
    · rw [h]
      exact hi
    · rw [h] at hk ⊢
      exact hi.keep hG hk ⟨[_],rfl,by simp [Effect.isNoise]⟩
  | refuse h he ho =>
    obtain ⟨new,hl,hn⟩ := Impl.openPayload_log ho
    refine hi.keep hG (Impl.openPayload_agrees ho (fun r s => rfl)).keeps ⟨new,hl,fun e he => ?_⟩
    rcases hn e he with hr | rfl
    · exact Effect.isNoise_report hr
    · rfl
  | receive sink h he ho =>
    obtain ⟨new,hl,hn⟩ := Impl.openPayload_log ho
    have hopened := hi.keep hG (Impl.openPayload_agrees ho (fun r s => rfl)).keeps ⟨new,hl,fun e he => by
      rcases hn e he with hr | rfl
      · exact Effect.isNoise_report hr
      · rfl⟩
    exact hopened.keep hG (Impl.Keeps.of_records rfl) ⟨[_,_,_],rfl,by simp [Effect.isNoise]⟩

/-- The rule for whole runs. -/
theorem run_tracked (hG : HandshakeRule env C G) (identity : NodeIdentity) (calls : List Call)
    (hc : ∀ e ∈ ((Impl.start identity).run env calls).log, C e) :
    Tracked env G ((Impl.start identity).run env calls) := by
  have hstart : Tracked env G (Impl.start identity) :=
    ⟨fun id r hs hr _ => by simp [Impl.start,Impl.find] at hr,True.intro⟩
  refine Impl.run_invariant hstart (fun _ _ h hc hi => h.tracked hG hc hi)
    (fun st id bytes hi => ?_) calls hc
  exact hi.keep hG (st.setRecvBuf_agrees id bytes (fun _ _ => rfl)).keeps ⟨[],rfl,by simp⟩

end

end GoodNet
