import GoodNet.HandshakeTrace
import GoodNet.SessionTrace
set_option autoImplicit false

/-! When does an established session come out of a complete Noise_XX exchange?
`read_message` goes by its step counter and not by the type of the frame, and
`finalize_handshake` does not look at the counter at all. -/

namespace GoodNet
open Codec History Noise

/-- A message was taken in from a frame of this kind while the counter stood at `step`. -/
def ReadAt (log : List Effect) (id : Nat) (kind : NoiseFrame) (step : Nat) : Prop :=
  ∃ before msg cap d, Effect.noiseRead id kind before msg cap d ∈ log ∧ before.step = step ∧
    d.ok = true

/-- A message was written while the counter stood at `step`, with this drawn for a secret. -/
def WroteAt (env : Env) (log : List Effect) (id step : Nat) (secret : Key) : Prop :=
  (∃ n, secret = env.random n) ∧ ∃ before w, Effect.noiseWrite id before secret w ∈ log ∧
    before.step = step ∧ w.ok = true

/-- A handshake that ran through its three messages: which calls made it, and that the
chaining key the session keys come from has taken in `es` and `se`. -/
structure Complete (env : Env) (log : List Effect) (id : Nat) (hs : HandshakeState) : Prop where
  step : hs.step = 3
  responder : hs.initiator = false →
    ReadAt log id .init 0 ∧ WroteAt env log id 1 hs.eSk ∧ ReadAt log id .fin 2 ∧
    ∃ se ck, env.sodium.scalarmult hs.eSk hs.rs = some se ∧
      hs.symmetric.ck = (hkdf2 env.sodium ck se.bytes).1
  initiator : hs.initiator = true →
    WroteAt env log id 0 hs.eSk ∧ ReadAt log id .resp 1 ∧ (∃ secret, WroteAt env log id 2 secret) ∧
    ∃ es se ck, env.sodium.scalarmult hs.eSk hs.rs = some es ∧
      env.sodium.scalarmult hs.sSk hs.re = some se ∧
      hs.symmetric.ck = (hkdf2 env.sodium (hkdf2 env.sodium ck es.bytes).1 se.bytes).1

/-- The frames of a responder come in order: no `FIN` before the answer to `INIT` is
written, and no second `INIT` while that answer is due. -/
def Effect.inOrder : Effect → Bool
  | .noiseRead _ .fin before _ _ _ => decide (2 ≤ before.step)
  | .noiseRead _ .init before _ _ _ => decide (before.step ≠ 1)
  | _ => true

/-- What must have been done for a handshake to stand at its step. -/
structure Begun (env : Env) (log : List Effect) (id : Nat) (hs : HandshakeState) : Prop where
  read : hs.initiator = false → 1 ≤ hs.step → ReadAt log id .init 0
  answered : hs.initiator = false → 2 ≤ hs.step → WroteAt env log id 1 hs.eSk
  opened : hs.initiator = true → 1 ≤ hs.step ∧ WroteAt env log id 0 hs.eSk

section
variable {env : Env} {log log' : List Effect} {id : Nat}

theorem ReadAt.mono {kind : NoiseFrame} {step : Nat} (h : ReadAt log id kind step)
    (hl : ∀ e ∈ log, e ∈ log') : ReadAt log' id kind step := by
  obtain ⟨before,msg,cap,d,hm,hs,hok⟩ := h
  exact ⟨before,msg,cap,d,hl _ hm,hs,hok⟩

theorem WroteAt.mono {step : Nat} {secret : Key} (h : WroteAt env log id step secret)
    (hl : ∀ e ∈ log, e ∈ log') : WroteAt env log' id step secret := by
  obtain ⟨hr,before,w,hm,hs,hok⟩ := h
  exact ⟨hr,before,w,hl _ hm,hs,hok⟩

theorem Begun.mono {hs : HandshakeState} (h : Begun env log id hs)
    (hl : ∀ e ∈ log, e ∈ log') : Begun env log' id hs where
  read := fun hi h1 => (h.read hi h1).mono hl
  answered := fun hi h2 => (h.answered hi h2).mono hl
  opened := fun hi => ⟨(h.opened hi).1,(h.opened hi).2.mono hl⟩

/-- Reading keeps the local ephemeral; the counter goes up by one at most. -/
theorem begun_read {kind : NoiseFrame} {hs : HandshakeState} {msg : Bytes} {cap : Nat}
    {d : Noise.Read} (hc : (Effect.noiseRead id kind hs msg cap d).inOrder = true)
    (hd : d = hs.readMessage env.sodium msg) (hi : hs.initiator = kind.forInitiator)
    (h : Begun env log id hs) (hm : Effect.noiseRead id kind hs msg cap d ∈ log) :
    Begun env log id d.state := by
  have hsame := hs.readMessage_same (S := env.sodium) msg
  have hcount := hs.readMessage_counts (S := env.sodium) msg
  rw [← hd] at hsame hcount
  cases hok : d.ok with
  | false =>
    simp only [Counts,hok,Bool.false_eq_true,ite_false] at hcount
    refine ⟨fun hr h1 => ?_,fun hr h2 => ?_,fun ho => ?_⟩
    · exact h.read (hsame.initiator.symm.trans hr) (by omega)
    · rw [hsame.eSk]
      exact h.answered (hsame.initiator.symm.trans hr) (by omega)
    · rw [hsame.eSk,hcount]
      exact h.opened (hsame.initiator.symm.trans ho)
  | true =>
    simp only [Counts,hok,ite_true] at hcount
    refine ⟨fun hr _ => ?_,fun hr h2 => ?_,fun ho => ?_⟩
    · have hrole := hsame.initiator.symm.trans hr
      by_cases h0 : hs.step = 0
      · cases kind with
        | init => exact ⟨hs,msg,cap,d,hm,h0,hok⟩
        | resp => simp [NoiseFrame.forInitiator,hrole] at hi
        | fin => simp [Effect.inOrder,h0] at hc
      · exact h.read hrole (by omega)
    · have hrole := hsame.initiator.symm.trans hr
      rw [hsame.eSk]
      refine h.answered hrole ?_
      cases kind with
      | init =>
        simp only [Effect.inOrder,decide_eq_true_eq] at hc
        omega
      | resp => simp [NoiseFrame.forInitiator,hrole] at hi
      | fin => simpa [Effect.inOrder] using hc
    · obtain ⟨h1,hw⟩ := h.opened (hsame.initiator.symm.trans ho)
      rw [hsame.eSk]
      exact ⟨by omega,hw⟩

/-- Writing draws a new ephemeral in the first two messages; a responder only ever writes
the second, an initiator past the first only the third. -/
theorem begun_write {kind : NoiseFrame} {before : HandshakeState} {msg : Bytes} {cap n : Nat}
    {d : Noise.Read} {payload : Bytes} {w : Written}
    (hc : (Effect.noiseRead id kind before msg cap d).inOrder = true)
    (hd : d = before.readMessage env.sodium msg) (hi : before.initiator = kind.forInitiator)
    (hok : d.ok = true) (hk : kind ≠ .fin) (hb : Begun env log id before)
    (h : Begun env log id d.state)
    (hw : w = d.state.writeMessage env.sodium (env.random n) payload)
    (hm : Effect.noiseWrite id d.state (env.random n) w ∈ log) : Begun env log id w.state := by
  have hsame := before.readMessage_same (S := env.sodium) msg
  have hcount := before.readMessage_counts (S := env.sodium) msg
  obtain ⟨hwrote,hwcount⟩ := d.state.writeMessage_wrote (S := env.sodium) (env.random n) payload
  rw [← hd] at hsame hcount
  rw [← hw] at hwrote hwcount
  simp only [Counts,hok,ite_true] at hcount
  have hup : d.state.step ≤ w.state.step := by
    rw [hwcount]
    split <;> omega
  refine ⟨fun hr _ => ?_,fun hr h2 => ?_,fun ho => ?_⟩
  · exact h.read (hwrote.initiator.symm.trans hr) (by omega)
  · have hrole := hwrote.initiator.symm.trans hr
    have hearly : d.state.step = 1 ∨ 3 ≤ d.state.step := by
      cases kind with
      | init =>
        simp only [Effect.inOrder,decide_eq_true_eq] at hc
        omega
      | resp => simp [NoiseFrame.forInitiator,hsame.initiator.symm.trans hrole] at hi
      | fin => exact absurd rfl hk
    rw [hwrote.eSk]
    rcases hearly with h1 | h3
    · have hwok : w.ok = true := by
        cases hwok : w.ok with
        | true => rfl
        | false =>
          simp only [Counts,hwok,Bool.false_eq_true,ite_false] at hwcount
          omega
      simp only [h1,le_refl,ite_true]
      exact ⟨⟨n,rfl⟩,d.state,w,hm,h1,hwok⟩
    · have hlate : ¬d.state.step ≤ 1 := by omega
      simp only [hlate,ite_false]
      exact h.answered hrole (by omega)
  · have hrole := hwrote.initiator.symm.trans ho
    have h1 := (hb.opened (hsame.initiator.symm.trans hrole)).1
    have hlate : ¬d.state.step ≤ 1 := by omega
    rw [hwrote.eSk]
    simp only [hlate,ite_false]
    exact ⟨by omega,(h.opened hrole).2⟩

theorem begun_rule (env : Env) : HandshakeRule env (fun e => e.inOrder = true) (Begun env) where
  mono := fun h hl => h.mono hl
  inbound := fun log id pk sk => by
    refine ⟨fun _ h1 => ?_,fun _ h2 => ?_,fun ho => ?_⟩
    · simp [HandshakeState.init] at h1
    · simp [HandshakeState.init] at h2
    · simp [HandshakeState.init] at ho
  outbound := fun log id pk sk n w hw hm => by
    obtain ⟨hwrote,hwcount⟩ := (HandshakeState.init env.sodium true pk sk).writeMessage_wrote
      (S := env.sodium) (env.random n) []
    have hwok : ((HandshakeState.init env.sodium true pk sk).writeMessage env.sodium
        (env.random n) []).ok = true := HandshakeState.writeMessage_first (env.random n) [] rfl rfl
    rw [← hw] at hwrote hwcount hwok
    simp only [Counts,hwok,ite_true] at hwcount
    have hrole : w.state.initiator = true := hwrote.initiator
    refine ⟨fun hr => ?_,fun hr => ?_,fun _ => ?_⟩
    · simp [hrole] at hr
    · simp [hrole] at hr
    · rw [hwrote.eSk]
      exact ⟨by omega,⟨n,rfl⟩,_,w,hm,rfl,hwok⟩
  read := fun log id kind hs msg cap d hc hd hi h hm => begun_read hc hd hi h hm
  write := fun log id kind before msg cap d n payload w hc hd hi hok hk hb h hw hm =>
    begun_write hc hd hi hok hk hb h hw hm

/-- A handshake that has just taken its last message is complete. -/
theorem complete_of_finished {hs : HandshakeState}
    (ht : Justified (Recorded env (Begun env)) log) (hc : ∀ e ∈ log, e.inOrder = true)
    (hf : Finished log id hs) : Complete env log id hs := by
  have hsub : ∀ {newer older : List Effect} {e : Effect}, log = newer ++ e :: older →
      ∀ x ∈ older, x ∈ log := by
    intro newer older e hsplit x hx
    rw [hsplit]
    exact List.mem_append_right newer (List.mem_cons_of_mem e hx)
  rcases hf with ⟨hi,before,msg,cap,d,hm,hok,rfl⟩ |
    ⟨hi,before,msg,cap,d,secret,w,hm,hok,hwm,hwok,rfl⟩
  · obtain ⟨newer,older,hsplit,hd,_,hrole,hb⟩ := ht.mem hm
    have hbefore := hb.mono (hsub hsplit)
    have hsame := before.readMessage_same (S := env.sodium) msg
    rw [hd] at hok
    obtain ⟨hle,hstep⟩ := HandshakeState.readMessage_ok_step hok
    have hge : 2 ≤ before.step := by simpa [Effect.inOrder] using hc _ hm
    have h2 : before.step = 2 := by omega
    obtain ⟨se,ck,hse,hck⟩ := HandshakeState.readMessage_se h2 hrole hok
    rw [← hd] at hsame hstep hse hck hok
    refine ⟨by omega,fun _ => ⟨?_,?_,⟨before,msg,cap,d,hm,h2,hok⟩,se,ck,?_,hck⟩,fun ho => ?_⟩
    · exact hbefore.read hrole (by omega)
    · rw [hsame.eSk]
      exact hbefore.answered hrole hge
    · rw [hsame.eSk]
      exact hse
    · rw [hi] at ho
      cases ho
  · obtain ⟨newer,older,hsplit,hd,_,hrole,hb⟩ := ht.mem hm
    obtain ⟨newer',older',hsplit',hrand,payload,hw⟩ := ht.mem hwm
    have hbefore := hb.mono (hsub hsplit)
    have hsame := before.readMessage_same (S := env.sodium) msg
    have hwrote := (d.state.writeMessage_wrote (S := env.sodium) secret payload).1
    rw [hw] at hwok
    obtain ⟨hle,hwstep⟩ := HandshakeState.writeMessage_ok_step hwok
    rw [hd] at hok
    obtain ⟨_,hstep⟩ := HandshakeState.readMessage_ok_step hok
    obtain ⟨h1,hopened⟩ := hbefore.opened hrole
    rw [← hd] at hstep
    have hone : before.step = 1 := by omega
    have htwo : d.state.step = 2 := by omega
    have hinit : d.state.initiator = true := by rw [hd,hsame.initiator,hrole]; rfl
    obtain ⟨es,ck,hes,hck⟩ := HandshakeState.readMessage_es hone hrole hok
    obtain ⟨se,hse,hck'⟩ := HandshakeState.writeMessage_se htwo hinit hwok
    rw [← hd] at hsame hes hck hok
    rw [← hw] at hwrote hwstep hck' hwok
    have heSk : w.state.eSk = before.eSk := by
      rw [hwrote.eSk,htwo,← hsame.eSk]
      rfl
    refine ⟨by omega,fun hr => ?_,fun _ => ⟨?_,⟨before,msg,cap,d,hm,hone,hok⟩,
      ⟨secret,hrand,d.state,w,hwm,htwo,hwok⟩,es,se,ck,?_,?_,?_⟩⟩
    · rw [hi] at hr
      cases hr
    · rw [heSk]
      exact hopened
    · rw [heSk,hwrote.rs]
      exact hes
    · rw [hwrote.sSk,hwrote.re]
      exact hse
    · rw [hck',hck]

theorem Complete.mono {hs : HandshakeState} (h : Complete env log id hs)
    (hl : ∀ e ∈ log, e ∈ log') : Complete env log' id hs where
  step := h.step
  responder := fun hi => by
    obtain ⟨h0,h1,h2,hk⟩ := h.responder hi
    exact ⟨h0.mono hl,h1.mono hl,h2.mono hl,hk⟩
  initiator := fun hi => by
    obtain ⟨h0,h1,⟨secret,h2⟩,hk⟩ := h.initiator hi
    exact ⟨h0.mono hl,h1.mono hl,⟨secret,h2.mono hl⟩,hk⟩

end

/-- In a run whose handshake frames come in order, every commit is of a complete handshake
and the session of every established connection derives from one. -/
theorem established_complete (env : Env) (identity : NodeIdentity) (calls : List Call)
    (hc : ∀ e ∈ ((Impl.start identity).run env calls).log, e.inOrder = true) :
    (∀ newer older id owner hs, ((Impl.start identity).run env calls).log =
      newer ++ .established id owner hs :: older → Complete env older id hs) ∧
    ∀ id r, ((Impl.start identity).run env calls).find id = some r → r.established = true →
      ∃ s owner hs, r.session = some s ∧ s.DerivedFrom env.sodium hs ∧
        Effect.established id owner hs ∈ ((Impl.start identity).run env calls).log ∧
        Complete env ((Impl.start identity).run env calls).log id hs := by
  have ht := (run_tracked (begun_rule env) identity calls hc).told
  have hcommit : ∀ newer older id owner hs, ((Impl.start identity).run env calls).log =
      newer ++ .established id owner hs :: older → Complete env older id hs := by
    intro newer older id owner hs hsplit
    rw [hsplit] at ht hc
    obtain ⟨hf,hto⟩ := ht.suffix
    exact complete_of_finished hto
      (fun e he => hc e (List.mem_append_right _ (List.mem_cons_of_mem _ he))) hf
  refine ⟨hcommit,fun id r hr he => ?_⟩
  have hsound := (run_sound env identity calls).record id r hr
  obtain ⟨s,hs⟩ := hsound.session he
  obtain ⟨owner,hsk,hm,hd⟩ := hsound.derived s hs
  obtain ⟨newer,older,hsplit⟩ := List.append_of_mem hm
  refine ⟨s,owner,hsk,hs,hd,hm,(hcommit newer older id owner hsk hsplit).mono (fun e he => ?_)⟩
  rw [hsplit]
  exact List.mem_append_right _ (List.mem_cons_of_mem _ he)

set_option maxRecDepth 10000 in
/-- The undisturbed exchange is in order, and its responder ends up established. -/
theorem established_complete_exchange :
    ∃ r s owner hs, ((Impl.start NodeIdentity.bob).run (Env.sample false) bobConfirms).find 1 =
        some r ∧ r.session = some s ∧ s.DerivedFrom Sodium.sample hs ∧
      Complete (Env.sample false)
        ((Impl.start NodeIdentity.bob).run (Env.sample false) bobConfirms).log 1 hs ∧
      Effect.established 1 owner hs ∈
        ((Impl.start NodeIdentity.bob).run (Env.sample false) bobConfirms).log := by
  have hest : (((Impl.start NodeIdentity.bob).run (Env.sample false) bobConfirms).find 1).any
      ConnectionRecord.established = true := by decide +kernel
  obtain ⟨r,hr,he⟩ := (Option.any_eq_true _ _).mp hest
  obtain ⟨s,owner,hs,h1,h2,h3,h4⟩ := (established_complete (Env.sample false) NodeIdentity.bob
    bobConfirms (by decide +kernel)).2 1 r hr he
  exact ⟨r,s,owner,hs,hr,h1,h2,h4,h3⟩

/-- A second message made up for a responder that never drew its ephemeral: `ee` is a
product with the zero secret, `es` one with the sender's own secret `e`, and the chaining
key is that of an exchange in clear so far. -/
def forgedSecond (S : Sodium) (first : Bytes) (e s victim : Key) (payload : Bytes) :
    Option Bytes := do
  let hs := ((HandshakeState.init S false victim victim).readMessage S first).state
  let hs := hs.readEphemeral S (S.scalarmultBase e).bytes
  let ee ← S.scalarmult (Block.zero 32) (S.scalarmultBase e)
  let (sym,sealedStatic) ← (hs.symmetric.mixKey S ee).encryptAndHash S s.bytes
  let es ← S.scalarmult e victim
  let (_,sealedPayload) ← (sym.mixKey S es).encryptAndHash S payload
  pure ((S.scalarmultBase e).bytes ++ sealedStatic ++ sealedPayload)

/-- Two `FIN` frames and nothing else, the second one carrying a made-up second message
with the identity of another node. -/
def finTwice : List Call :=
  [.tcp,.event (.connected (Endpoint.sample "a" 0)),
    .frame 1 msgTypeNoiseFin 0 (sampleKey 9).bytes,
    .frame 1 msgTypeNoiseFin 0 ((forgedSecond Sodium.sample (sampleKey 9).bytes (sampleKey 7)
      (clamp NodeIdentity.alice.devicePubkey) (clamp NodeIdentity.bob.devicePubkey)
      ((Impl.start NodeIdentity.alice).buildHandshakePayload (Env.sample false))).getD [])]

set_option maxRecDepth 10000 in
/-- The connection is established at step 2, without a local ephemeral. -/
theorem fin_twice_establishes :
    ∃ owner hs, Effect.established 1 owner hs ∈
        ((Impl.start NodeIdentity.bob).run (Env.sample false) finTwice).log ∧
      (((Impl.start NodeIdentity.bob).run (Env.sample false) finTwice).find 1).any
        ConnectionRecord.established = true ∧
      hs.step = 2 ∧ hs.eSk = Block.zero 32 ∧
      ¬Complete (Env.sample false)
        ((Impl.start NodeIdentity.bob).run (Env.sample false) finTwice).log 1 hs := by
  have hany : ((Impl.start NodeIdentity.bob).run (Env.sample false) finTwice).log.any (fun e =>
      match e with
      | .established id _ hs => id == 1 && hs.step == 2 && hs.eSk == Block.zero 32
      | _ => false) = true := by decide +kernel
  obtain ⟨e,he,hp⟩ := List.any_eq_true.mp hany
  cases e with
  | established id owner hs =>
    simp only [Bool.and_eq_true,beq_iff_eq] at hp
    obtain ⟨⟨rfl,h2⟩,h0⟩ := hp
    refine ⟨owner,hs,he,by decide +kernel,h2,h0,fun hcomplete => ?_⟩
    have h3 := hcomplete.step
    omega
  | _ => cases hp

end GoodNet
