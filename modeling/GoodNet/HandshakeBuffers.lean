import GoodNet.HandshakeTrace
set_option autoImplicit false

/-! How much `read_message` stores through its two output pointers, and which of its
callers bring a buffer for it. -/

namespace GoodNet
open Codec History Noise

/-- Before the first message the cipher has no key, after the second it has one. -/
structure Noise.HandshakeState.Keyed (hs : HandshakeState) : Prop where
  early : hs.step = 0 → hs.symmetric.cipher.hasKey = false
  late : 2 ≤ hs.step → hs.symmetric.cipher.hasKey = true

section
variable {S : Sodium} {hs : HandshakeState} {msg : Bytes}

theorem Noise.HandshakeState.readPayload_hasKey (hs : HandshakeState) (rsOut cipher : Bytes) :
    (hs.readPayload S rsOut cipher).state.symmetric.cipher.hasKey =
      hs.symmetric.cipher.hasKey := by
  unfold readPayload
  dsimp only
  split
  · exact SymmetricState.decryptAndHash_hasKey _ _
  · rfl

theorem Noise.HandshakeState.readStatic_hasKey (hs : HandshakeState) (cipher : Bytes) :
    (hs.readStatic S cipher).state.symmetric.cipher.hasKey = hs.symmetric.cipher.hasKey :=
  SymmetricState.decryptAndHash_hasKey _ _

theorem Noise.HandshakeState.mixKey_hasKey (hs : HandshakeState) (k : Key) :
    (hs.mixKey S k).symmetric.cipher.hasKey = true := rfl

/-- At step 0 the only token is the ephemeral in clear. -/
theorem Noise.HandshakeState.readTokens_zero (h0 : hs.step = 0) : hs.readTokens S msg =
    if msg.length < dhLen then { ok := false, state := hs }
    else { ok := true, state := hs.readEphemeral S msg, rest := msg.drop dhLen } := by
  unfold readTokens
  simp only [h0]

/-- From step 2 on a failed message leaves the key where it was. -/
theorem Noise.HandshakeState.readTokens_hasKey (h2 : 2 ≤ hs.step)
    (hk : hs.symmetric.cipher.hasKey = true) :
    (hs.readTokens S msg).state.symmetric.cipher.hasKey = true := by
  have hstatic := (hs.readStatic_hasKey (S := S) (msg.take sEncLen)).trans hk
  unfold readTokens
  split
  · omega
  · omega
  · split
    · exact hk
    · dsimp only
      split
      · exact hstatic
      · split
        · exact hstatic
        · rfl
  · exact hk

theorem Noise.HandshakeState.Keyed.read (h : hs.Keyed) : (hs.readMessage S msg).state.Keyed := by
  have hcount := hs.readMessage_counts (S := S) msg
  cases ht : (hs.readTokens S msg).ok with
  | false =>
    rw [readMessage_no_tokens ht] at hcount ⊢
    simp only [Counts,Bool.false_eq_true,ite_false] at hcount
    refine ⟨fun h0 => ?_,fun h2 => ?_⟩
    · dsimp only at h0 hcount ⊢
      have hz : hs.step = 0 := by omega
      rw [readTokens_zero hz] at ht ⊢
      split at ht
      · rename_i hl
        simp only [hl,ite_true]
        exact h.early hz
      · cases ht
    · dsimp only at h2 hcount
      exact readTokens_hasKey (by omega) (h.late (by omega))
  | true =>
    have hle := readTokens_ok_step ht
    rw [readMessage_of_tokens ht] at hcount ⊢
    refine ⟨fun h0 => ?_,fun h2 => ?_⟩
    · -- a payload in clear is always taken, so the counter has moved
      rw [h0] at hcount
      unfold Counts at hcount
      split at hcount
      · omega
      · rename_i hbad
        have hz : hs.step = 0 := hcount.symm
        have hclear := h.early hz
        rw [readTokens_zero hz] at hbad ht
        split at ht
        · cases ht
        · rename_i hl
          simp [hl,readPayload,SymmetricState.decryptAndHash,CipherState.decrypt,readEphemeral,
            mixHash,SymmetricState.mixHash,hclear] at hbad
    · rw [readPayload_hasKey]
      have hge : 1 ≤ hs.step := by
        unfold Counts at hcount
        split at hcount
        · omega
        · omega
      rcases Nat.lt_or_ge hs.step 2 with h1 | h2
      · obtain ⟨ee,es,_,_,_,htok⟩ := readTokens_one (by omega) ht
        rw [htok]
        rfl
      · exact readTokens_hasKey h2 (h.late h2)

theorem Noise.HandshakeState.writePayload_hasKey (hs : HandshakeState) (sent payload : Bytes) :
    (hs.writePayload S sent payload).state.symmetric.cipher.hasKey =
      hs.symmetric.cipher.hasKey := by
  unfold writePayload
  cases h : hs.symmetric.encryptAndHash S payload with
  | none => rfl
  | some p => exact (SymmetricState.encryptAndHash_ck h).2

/-- Past its first message a handshake that writes on ends up with a key. -/
theorem Noise.HandshakeState.Keyed.write (h : hs.Keyed) (h1 : 1 ≤ hs.step) (secret : Key)
    (payload : Bytes) : (hs.writeMessage S secret payload).state.Keyed := by
  have hcount := (hs.writeMessage_wrote (S := S) secret payload).2
  have hup : hs.step ≤ (hs.writeMessage S secret payload).state.step := by
    rw [hcount]
    split <;> omega
  refine ⟨fun h0 => by omega,fun h2 => ?_⟩
  unfold writeMessage at hcount h2 ⊢
  split
  · omega
  · rename_i hone
    simp only [hone] at hcount h2
    dsimp only
    split
    · rename_i hn
      simp only [hn] at h2
      simp [generateKeypair,mixHash,hone] at h2
    · rename_i ee hee
      split
      · rfl
      · rename_i sym s hsym
        have hk := (SymmetricState.encryptAndHash_ck hsym).2
        split
        · exact hk
        · exact writePayload_hasKey _ _ _
  · rename_i htwo
    have hk := h.late (by omega)
    split
    · exact hk
    · rename_i sym s hsym
      have hk' := (SymmetricState.encryptAndHash_ck hsym).2.trans hk
      dsimp only
      split
      · exact hk'
      · exact writePayload_hasKey _ _ _
  · exact h.late (by
      rename_i n0 n1 n2
      rcases Nat.lt_or_ge hs.step 2 with hlt | hge
      · exact absurd (by omega : hs.step = 1) n1
      · exact hge)

/-- The bytes stored for a payload whose tokens could be read. -/
def Noise.payloadBytes (step len : Nat) : Nat :=
  match step with
  | 0 => len-dhLen
  | 1 => len-(dhLen+sEncLen+macLen)
  | _ => len-(sEncLen+macLen)

theorem Noise.HandshakeState.readPayload_out (hs : HandshakeState) (rsOut cipher : Bytes) :
    (hs.readPayload S rsOut cipher).payloadOut.length =
        (if hs.symmetric.cipher.hasKey then cipher.length-macLen else cipher.length) ∧
      (hs.readPayload S rsOut cipher).rsOut = rsOut := by
  rw [← SymmetricState.decryptAndHash_out_length (S := S) hs.symmetric cipher]
  unfold readPayload
  dsimp only
  split
  · exact ⟨rfl,rfl⟩
  · exact ⟨rfl,rfl⟩

theorem Noise.HandshakeState.Keyed.payloadOut (h : hs.Keyed) (msg : Bytes) :
    (hs.readMessage S msg).payloadOut.length =
      if (hs.readTokens S msg).ok then payloadBytes hs.step msg.length else 0 := by
  cases ht : (hs.readTokens S msg).ok with
  | false =>
    rw [readMessage_no_tokens ht]
    rfl
  | true =>
    rw [readMessage_of_tokens ht,(readPayload_out _ _ _).1]
    have hle := readTokens_ok_step ht
    rcases Nat.lt_or_ge hs.step 1 with h0 | hge
    · have hz : hs.step = 0 := by omega
      have hclear : (hs.readEphemeral S msg).symmetric.cipher.hasKey = false := h.early hz
      rw [readTokens_zero hz] at ht ⊢
      by_cases hl : msg.length < dhLen
      · rw [if_pos hl] at ht
        cases ht
      · rw [if_neg hl]
        dsimp only
        rw [hclear,hz,if_neg Bool.false_ne_true,if_pos rfl,List.length_drop]
        rfl
    · rcases Nat.lt_or_ge hs.step 2 with h1 | h2
      · have hone : hs.step = 1 := by omega
        obtain ⟨ee,es,_,_,_,htok⟩ := readTokens_one hone ht
        rw [htok]
        dsimp only
        rw [mixKey_hasKey,if_pos rfl,if_pos rfl,hone,List.length_drop,Nat.sub_sub]
        rfl
      · have htwo : hs.step = 2 := by omega
        obtain ⟨se,_,_,htok⟩ := readTokens_two htwo ht
        rw [htok]
        dsimp only
        rw [mixKey_hasKey,if_pos rfl,if_pos rfl,htwo,List.length_drop,Nat.sub_sub]
        rfl

/-- A static key is only ever read with a key in place, from as many bytes as it takes. -/
theorem Noise.HandshakeState.readStatic_out (hs : HandshakeState) (cipher : Bytes)
    (hk : hs.symmetric.cipher.hasKey = true) :
    (hs.readStatic S (cipher.take sEncLen)).out.length ≤ dhLen := by
  have hlen := SymmetricState.decryptAndHash_out_length (S := S) hs.symmetric
    (cipher.take sEncLen)
  simp only [hk,ite_true,List.length_take] at hlen
  unfold readStatic
  dsimp only
  rw [hlen]
  simp only [sEncLen]
  omega

theorem Noise.HandshakeState.Keyed.rsOut (h : hs.Keyed) :
    (hs.readMessage S msg).rsOut.length ≤ dhLen := by
  have htok : (hs.readTokens S msg).rsOut.length ≤ dhLen := by
    unfold readTokens
    split
    · split
      · exact Nat.zero_le _
      · exact Nat.zero_le _
    · split
      · exact Nat.zero_le _
      · dsimp only
        split
        · exact Nat.zero_le _
        · rename_i ee _
          have hs1 := readStatic_out (S := S) ((hs.readEphemeral S msg).mixKey S ee)
            (msg.drop dhLen) rfl
          split
          · exact Nat.zero_le _
          · split
            · exact hs1
            · split
              · exact hs1
              · exact hs1
    · rename_i htwo
      have hs2 := hs.readStatic_out (S := S) msg (h.late (by omega))
      split
      · exact Nat.zero_le _
      · dsimp only
        split
        · exact hs2
        · split
          · exact hs2
          · exact hs2
    · exact Nat.zero_le _
  unfold readMessage
  dsimp only
  split
  · rw [(readPayload_out _ _ _).2]
    exact htok
  · exact htok

end

theorem keyed_rule (env : Env) :
    HandshakeRule env (fun _ => True) (fun _ _ hs => hs.Keyed) where
  mono := fun h _ => h
  inbound := fun _ _ _ _ => ⟨fun _ => rfl,fun h2 => by simp [HandshakeState.init] at h2⟩
  outbound := fun _ _ pk sk n w hw _ => by
    have hwok : ((HandshakeState.init env.sodium true pk sk).writeMessage env.sodium
        (env.random n) []).ok = true := HandshakeState.writeMessage_first (env.random n) [] rfl rfl
    obtain ⟨_,hstep⟩ := HandshakeState.writeMessage_ok_step hwok
    rw [← hw] at hstep
    exact ⟨fun h0 => by omega,fun h2 => by simp [hstep,HandshakeState.init] at h2⟩
  read := fun _ _ _ hs msg _ d _ hd _ h _ => by
    rw [hd]
    exact h.read
  write := fun _ _ _ before msg _ d n payload w _ hd _ hok _ _ h hw _ => by
    rw [hd] at hok
    obtain ⟨_,hstep⟩ := HandshakeState.readMessage_ok_step hok
    rw [← hd] at hstep
    rw [hw]
    exact h.write (by omega) (env.random n) payload

/-- The longest `INIT` payload whose remainder fits into one byte, by step. -/
def initLimit (step : Nat) : Nat :=
  match step with
  | 0 => dhLen+1
  | 1 => dhLen+sEncLen+macLen+1
  | _ => sEncLen+macLen+1

theorem payloadBytes_capacity (step len : Nat) :
    payloadBytes step len ≤ initPayloadCapacity ↔ len ≤ initLimit step := by
  unfold payloadBytes initLimit initPayloadCapacity
  split
  · omega
  · omega
  · omega

theorem payloadBytes_le (step len : Nat) : payloadBytes step len ≤ len := by
  unfold payloadBytes
  split
  · omega
  · omega
  · omega

/-- In every run, a call of `read_message` stays inside its buffers exactly when it is not
an `INIT` whose tokens can be read and whose payload is longer than one byte. -/
theorem noise_read_in_bounds (env : Env) (identity : NodeIdentity) (calls : List Call)
    (id : Nat) (kind : NoiseFrame) (before : HandshakeState) (msg : Bytes) (cap : Nat)
    (d : Noise.Read) (h : Effect.noiseRead id kind before msg cap d ∈
      ((Impl.start identity).run env calls).log) :
    (d.payloadOut.length ≤ cap ∧ d.rsOut.length ≤ 32) ↔
      (kind = .init → (before.readTokens env.sodium msg).ok = true →
        msg.length ≤ initLimit before.step) := by
  have ht := (run_tracked (keyed_rule env) identity calls (fun _ _ => True.intro)).told
  obtain ⟨newer,older,_,hd,hcap,_,hkeyed⟩ := ht.mem h
  have hrs : d.rsOut.length ≤ 32 := by
    rw [hd]
    exact hkeyed.rsOut
  have hout := hkeyed.payloadOut (S := env.sodium) msg
  rw [← hd] at hout
  have hkind : kind ≠ .init → d.payloadOut.length ≤ cap := by
    intro hk
    have hall : cap = msg.length := by
      rw [hcap]
      cases kind with
      | init => exact absurd rfl hk
      | resp => rfl
      | fin => rfl
    rw [hall,hout]
    split
    · exact payloadBytes_le _ _
    · exact Nat.zero_le _
  constructor
  · intro hfit hk hok
    rw [hout,hcap,hk,hok] at hfit
    exact (payloadBytes_capacity _ _).mp hfit.1
  · intro hlimit
    refine ⟨?_,hrs⟩
    by_cases hk : kind = .init
    · rw [hout,hcap,hk]
      split
      · rename_i hok
        exact (payloadBytes_capacity _ _).mpr (hlimit hk hok)
      · exact Nat.zero_le _
    · exact hkind hk

/-- The first frame of an undisturbed exchange has no payload and fits. -/
theorem noise_read_in_bounds_exchange :
    ∃ before msg cap d, Effect.noiseRead 1 .init before msg cap d ∈
        ((Impl.start NodeIdentity.bob).run (Env.sample false) bobAnswers).log ∧
      d.payloadOut.length ≤ cap ∧ d.rsOut.length ≤ 32 := by
  have hany : ((Impl.start NodeIdentity.bob).run (Env.sample false) bobAnswers).log.any (fun e =>
      match e with
      | .noiseRead id .init before msg _ _ =>
        id == 1 && decide (msg.length ≤ initLimit before.step)
      | _ => false) = true := by decide +kernel
  obtain ⟨e,he,hp⟩ := List.any_eq_true.mp hany
  split at hp
  · rename_i id before msg cap d
    simp only [Bool.and_eq_true,beq_iff_eq,decide_eq_true_eq] at hp
    obtain ⟨rfl,hlen⟩ := hp
    exact ⟨before,msg,cap,d,he,(noise_read_in_bounds _ _ _ _ _ _ _ _ _ he).mpr
      (fun _ _ => hlen)⟩
  · cases hp

/-- An `INIT` frame of 34 bytes: two of them are stored in `payload_out[1]`. -/
theorem noise_init_overflows :
    ∃ before msg cap d, Effect.noiseRead 1 .init before msg cap d ∈
        ((Impl.start NodeIdentity.bob).run (Env.sample false)
          [.tcp,.event (.connected (Endpoint.sample "a" 0)),
            .frame 1 msgTypeNoiseInit 0 ((sampleKey 9).bytes ++ [1,2])]).log ∧
      msg.length = 34 ∧ cap = 1 ∧ d.payloadOut.length = 2 ∧
      ¬(d.payloadOut.length ≤ cap ∧ d.rsOut.length ≤ 32) := by
  have hany : ((Impl.start NodeIdentity.bob).run (Env.sample false)
      [.tcp,.event (.connected (Endpoint.sample "a" 0)),
        .frame 1 msgTypeNoiseInit 0 ((sampleKey 9).bytes ++ [1,2])]).log.any (fun e =>
      match e with
      | .noiseRead id .init _ msg cap d =>
        id == 1 && msg.length == 34 && cap == 1 && d.payloadOut.length == 2
      | _ => false) = true := by decide +kernel
  obtain ⟨e,he,hp⟩ := List.any_eq_true.mp hany
  split at hp
  · rename_i id before msg cap d
    simp only [Bool.and_eq_true,beq_iff_eq] at hp
    obtain ⟨⟨⟨rfl,hlen⟩,rfl⟩,hout⟩ := hp
    exact ⟨before,msg,1,d,he,hlen,rfl,hout,by omega⟩
  · cases hp

end GoodNet
