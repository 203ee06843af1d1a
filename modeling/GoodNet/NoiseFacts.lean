import GoodNet.NoiseHandshake
import Mathlib.Tactic.Common
set_option autoImplicit false

/-! What one call of `read_message` or `write_message` does to the step counter, the keys
and the caller's buffers, in every state. -/

namespace GoodNet.Noise
open Codec

section
variable {S : Sodium}

theorem CipherState.decrypt_out_length (c : CipherState) (ad cipher : Bytes) :
    (c.decrypt S ad cipher).out.length =
      if c.hasKey then cipher.length-macLen else cipher.length := by
  unfold decrypt
  cases hk : c.hasKey with
  | false => simp
  | true =>
    by_cases hs : cipher.length < macLen
    · simp only [Bool.not_true,Bool.false_eq_true,ite_false,hs,ite_true,List.length_nil]
      omega
    · cases hd : S.aeadDecrypt c.key (nonce12 c.nonce) ad cipher with
      | none => simp [hs]
      | some out =>
        have hl := S.aeadDecrypt_length _ _ _ _ _ hd
        simp only [Bool.not_true,Bool.false_eq_true,ite_false,hs,ite_true]
        omega

theorem CipherState.decrypt_hasKey (c : CipherState) (ad cipher : Bytes) :
    (c.decrypt S ad cipher).state.hasKey = c.hasKey := by
  unfold decrypt
  cases hk : c.hasKey with
  | false => simp [hk]
  | true =>
    by_cases hs : cipher.length < macLen
    · simp [hs,hk]
    · cases hd : S.aeadDecrypt c.key (nonce12 c.nonce) ad cipher with
      | none => simp [hs,hk]
      | some out => simp [hs]

theorem SymmetricState.decryptAndHash_out_length (s : SymmetricState) (cipher : Bytes) :
    (s.decryptAndHash S cipher).out.length =
      if s.cipher.hasKey then cipher.length-macLen else cipher.length := by
  rw [← CipherState.decrypt_out_length (S := S) s.cipher s.h.bytes cipher]
  unfold decryptAndHash
  dsimp only
  split
  · rfl
  · rfl

theorem SymmetricState.decryptAndHash_hasKey (s : SymmetricState) (cipher : Bytes) :
    (s.decryptAndHash S cipher).state.cipher.hasKey = s.cipher.hasKey := by
  unfold decryptAndHash
  dsimp only
  split
  · exact CipherState.decrypt_hasKey s.cipher s.h.bytes cipher
  · rfl

theorem SymmetricState.decryptAndHash_ck (s : SymmetricState) (cipher : Bytes) :
    (s.decryptAndHash S cipher).state.ck = s.ck := by
  unfold decryptAndHash
  dsimp only
  split
  · rfl
  · rfl

theorem SymmetricState.encryptAndHash_ck {s s' : SymmetricState} {plain out : Bytes}
    (h : s.encryptAndHash S plain = some (s',out)) :
    s'.ck = s.ck ∧ s'.cipher.hasKey = s.cipher.hasKey := by
  unfold encryptAndHash CipherState.encrypt at h
  cases hk : s.cipher.hasKey with
  | false =>
    simp only [hk,Bool.not_false,ite_true,Option.some.injEq,Prod.mk.injEq] at h
    obtain ⟨rfl,_⟩ := h
    exact ⟨rfl,hk⟩
  | true =>
    simp only [hk,Bool.not_true,Bool.false_eq_true,ite_false] at h
    cases he : S.aeadEncrypt s.cipher.key (nonce12 s.cipher.nonce) s.h.bytes plain with
    | none => simp [he] at h
    | some c =>
      simp only [he,Option.some.injEq,Prod.mk.injEq] at h
      obtain ⟨rfl,_⟩ := h
      exact ⟨rfl,rfl⟩

/-- Long-term keys, own ephemeral and role: what reading never changes. -/
structure HandshakeState.SameParty (a b : HandshakeState) : Prop where
  sPk : b.sPk = a.sPk
  sSk : b.sSk = a.sSk
  ePk : b.ePk = a.ePk
  eSk : b.eSk = a.eSk
  initiator : b.initiator = a.initiator

theorem HandshakeState.SameParty.refl (a : HandshakeState) : a.SameParty a :=
  ⟨rfl,rfl,rfl,rfl,rfl⟩

theorem HandshakeState.SameParty.trans {a b c : HandshakeState} (h : a.SameParty b)
    (h' : b.SameParty c) : a.SameParty c :=
  ⟨h'.sPk.trans h.sPk,h'.sSk.trans h.sSk,h'.ePk.trans h.ePk,h'.eSk.trans h.eSk,
    h'.initiator.trans h.initiator⟩

theorem HandshakeState.mixKey_same (hs : HandshakeState) (k : Key) :
    hs.SameParty (hs.mixKey S k) := ⟨rfl,rfl,rfl,rfl,rfl⟩

theorem HandshakeState.readEphemeral_same (hs : HandshakeState) (msg : Bytes) :
    hs.SameParty (hs.readEphemeral S msg) := ⟨rfl,rfl,rfl,rfl,rfl⟩

theorem HandshakeState.readStatic_same (hs : HandshakeState) (cipher : Bytes) :
    hs.SameParty (hs.readStatic S cipher).state := ⟨rfl,rfl,rfl,rfl,rfl⟩

theorem HandshakeState.readPayload_same (hs : HandshakeState) (rsOut cipher : Bytes) :
    hs.SameParty (hs.readPayload S rsOut cipher).state := by
  unfold readPayload
  dsimp only
  split
  · exact ⟨rfl,rfl,rfl,rfl,rfl⟩
  · exact SameParty.refl hs

/-- The counter moves by one on success and not at all on failure. -/
def Counts (ok : Bool) (before after : Nat) : Prop := after = if ok then before+1 else before

theorem HandshakeState.readPayload_counts (hs : HandshakeState) (rsOut cipher : Bytes) :
    Counts (hs.readPayload S rsOut cipher).ok hs.step (hs.readPayload S rsOut cipher).state.step := by
  unfold readPayload Counts
  dsimp only
  split
  · simp
  · simp

theorem HandshakeState.readTokens_same (hs : HandshakeState) (msg : Bytes) :
    hs.SameParty (hs.readTokens S msg).state ∧ (hs.readTokens S msg).state.step = hs.step := by
  have he := hs.readEphemeral_same (S := S) msg
  unfold readTokens
  split
  · split
    · exact ⟨SameParty.refl hs,rfl⟩
    · exact ⟨he,rfl⟩
  · split
    · exact ⟨SameParty.refl hs,rfl⟩
    · dsimp only
      split
      · exact ⟨he,rfl⟩
      · rename_i ee _
        have hk := he.trans (mixKey_same (S := S) _ ee)
        split
        · exact ⟨hk,rfl⟩
        · have hst := hk.trans (readStatic_same (S := S) _ ((msg.drop dhLen).take sEncLen))
          split
          · exact ⟨hst,rfl⟩
          · split
            · exact ⟨hst,rfl⟩
            · rename_i es _
              exact ⟨hst.trans (mixKey_same _ es),rfl⟩
  · split
    · exact ⟨SameParty.refl hs,rfl⟩
    · dsimp only
      have hst := hs.readStatic_same (S := S) (msg.take sEncLen)
      split
      · exact ⟨hst,rfl⟩
      · split
        · exact ⟨hst,rfl⟩
        · rename_i se _
          exact ⟨hst.trans (mixKey_same _ se),rfl⟩
  · exact ⟨SameParty.refl hs,rfl⟩

theorem HandshakeState.readMessage_same (hs : HandshakeState) (msg : Bytes) :
    hs.SameParty (hs.readMessage S msg).state := by
  have ht := (hs.readTokens_same (S := S) msg).1
  unfold readMessage
  dsimp only
  split
  · exact ht.trans (readPayload_same _ _ _)
  · exact ht

theorem HandshakeState.readMessage_counts (hs : HandshakeState) (msg : Bytes) :
    Counts (hs.readMessage S msg).ok hs.step (hs.readMessage S msg).state.step := by
  have ht := (hs.readTokens_same (S := S) msg).2
  unfold readMessage
  dsimp only
  split
  · rw [← ht]
    exact readPayload_counts _ _ _
  · exact ht

theorem HandshakeState.readTokens_ok_step {hs : HandshakeState} {msg : Bytes}
    (h : (hs.readTokens S msg).ok = true) : hs.step ≤ 2 := by
  by_contra hc
  obtain ⟨n,hn⟩ : ∃ n, hs.step = n+3 := ⟨hs.step-3,by omega⟩
  simp [readTokens,hn] at h

theorem HandshakeState.readMessage_ok_tokens {hs : HandshakeState} {msg : Bytes}
    (h : (hs.readMessage S msg).ok = true) : (hs.readTokens S msg).ok = true := by
  unfold readMessage at h
  dsimp only at h
  split at h
  · rename_i ht
    exact ht
  · cases h

theorem HandshakeState.readMessage_of_tokens {hs : HandshakeState} {msg : Bytes}
    (h : (hs.readTokens S msg).ok = true) : hs.readMessage S msg =
      (hs.readTokens S msg).state.readPayload S (hs.readTokens S msg).rsOut
        (hs.readTokens S msg).rest := by
  simp [readMessage,h]

theorem HandshakeState.readMessage_no_tokens {hs : HandshakeState} {msg : Bytes}
    (h : (hs.readTokens S msg).ok = false) : hs.readMessage S msg =
      ⟨false,(hs.readTokens S msg).state,[],(hs.readTokens S msg).rsOut⟩ := by
  simp [readMessage,h]

theorem HandshakeState.readMessage_ok_step {hs : HandshakeState} {msg : Bytes}
    (h : (hs.readMessage S msg).ok = true) :
    hs.step ≤ 2 ∧ (hs.readMessage S msg).state.step = hs.step+1 := by
  have hc := hs.readMessage_counts (S := S) msg
  rw [h] at hc
  exact ⟨readTokens_ok_step (readMessage_ok_tokens h),hc⟩

theorem HandshakeState.readPayload_ck (hs : HandshakeState) (rsOut cipher : Bytes) :
    (hs.readPayload S rsOut cipher).state.symmetric.ck = hs.symmetric.ck ∧
      (hs.readPayload S rsOut cipher).state.rs = hs.rs := by
  unfold readPayload
  dsimp only
  split
  · exact ⟨SymmetricState.decryptAndHash_ck _ _,rfl⟩
  · exact ⟨rfl,rfl⟩

/-- Inversion at step 2: the tokens `s, se` were both read. -/
theorem HandshakeState.readTokens_two {hs : HandshakeState} {msg : Bytes} (h2 : hs.step = 2)
    (h : (hs.readTokens S msg).ok = true) :
    ∃ se, (hs.readStatic S (msg.take sEncLen)).state.dhSe S = some se ∧ sEncLen ≤ msg.length ∧
      hs.readTokens S msg =
        { ok := true, state := (hs.readStatic S (msg.take sEncLen)).state.mixKey S se,
          rsOut := (hs.readStatic S (msg.take sEncLen)).out, rest := msg.drop sEncLen } := by
  by_cases hl : msg.length < sEncLen
  · simp [readTokens,h2,hl] at h
  · cases hd : (hs.readStatic S (msg.take sEncLen)).ok with
    | false => simp [readTokens,h2,hl,hd] at h
    | true =>
      cases hse : (hs.readStatic S (msg.take sEncLen)).state.dhSe S with
      | none => simp [readTokens,h2,hl,hd,hse] at h
      | some se => exact ⟨se,rfl,by omega,by simp [readTokens,h2,hl,hd,hse]⟩

/-- Inversion at step 1: the tokens `e, ee, s, es` were all read. -/
theorem HandshakeState.readTokens_one {hs : HandshakeState} {msg : Bytes} (h1 : hs.step = 1)
    (h : (hs.readTokens S msg).ok = true) :
    let e := hs.readEphemeral S msg
    ∃ ee es, S.scalarmult hs.eSk e.re = some ee ∧
      let d := (e.mixKey S ee).readStatic S ((msg.drop dhLen).take sEncLen)
      d.state.dhEs S = some es ∧ dhLen+sEncLen ≤ msg.length ∧
      hs.readTokens S msg =
        { ok := true, state := d.state.mixKey S es, rsOut := d.out,
          rest := msg.drop (dhLen+sEncLen) } := by
  by_cases hl : msg.length < dhLen
  · simp [readTokens,h1,hl] at h
  · have hsk : (hs.readEphemeral S msg).eSk = hs.eSk := rfl
    cases hee : S.scalarmult hs.eSk (hs.readEphemeral S msg).re with
    | none => simp [readTokens,h1,hl,hsk,hee] at h
    | some ee =>
      by_cases hl2 : msg.length < dhLen+sEncLen
      · simp [readTokens,h1,hl,hsk,hee,hl2] at h
      · cases hd : (((hs.readEphemeral S msg).mixKey S ee).readStatic S
            ((msg.drop dhLen).take sEncLen)).ok with
        | false => simp [readTokens,h1,hl,hsk,hee,hl2,hd] at h
        | true =>
          cases hes : (((hs.readEphemeral S msg).mixKey S ee).readStatic S
              ((msg.drop dhLen).take sEncLen)).state.dhEs S with
          | none => simp [readTokens,h1,hl,hsk,hee,hl2,hd,hes] at h
          | some es =>
            exact ⟨ee,es,hee,hes,by omega,by simp [readTokens,h1,hl,hsk,hee,hl2,hd,hes]⟩

/-- A message taken at step 2 has mixed the `se` secret into the chaining key. -/
theorem HandshakeState.readMessage_se {hs : HandshakeState} {msg : Bytes} (h2 : hs.step = 2)
    (hi : hs.initiator = false) (h : (hs.readMessage S msg).ok = true) :
    ∃ se ck, S.scalarmult hs.eSk (hs.readMessage S msg).state.rs = some se ∧
      (hs.readMessage S msg).state.symmetric.ck = (hkdf2 S ck se.bytes).1 := by
  have ht := readMessage_ok_tokens h
  rw [readMessage_of_tokens ht]
  obtain ⟨hck,hrs⟩ := (hs.readTokens S msg).state.readPayload_ck (S := S)
    (hs.readTokens S msg).rsOut (hs.readTokens S msg).rest
  rw [hck,hrs]
  obtain ⟨se,hse,_,htok⟩ := readTokens_two h2 ht
  rw [htok]
  have hparty := hs.readStatic_same (S := S) (msg.take sEncLen)
  unfold dhSe at hse
  rw [hparty.initiator,hi,hparty.eSk] at hse
  exact ⟨se,_,hse,rfl⟩

/-- A message taken by the initiator at step 1 has mixed in its ephemeral with the
responder's static key. -/
theorem HandshakeState.readMessage_es {hs : HandshakeState} {msg : Bytes} (h1 : hs.step = 1)
    (hi : hs.initiator = true) (h : (hs.readMessage S msg).ok = true) :
    ∃ es ck, S.scalarmult hs.eSk (hs.readMessage S msg).state.rs = some es ∧
      (hs.readMessage S msg).state.symmetric.ck = (hkdf2 S ck es.bytes).1 := by
  have ht := readMessage_ok_tokens h
  rw [readMessage_of_tokens ht]
  obtain ⟨hck,hrs⟩ := (hs.readTokens S msg).state.readPayload_ck (S := S)
    (hs.readTokens S msg).rsOut (hs.readTokens S msg).rest
  rw [hck,hrs]
  obtain ⟨ee,es,_,hes,_,htok⟩ := readTokens_one h1 ht
  rw [htok]
  have hparty := ((hs.readEphemeral_same (S := S) msg).trans (mixKey_same (S := S) _ ee)).trans
    (readStatic_same (S := S) _ ((msg.drop dhLen).take sEncLen))
  unfold dhEs at hes
  rw [hparty.initiator,hi,hparty.eSk] at hes
  exact ⟨es,_,hes,rfl⟩

/-- What writing keeps: long-term keys, the remote keys and the role. A fresh ephemeral
is drawn at the first two steps, whether or not the message is completed. -/
structure HandshakeState.Wrote (secret : Key) (a b : HandshakeState) : Prop where
  sPk : b.sPk = a.sPk
  sSk : b.sSk = a.sSk
  rs : b.rs = a.rs
  re : b.re = a.re
  initiator : b.initiator = a.initiator
  eSk : b.eSk = if a.step ≤ 1 then secret else a.eSk

theorem HandshakeState.writePayload_keeps (hs : HandshakeState) (sent payload : Bytes) :
    let b := (hs.writePayload S sent payload).state
    b.sPk = hs.sPk ∧ b.sSk = hs.sSk ∧ b.rs = hs.rs ∧ b.re = hs.re ∧ b.eSk = hs.eSk ∧
      b.initiator = hs.initiator ∧ b.symmetric.ck = hs.symmetric.ck ∧
      Counts (hs.writePayload S sent payload).ok hs.step b.step := by
  unfold writePayload Counts
  cases h : hs.symmetric.encryptAndHash S payload with
  | none => exact ⟨rfl,rfl,rfl,rfl,rfl,rfl,rfl,rfl⟩
  | some p =>
    obtain ⟨sym,c⟩ := p
    exact ⟨rfl,rfl,rfl,rfl,rfl,rfl,(SymmetricState.encryptAndHash_ck h).1,rfl⟩

theorem HandshakeState.writeMessage_wrote (hs : HandshakeState) (secret : Key) (payload : Bytes) :
    HandshakeState.Wrote secret hs (hs.writeMessage S secret payload).state ∧
      Counts (hs.writeMessage S secret payload).ok hs.step
        (hs.writeMessage S secret payload).state.step := by
  unfold writeMessage
  split
  · rename_i h0
    obtain ⟨k1,k2,k3,k4,k5,k6,_,k8⟩ := writePayload_keeps (S := S)
      ((hs.generateKeypair S secret).mixHash S (hs.generateKeypair S secret).ePk.bytes)
      (hs.generateKeypair S secret).ePk.bytes payload
    refine ⟨⟨k1,k2,k3,k4,k6,?_⟩,k8⟩
    rw [h0,if_pos (by decide)]
    exact k5
  · rename_i h1
    have hfresh : ∀ b : HandshakeState, b.eSk = secret →
        b.eSk = if hs.step ≤ 1 then secret else hs.eSk := by
      intro b hb
      rw [h1,if_pos (by decide),hb]
    dsimp only
    split
    · exact ⟨⟨rfl,rfl,rfl,rfl,rfl,hfresh _ rfl⟩,rfl⟩
    · split
      · exact ⟨⟨rfl,rfl,rfl,rfl,rfl,hfresh _ rfl⟩,rfl⟩
      · split
        · exact ⟨⟨rfl,rfl,rfl,rfl,rfl,hfresh _ rfl⟩,rfl⟩
        · obtain ⟨k1,k2,k3,k4,k5,k6,_,k8⟩ := writePayload_keeps (S := S) _ _ payload
          exact ⟨⟨k1,k2,k3,k4,k6,hfresh _ k5⟩,k8⟩
  · rename_i h2
    have hold : ∀ b : HandshakeState, b.eSk = hs.eSk →
        b.eSk = if hs.step ≤ 1 then secret else hs.eSk := by
      intro b hb
      rw [h2,if_neg (by decide),hb]
    split
    · exact ⟨⟨rfl,rfl,rfl,rfl,rfl,hold _ rfl⟩,rfl⟩
    · dsimp only
      split
      · exact ⟨⟨rfl,rfl,rfl,rfl,rfl,hold _ rfl⟩,rfl⟩
      · obtain ⟨k1,k2,k3,k4,k5,k6,_,k8⟩ := writePayload_keeps (S := S) _ _ payload
        exact ⟨⟨k1,k2,k3,k4,k6,hold _ k5⟩,k8⟩
  · rename_i hn0 hn1 hn2
    have hbig : ¬ hs.step ≤ 1 := by
      intro hle
      rcases Nat.le_one_iff_eq_zero_or_eq_one.mp hle with h | h
      · exact hn0 h
      · exact hn1 h
    exact ⟨⟨rfl,rfl,rfl,rfl,rfl,by simp [hbig]⟩,rfl⟩

theorem HandshakeState.writeMessage_ok_step {hs : HandshakeState} {secret : Key} {payload : Bytes}
    (h : (hs.writeMessage S secret payload).ok = true) :
    hs.step ≤ 2 ∧ (hs.writeMessage S secret payload).state.step = hs.step+1 := by
  have hc := (hs.writeMessage_wrote (S := S) secret payload).2
  rw [h] at hc
  refine ⟨?_,hc⟩
  by_contra hbig
  obtain ⟨n,hn⟩ : ∃ n, hs.step = n+3 := ⟨hs.step-3,by omega⟩
  simp [writeMessage,hn] at h

theorem HandshakeState.writeMessage_two {hs : HandshakeState} (secret : Key) (payload : Bytes)
    (h2 : hs.step = 2) : hs.writeMessage S secret payload =
      match hs.symmetric.encryptAndHash S hs.sPk.bytes with
      | none => ⟨false,hs,[]⟩
      | some (sym,s) =>
        match ({ hs with symmetric := sym } : HandshakeState).dhSe S with
        | none => ⟨false,{ hs with symmetric := sym },[]⟩
        | some se =>
          (({ hs with symmetric := sym } : HandshakeState).mixKey S se).writePayload S s payload := by
  unfold writeMessage
  split
  · omega
  · omega
  · rfl
  · rename_i h
    exact absurd h2 h

/-- The third message mixes in the sender's static key with the remote ephemeral. -/
theorem HandshakeState.writeMessage_se {hs : HandshakeState} {secret : Key} {payload : Bytes}
    (h2 : hs.step = 2) (hi : hs.initiator = true)
    (h : (hs.writeMessage S secret payload).ok = true) :
    ∃ se, S.scalarmult hs.sSk hs.re = some se ∧
      (hs.writeMessage S secret payload).state.symmetric.ck =
        (hkdf2 S hs.symmetric.ck se.bytes).1 := by
  rw [writeMessage_two secret payload h2] at h ⊢
  cases hs1 : hs.symmetric.encryptAndHash S hs.sPk.bytes with
  | none => simp [hs1] at h
  | some p =>
    obtain ⟨sym,s⟩ := p
    have hck := (SymmetricState.encryptAndHash_ck hs1).1
    have hdh : ({ hs with symmetric := sym } : HandshakeState).dhSe S =
        S.scalarmult hs.sSk hs.re := by
      unfold dhSe
      rw [if_pos hi]
    simp only [hs1,hdh] at h ⊢
    cases hse : S.scalarmult hs.sSk hs.re with
    | none => simp [hse] at h
    | some se =>
      obtain ⟨_,_,_,_,_,_,k7,_⟩ := writePayload_keeps (S := S)
        (({ hs with symmetric := sym } : HandshakeState).mixKey S se) s payload
      refine ⟨se,rfl,?_⟩
      dsimp only
      rw [k7,← hck]
      rfl

/-- The first message has nothing that could fail. -/
theorem HandshakeState.writeMessage_first {hs : HandshakeState} (secret : Key) (payload : Bytes)
    (h0 : hs.step = 0) (hk : hs.symmetric.cipher.hasKey = false) :
    (hs.writeMessage S secret payload).ok = true := by
  simp [writeMessage,h0,writePayload,SymmetricState.encryptAndHash,CipherState.encrypt,mixHash,
    generateKeypair,SymmetricState.mixHash,hk]

end

end GoodNet.Noise
