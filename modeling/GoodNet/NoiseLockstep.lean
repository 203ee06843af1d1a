import GoodNet.NoiseFacts
set_option autoImplicit false

/-! Two symmetric states in lockstep: what one seals the other opens, and both are equal again,
with a key and without; a ciphertext that does not open changes nothing. -/

namespace GoodNet

/-- Decryption after encryption: whatever the AEAD seals it opens again. -/
def Sodium.OpensSealed (S : Sodium) : Prop :=
  ∀ k n ad m c, S.aeadEncrypt k n ad m = some c → S.aeadDecrypt k n ad c = some m

theorem Sodium.Seals.opensSealed {S : Sodium} (h : S.Seals) : S.OpensSealed := by
  intro k n ad m c hc
  obtain ⟨c',hseal,hopen⟩ := h k n ad m
  rw [Option.some.inj (hc.symm.trans hseal)]
  exact hopen

end GoodNet

namespace GoodNet.Noise
open Codec

variable {S : Sodium}

/-- `decrypt_and_hash` on one object: the cipher state is what `cipher.decrypt` leaves there,
whether or not it succeeds. -/
def SymmetricState.decryptAndHashInPlace (S : Sodium) (s : SymmetricState) (ciphertext : Bytes) :
    Opened SymmetricState :=
  let d := s.cipher.decrypt S s.h.bytes ciphertext
  let s := { s with cipher := d.state }
  if !d.ok then ⟨false,s,d.out⟩ else ⟨true,s.mixHash S ciphertext,d.out⟩

theorem CipherState.decrypt_failed {c : CipherState} {ad cipher : Bytes}
    (h : (c.decrypt S ad cipher).ok = false) : (c.decrypt S ad cipher).state = c := by
  unfold decrypt at h ⊢
  split at h
  · cases h
  · rename_i hk
    rw [if_neg hk]
    split at h
    · rename_i hshort
      rw [if_pos hshort]
    · rename_i hlong
      rw [if_neg hlong]
      cases hopen : S.aeadDecrypt c.key (nonce12 c.nonce) ad cipher with
      | none => rfl
      | some out =>
        rw [hopen] at h
        cases h

theorem SymmetricState.decryptAndHash_inPlace (s : SymmetricState) (cipher : Bytes) :
    s.decryptAndHashInPlace S cipher = s.decryptAndHash S cipher := by
  unfold decryptAndHashInPlace decryptAndHash
  cases hok : (s.cipher.decrypt S s.h.bytes cipher).ok with
  | true => simp [hok]
  | false => simp [hok,CipherState.decrypt_failed hok]

/-- What the one cipher state seals the other opens; the counters move together. -/
theorem CipherState.decrypt_encrypt (hopen : S.OpensSealed) {c c' : CipherState}
    {ad plain out : Bytes} (h : c.encrypt S ad plain = some (c',out)) :
    c.decrypt S ad out = ⟨true,c',plain⟩ := by
  unfold encrypt at h
  cases hk : c.hasKey with
  | false =>
    rw [hk] at h
    obtain ⟨rfl,rfl⟩ := Prod.mk.inj (Option.some.inj h)
    simp [decrypt,hk]
  | true =>
    rw [hk] at h
    cases hseal : S.aeadEncrypt c.key (nonce12 c.nonce) ad plain with
    | none => simp [hseal] at h
    | some sealed =>
      simp only [hseal,Bool.not_true,Bool.false_eq_true,if_false] at h
      obtain ⟨rfl,rfl⟩ := Prod.mk.inj (Option.some.inj h)
      have hplain := hopen _ _ _ _ _ hseal
      -- the tag makes every sealed text long enough to be looked at
      have hlong : ¬ sealed.length < macLen := by
        have := S.aeadDecrypt_length _ _ _ _ _ hplain
        omega
      simp [decrypt,hk,hlong,hplain]

theorem SymmetricState.decryptAndHash_encryptAndHash (hopen : S.OpensSealed)
    {s s' : SymmetricState} {plain out : Bytes} (h : s.encryptAndHash S plain = some (s',out)) :
    s.decryptAndHash S out = ⟨true,s',plain⟩ := by
  unfold encryptAndHash at h
  cases henc : s.cipher.encrypt S s.h.bytes plain with
  | none => simp [henc] at h
  | some sealed =>
    obtain ⟨c,o⟩ := sealed
    rw [henc] at h
    obtain ⟨rfl,rfl⟩ := Prod.mk.inj (Option.some.inj h)
    unfold decryptAndHash
    rw [CipherState.decrypt_encrypt hopen henc]
    rfl

/-- Only the AEAD can refuse to seal. -/
theorem SymmetricState.encryptAndHash_none_iff (s : SymmetricState) (plain : Bytes) :
    s.encryptAndHash S plain = none ↔ s.cipher.hasKey = true ∧
      S.aeadEncrypt s.cipher.key (nonce12 s.cipher.nonce) s.h.bytes plain = none := by
  unfold encryptAndHash CipherState.encrypt
  cases hk : s.cipher.hasKey with
  | false => simp
  | true => cases S.aeadEncrypt s.cipher.key (nonce12 s.cipher.nonce) s.h.bytes plain <;> simp

theorem SymmetricState.decryptAndHash_failed {s : SymmetricState} {cipher : Bytes}
    (h : (s.decryptAndHash S cipher).ok = false) : (s.decryptAndHash S cipher).state = s := by
  unfold decryptAndHash at h ⊢
  cases hok : (s.cipher.decrypt S s.h.bytes cipher).ok with
  | true => simp [hok] at h
  | false => simp [hok]

/-- A call that both sides make on their symmetric states; the payload is the plaintext at the
side that sends and the ciphertext at the side that receives. -/
inductive Token where
  | hash (data : Bytes)
  | key (ikm : Key)
  | payload (data : Bytes)
  deriving DecidableEq, Repr

/-- The sending side, with what the other one is given. -/
def SymmetricState.send (S : Sodium) :
    SymmetricState → List Token → Option (SymmetricState × List Token)
  | s, [] => some (s,[])
  | s, .hash data :: ts =>
    (send S (s.mixHash S data) ts).map (fun r => (r.1,.hash data :: r.2))
  | s, .key ikm :: ts => (send S (s.mixKey S ikm) ts).map (fun r => (r.1,.key ikm :: r.2))
  | s, .payload plain :: ts =>
    match s.encryptAndHash S plain with
    | none => none
    | some (s',out) => (send S s' ts).map (fun r => (r.1,.payload out :: r.2))

/-- The receiving side, with what it has read. -/
def SymmetricState.receive (S : Sodium) :
    SymmetricState → List Token → Option (SymmetricState × List Token)
  | s, [] => some (s,[])
  | s, .hash data :: ts =>
    (receive S (s.mixHash S data) ts).map (fun r => (r.1,.hash data :: r.2))
  | s, .key ikm :: ts => (receive S (s.mixKey S ikm) ts).map (fun r => (r.1,.key ikm :: r.2))
  | s, .payload cipher :: ts =>
    let d := s.decryptAndHashInPlace S cipher
    if d.ok then (receive S d.state ts).map (fun r => (r.1,.payload d.out :: r.2)) else none

/-- Equal states stay equal over any sequence of calls, and every payload arrives. -/
theorem SymmetricState.receive_send (hopen : S.OpensSealed) {s s' : SymmetricState}
    {ts sent : List Token} (h : s.send S ts = some (s',sent)) :
    s.receive S sent = some (s',ts) := by
  induction ts generalizing s sent with
  | nil =>
    obtain ⟨rfl,rfl⟩ := Prod.mk.inj (Option.some.inj h)
    rfl
  | cons token ts ih =>
    cases token with
    | hash data =>
      obtain ⟨⟨_,rest⟩,hrest,hr⟩ := Option.map_eq_some_iff.1 h
      obtain ⟨rfl,rfl⟩ := Prod.mk.inj hr
      rw [receive,ih hrest]
      rfl
    | key ikm =>
      obtain ⟨⟨_,rest⟩,hrest,hr⟩ := Option.map_eq_some_iff.1 h
      obtain ⟨rfl,rfl⟩ := Prod.mk.inj hr
      rw [receive,ih hrest]
      rfl
    | payload plain =>
      rw [send] at h
      cases hseal : s.encryptAndHash S plain with
      | none => simp [hseal] at h
      | some sealed =>
        obtain ⟨s₁,out⟩ := sealed
        rw [hseal] at h
        obtain ⟨⟨_,rest⟩,hrest,hr⟩ := Option.map_eq_some_iff.1 h
        obtain ⟨rfl,rfl⟩ := Prod.mk.inj hr
        rw [receive,decryptAndHash_inPlace,decryptAndHash_encryptAndHash hopen hseal]
        dsimp only
        rw [if_pos rfl,ih hrest]
        rfl

/-- From equal states, what the one seals the other opens, and they are equal again; the AEAD
alone can keep a payload from being sealed, and one that does not open changes nothing. -/
theorem SymmetricState.lockstep (hopen : S.OpensSealed) (s t : SymmetricState) (heq : s = t)
    (plain : Bytes) :
    (∀ s' out, s.encryptAndHash S plain = some (s',out) →
      (t.decryptAndHashInPlace S out).ok = true ∧ (t.decryptAndHashInPlace S out).out = plain ∧
        (t.decryptAndHashInPlace S out).state = s') ∧
    (s.encryptAndHash S plain = none ↔ s.cipher.hasKey = true ∧
      S.aeadEncrypt s.cipher.key (nonce12 s.cipher.nonce) s.h.bytes plain = none) ∧
    ∀ cipher, (t.decryptAndHashInPlace S cipher).ok = false →
      (t.decryptAndHashInPlace S cipher).state = t := by
  subst heq
  refine ⟨?_,s.encryptAndHash_none_iff plain,?_⟩
  · intro s' out h
    rw [decryptAndHash_inPlace,decryptAndHash_encryptAndHash hopen h]
    exact ⟨rfl,rfl,rfl⟩
  · intro cipher h
    rw [decryptAndHash_inPlace] at h ⊢
    exact decryptAndHash_failed h

/-- A state with a key, as after the first key agreement. -/
def keyedState : SymmetricState :=
  (SymmetricState.init Sodium.sample protocolName).mixKey Sodium.sample (clamp (Block.zero 32))

theorem keyedState_lockstep :
    keyedState.cipher.hasKey = true ∧
      ∃ s' out, keyedState.encryptAndHash Sodium.sample [1,2,3] = some (s',out) ∧
        (keyedState.decryptAndHashInPlace Sodium.sample out).ok = true ∧
        (keyedState.decryptAndHashInPlace Sodium.sample out).out = [1,2,3] ∧
        (keyedState.decryptAndHashInPlace Sodium.sample out).state = s' := by
  have hopen : Sodium.sample.OpensSealed :=
    Sodium.Seals.opensSealed Sodium.sample_lawful.seal_open
  refine ⟨rfl,_,_,rfl,?_⟩
  exact (SymmetricState.lockstep hopen keyedState keyedState rfl [1,2,3]).1 _ _ rfl

end GoodNet.Noise
