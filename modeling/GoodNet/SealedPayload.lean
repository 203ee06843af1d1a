import GoodNet.RelayedWindow
set_option autoImplicit false

/-! What `decrypt` makes of a payload that `encrypt` has compressed and sealed. -/

namespace GoodNet
open Codec

/-- `ZSTD_decompress` undoes `ZSTD_compress` in a buffer that is large enough, and fails in
one that is not. -/
def Zstd.Restores (Z : Zstd) : Prop :=
  ∀ level plain out, Z.compress level plain = some out → ∀ n,
    Z.decompress n out = if plain.length ≤ n then some plain else none

/-- A payload that comes out of `encrypt` and `decrypt` again: not empty, which `decrypt`
uses for its errors; within its allocation limit if it gets compressed; and short enough for
the 32-bit length field otherwise, with flag byte and tag. -/
def Survives (Z : Zstd) (c : Compression) (plain : Bytes) : Prop :=
  plain ≠ [] ∧
    match compressed Z c plain with
    | some _ => plain.length ≤ maxOrigSize
    | none => plain.length+1+macLen < 2^32

theorem compressed_some {Z : Zstd} {c : Compression} {plain out : Bytes}
    (h : compressed Z c plain = some out) :
    Z.compress c.level plain = some out ∧ out.length < plain.length := by
  unfold compressed at h
  split at h
  · split at h
    · cases h
    · rename_i out' hout
      split at h
      · rename_i hlen
        cases h
        exact ⟨hout,hlen⟩
      · cases h
  · cases h

/-- What `decrypt` makes of the body that `encrypt` seals. -/
theorem openBody_sessionBody {Z : Zstd} (hZ : Z.Restores) (c : Compression) (plain : Bytes) :
    openBody Z (sessionBody Z c plain) =
      match compressed Z c plain with
      | some _ => if plain.length ≤ maxOrigSize then plain else []
      | none => plain := by
  unfold sessionBody
  cases hc : compressed Z c plain with
  | none => rfl
  | some out =>
    obtain ⟨hout,hlen⟩ := compressed_some hc
    have hsize : leNat (leBytes 4 plain.length) = plain.length % 2^32 := leNat_leBytes 4 _
    have hflag : ¬ flagZstd = flagRaw := by decide
    have hlong : ¬ (leBytes 4 plain.length ++ out).length < 4 := by
      rw [List.length_append,leBytes_length]
      omega
    have htake : (leBytes 4 plain.length ++ out).take 4 = leBytes 4 plain.length :=
      List.take_left' (leBytes_length 4 _)
    have hdrop : (leBytes 4 plain.length ++ out).drop 4 = out :=
      List.drop_left' (leBytes_length 4 _)
    simp only [openBody,hflag,ite_false,ite_true,hlong,htake,hdrop,hsize]
    by_cases hfits : plain.length ≤ maxOrigSize
    · have hsmall : plain.length % 2^32 = plain.length := by
        unfold maxOrigSize at hfits
        exact Nat.mod_eq_of_lt (by omega)
      rw [hsmall,if_pos hfits,if_neg (by omega),hZ _ _ _ hout,if_pos (Nat.le_refl _)]
      rfl
    · rw [if_neg hfits]
      split
      · rfl
      · rename_i hmod
        rw [hZ _ _ _ hout,if_neg (by omega)]
        rfl

section
variable {S : Sodium} {Z : Zstd} {c : Compression} {plain : Bytes}

theorem NoiseSession.encrypt_opens (hS : S.Seals) (s : NoiseSession) (plain : Bytes)
    (nonce : UInt64) (c : Compression) :
    S.aeadDecrypt s.sendKey (nonce12 nonce) [] (s.encrypt S Z plain nonce c) =
        some (sessionBody Z c plain) ∧
      (s.encrypt S Z plain nonce c).length = (sessionBody Z c plain).length+macLen := by
  obtain ⟨w,hw,hopen⟩ := hS s.sendKey (nonce12 nonce) [] (sessionBody Z c plain)
  have hwire : s.encrypt S Z plain nonce c = w := by
    unfold encrypt
    rw [hw]
    rfl
  rw [hwire]
  exact ⟨hopen,(S.aeadDecrypt_length _ _ _ _ _ hopen).symm⟩

/-- A sealed payload at the other end, under the matching key: the window decides. -/
theorem NoiseSession.decrypt_encrypt (hS : S.Seals) {s peer : NoiseSession}
    (hk : s.sendKey = peer.recvKey) (plain : Bytes) (nonce : UInt64) (c : Compression) :
    (peer.decrypt S Z (s.encrypt S Z plain nonce c) nonce).2 =
        (if (peer.recvWindow.accept nonce).2 then openBody Z (sessionBody Z c plain) else []) ∧
      (peer.decrypt S Z (s.encrypt S Z plain nonce c) nonce).1 = peer.afterOwn nonce := by
  obtain ⟨hopen,hlen⟩ := s.encrypt_opens (Z := Z) hS plain nonce c
  have hlong : ¬ (s.encrypt S Z plain nonce c).length < macLen := by omega
  rw [hk] at hopen
  constructor
  · have hauth : peer.authenticates S (s.encrypt S Z plain nonce c) nonce =
        some (sessionBody Z c plain) := by
      unfold authenticates
      rw [if_neg hlong]
      exact hopen
    exact decrypt_out hauth
  · rw [decrypt_session]
    unfold windowAfter afterOwn
    rw [if_neg hlong]

theorem Survives.length (hp : Survives Z c plain) :
    (sessionBody Z c plain).length+macLen < 2^32 := by
  obtain ⟨_,hfits⟩ := hp
  unfold sessionBody
  cases hc : compressed Z c plain with
  | none =>
    rw [hc] at hfits
    simpa using hfits
  | some out =>
    obtain ⟨_,hlen⟩ := compressed_some hc
    rw [hc] at hfits
    simp only [maxOrigSize] at hfits
    simp only [List.length_cons,List.length_append,leBytes_length,macLen]
    omega

/-- In a frame whose length fits, the payload survives or nothing is left of it. -/
theorem openBody_cases (hZ : Z.Restores) (hlen : (sessionBody Z c plain).length+macLen < 2^32) :
    (Survives Z c plain ∧ openBody Z (sessionBody Z c plain) = plain) ∨
      (¬ Survives Z c plain ∧ openBody Z (sessionBody Z c plain) = []) := by
  have hopen := openBody_sessionBody hZ c plain
  by_cases hne : plain = []
  · right
    refine ⟨fun h => h.1 hne,?_⟩
    rw [hopen,hne]
    cases compressed Z c [] <;> simp
  · unfold Survives
    rw [hopen]
    cases hc : compressed Z c plain with
    | none =>
      left
      unfold sessionBody at hlen
      rw [hc] at hlen
      exact ⟨⟨hne,by simpa using hlen⟩,rfl⟩
    | some out =>
      by_cases hfits : plain.length ≤ maxOrigSize
      · exact Or.inl ⟨⟨hne,hfits⟩,if_pos hfits⟩
      · exact Or.inr ⟨fun h => hfits h.2,if_neg hfits⟩

end

end GoodNet
