import GoodNet.Lib.ByteCodec
set_option autoImplicit false

/-! The libsodium and zstd entry points the core calls. They are parameters of the
model: only what the manual promises about output sizes is built into the type. -/

namespace GoodNet
open Codec

abbrev Key := Block 32
abbrev Signature := Block 64

def dhLen : Nat := 32
def hashLen : Nat := 32
def macLen : Nat := 16

/-- Four zero bytes and the little-endian counter, for both AEAD users. -/
def nonce12 (n : UInt64) : Block 12 :=
  ⟨List.replicate 4 0 ++ leBytes 8 n.toNat, by simp⟩

structure Sodium where
  /-- `crypto_scalarmult`; `none` is the error return for a point of small order. -/
  scalarmult : Key → Key → Option Key
  scalarmultBase : Key → Key
  /-- `crypto_generichash_blake2b` with a 32-byte output; the empty key is no key. -/
  generichash : Bytes → Bytes → Key
  aeadEncrypt : Key → Block 12 → Bytes → Bytes → Option Bytes
  aeadDecrypt : Key → Block 12 → Bytes → Bytes → Option Bytes
  signDetached : Block 64 → Bytes → Signature
  verifyDetached : Signature → Bytes → Key → Bool
  pkToCurve25519 : Key → Option Key
  skToCurve25519 : Block 64 → Key
  aeadDecrypt_length : ∀ k n ad c m, aeadDecrypt k n ad c = some m → m.length+macLen = c.length

structure Zstd where
  /-- `ZSTD_compress` into a buffer of `ZSTD_compressBound` bytes; `none` is an error code. -/
  compress : Int → Bytes → Option Bytes
  /-- `ZSTD_decompress` into a buffer of the given size. -/
  decompress : Nat → Bytes → Option Bytes

/-- Both sides of a key exchange compute the same secret, or neither does. -/
def Sodium.Commutes (S : Sodium) : Prop :=
  ∀ a b, S.scalarmult a (S.scalarmultBase b) = S.scalarmult b (S.scalarmultBase a)

/-- What was sealed can be opened. -/
def Sodium.Seals (S : Sodium) : Prop :=
  ∀ k n ad m, ∃ c, S.aeadEncrypt k n ad m = some c ∧ S.aeadDecrypt k n ad c = some m

/-- What the manual promises to parties that use the library as intended: both sides of a
key exchange compute the same secret, and what was sealed can be opened. -/
structure Sodium.Lawful (S : Sodium) : Prop where
  dh_agree : ∀ a b, ∃ k, S.scalarmult a (S.scalarmultBase b) = some k ∧
    S.scalarmult b (S.scalarmultBase a) = some k
  seal_open : ∀ k n ad m, ∃ c, S.aeadEncrypt k n ad m = some c ∧ S.aeadDecrypt k n ad c = some m

theorem Sodium.Lawful.commutes {S : Sodium} (L : S.Lawful) : S.Commutes := by
  intro a b
  obtain ⟨k,hab,hba⟩ := L.dh_agree a b
  rw [hab,hba]

/-- Bytewise sum, the group operation of the stand-in below. -/
def addBytes (a b : Key) : Key :=
  ⟨List.zipWith (· + ·) a.bytes b.bytes, by simp⟩

theorem addBytes_comm (a b : Key) : addBytes a b = addBytes b a := by
  apply Block.ext
  exact List.zipWith_comm_of_comm (fun x y => UInt8.add_comm x y)

/-- Secret scalars are clamped before use and so never give the zero point. -/
def clamp (k : Key) : Key := ⟨k.bytes.take 31 ++ [64], by simp⟩

theorem clamp_ne_zero (k : Key) : clamp k ≠ Block.zero 32 := by
  intro h
  have hlast := congrArg (fun b : Key => b.bytes.getLast?) h
  simp [clamp,Block.zero] at hlast

def sampleTag (k : Key) (n : Block 12) : Bytes := k.bytes.take 8 ++ n.bytes.drop 4

def sampleOpen (k : Key) (n : Block 12) (c : Bytes) : Option Bytes :=
  if macLen ≤ c.length ∧ c.drop (c.length-macLen) = sampleTag k n then
    some (c.take (c.length-macLen))
  else none

theorem sampleOpen_length (k : Key) (n : Block 12) (c m : Bytes)
    (h : sampleOpen k n c = some m) : m.length+macLen = c.length := by
  unfold sampleOpen at h
  split at h
  · rename_i hc
    cases h
    simp only [List.length_take]
    omega
  · simp at h

/-- A small stand-in for libsodium that keeps its laws: public keys add up, a tag is
bound to key and nonce, and the all-zero point is refused. Concrete runs use it. -/
def Sodium.sample : Sodium where
  scalarmult sk pk := if pk = Block.zero 32 then none else some (addBytes (clamp sk) pk)
  scalarmultBase sk := clamp sk
  generichash key data := addBytes (Block.ofBytes 32 key) (Block.ofBytes 32 data)
  aeadEncrypt k n _ m := some (m ++ sampleTag k n)
  aeadDecrypt k n _ c := sampleOpen k n c
  signDetached sk m := Block.ofBytes 64 (sk.bytes.drop 32 ++ m.take 32)
  verifyDetached sig m pk := sig = Block.ofBytes 64 (pk.bytes ++ m.take 32)
  pkToCurve25519 pk := if pk = Block.zero 32 then none else some (clamp pk)
  skToCurve25519 sk := Block.ofBytes 32 sk.bytes
  aeadDecrypt_length k n _ c m h := sampleOpen_length k n c m h

theorem Sodium.sample_lawful : Sodium.sample.Lawful where
  dh_agree a b := by
    refine ⟨addBytes (clamp a) (clamp b),if_neg (clamp_ne_zero b),?_⟩
    rw [addBytes_comm]
    exact if_neg (clamp_ne_zero a)
  seal_open k n _ m := by
    have htag : (sampleTag k n).length = macLen := by simp [sampleTag,macLen]
    refine ⟨m ++ sampleTag k n,rfl,?_⟩
    show sampleOpen k n (m ++ sampleTag k n) = some m
    unfold sampleOpen
    rw [List.length_append,htag,Nat.add_sub_cancel,List.drop_left,List.take_left]
    exact if_pos ⟨Nat.le_add_left _ _,rfl⟩

def Zstd.sample : Zstd where
  compress _ _ := none
  decompress _ _ := none

end GoodNet
