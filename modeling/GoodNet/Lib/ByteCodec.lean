import Mathlib.Data.Nat.Basic
import Mathlib.Tactic.Ring
set_option autoImplicit false

namespace Codec

abbrev Bytes := List UInt8

/-- Little-endian image of `n` in exactly `w` bytes; higher digits are cut off. -/
def leBytes : Nat → Nat → Bytes
  | 0, _ => []
  | w+1, n => UInt8.ofNat n :: leBytes w (n/256)

def leNat : Bytes → Nat
  | [] => 0
  | b :: bs => b.toNat + 256*leNat bs

@[simp] theorem leBytes_length (w n : Nat) : (leBytes w n).length = w := by
  induction w generalizing n with
  | zero => rfl
  | succ w ih => simp [leBytes,ih]

theorem leNat_leBytes (w n : Nat) : leNat (leBytes w n) = n % 256^w := by
  induction w generalizing n with
  | zero => simp [leBytes,leNat,Nat.mod_one]
  | succ w ih =>
    have hb : (UInt8.ofNat n).toNat = n % 256 := by simp
    rw [leBytes,leNat,ih,hb,Nat.pow_succ,Nat.mul_comm (256^w) 256,Nat.mod_mul]

theorem leNat_leBytes_of_lt {w n : Nat} (h : n < 256^w) : leNat (leBytes w n) = n := by
  rw [leNat_leBytes,Nat.mod_eq_of_lt h]

/-- A byte array of a fixed size; the size travels with the bytes. -/
structure Block (n : Nat) where
  bytes : Bytes
  size_eq : bytes.length = n
  deriving DecidableEq, Repr

@[ext] theorem Block.ext {n : Nat} {a b : Block n} (h : a.bytes = b.bytes) : a = b := by
  cases a
  cases b
  simp_all

def Block.zero (n : Nat) : Block n := ⟨List.replicate n 0, by simp⟩

instance {n : Nat} : Inhabited (Block n) := ⟨Block.zero n⟩

/-- The first `n` bytes of a buffer. A shorter buffer is filled up with zeros;
callers that test the length first never see the filling. -/
def Block.ofBytes (n : Nat) (b : Bytes) : Block n :=
  ⟨(b ++ List.replicate n 0).take n, by simp⟩

@[simp] theorem Block.length_bytes {n : Nat} (a : Block n) : a.bytes.length = n := a.size_eq

theorem Block.drop_bytes {n : Nat} (a : Block n) (tail : Bytes) :
    (a.bytes ++ tail).drop n = tail := by
  have h : (a.bytes ++ tail).drop a.bytes.length = tail := List.drop_left
  rwa [a.size_eq] at h

theorem Block.ofBytes_append {n : Nat} (a : Block n) (tail : Bytes) :
    Block.ofBytes n (a.bytes ++ tail) = a := by
  apply Block.ext
  have h := a.size_eq
  simp [Block.ofBytes,h]

@[simp] theorem Block.ofBytes_bytes {n : Nat} (a : Block n) : Block.ofBytes n a.bytes = a := by
  simpa using Block.ofBytes_append a []

end Codec
