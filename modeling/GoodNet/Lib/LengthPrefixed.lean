import GoodNet.Lib.ByteCodec
import Mathlib.Data.List.Basic
set_option autoImplicit false

/-! Texts made of 32-bit words, highest byte first, and of fields with such a word for their
length in front. A reader takes one from a text exactly when the text starts with it. -/

namespace LengthPrefixed
open Codec

def word (v : UInt32) : Bytes := (leBytes 4 v.toNat).reverse

def wordValue (b : Bytes) : UInt32 :=
  UInt32.ofNat (256*(256*(256*(b.getD 0 0).toNat+(b.getD 1 0).toNat)+(b.getD 2 0).toNat)+
    (b.getD 3 0).toNat)

/-- Bytes whose number the prefix can say. -/
structure Field where
  bytes : Bytes
  fits : bytes.length < 4294967296
  deriving DecidableEq

def Field.encode (f : Field) : Bytes := word (UInt32.ofNat f.bytes.length) ++ f.bytes

def takeWord (b : Bytes) : Option (UInt32 × Bytes) :=
  if b.length < 4 then none else some (wordValue b,b.drop 4)

theorem take_fits (n : UInt32) (b : Bytes) : (b.take n.toNat).length < 4294967296 := by
  have hn := n.toNat_lt
  rw [List.length_take]
  omega

def takeField (b : Bytes) : Option (Field × Bytes) :=
  match takeWord b with
  | none => none
  | some (n,rest) =>
    if rest.length < n.toNat then none
    else some (⟨rest.take n.toNat,take_fits n rest⟩,rest.drop n.toNat)

@[simp] theorem word_length (v : UInt32) : (word v).length = 4 := by simp [word]

@[simp] theorem Field.encode_length (f : Field) : f.encode.length = 4+f.bytes.length := by
  simp [encode]

theorem wordValue_word (v : UInt32) (rest : Bytes) : wordValue (word v ++ rest) = v := by
  have hv := v.toNat_lt
  have hsum : 256*(256*(256*(v.toNat/256/256/256%256)+v.toNat/256/256%256)+v.toNat/256%256)+
      v.toNat%256 = v.toNat := by omega
  simp [word,wordValue,leBytes,hsum]

theorem word_wordValue {b : Bytes} (h : 4 ≤ b.length) : word (wordValue b) ++ b.drop 4 = b := by
  match b,h with
  | b₀ :: b₁ :: b₂ :: b₃ :: rest,_ =>
    have h₀ := b₀.toNat_lt
    have h₁ := b₁.toNat_lt
    have h₂ := b₂.toNat_lt
    have h₃ := b₃.toNat_lt
    have hval : (wordValue (b₀ :: b₁ :: b₂ :: b₃ :: rest)).toNat =
        256*(256*(256*b₀.toNat+b₁.toNat)+b₂.toNat)+b₃.toNat := by
      simp only [wordValue,List.getD_cons_zero,List.getD_cons_succ,UInt32.toNat_ofNat']
      exact Nat.mod_eq_of_lt (by omega)
    rw [word,hval]
    simp only [leBytes,List.reverse_cons,List.reverse_nil,List.nil_append,List.cons_append,
      List.drop_succ_cons,List.drop_zero,List.cons.injEq,and_true]
    refine ⟨?_,?_,?_,?_⟩ <;> apply UInt8.toNat_inj.mp <;> rw [UInt8.toNat_ofNat'] <;> omega

theorem takeWord_eq_some {b rest : Bytes} {v : UInt32} :
    takeWord b = some (v,rest) ↔ b = word v ++ rest := by
  unfold takeWord
  constructor
  · intro h
    split at h
    · cases h
    · rename_i hlen
      obtain ⟨rfl,rfl⟩ := Prod.mk.inj (Option.some.inj h)
      exact (word_wordValue (Nat.not_lt.mp hlen)).symm
  · rintro rfl
    rw [if_neg (by simp),wordValue_word,List.drop_left' (word_length v)]

theorem takeField_eq_some {b rest : Bytes} {f : Field} :
    takeField b = some (f,rest) ↔ b = f.encode ++ rest := by
  unfold takeField
  constructor
  · intro h
    cases hword : takeWord b with
    | none => simp [hword] at h
    | some r =>
      obtain ⟨n,tail⟩ := r
      rw [hword] at h
      dsimp only at h
      split at h
      · cases h
      · rename_i hlen
        obtain ⟨rfl,rfl⟩ := Prod.mk.inj (Option.some.inj h)
        have hn : (tail.take n.toNat).length = n.toNat := by
          rw [List.length_take]
          omega
        rw [takeWord_eq_some.mp hword,Field.encode,hn,UInt32.ofNat_toNat,List.append_assoc,
          List.take_append_drop]
  · rintro rfl
    have hn : (UInt32.ofNat f.bytes.length).toNat = f.bytes.length := by
      rw [UInt32.toNat_ofNat']
      exact Nat.mod_eq_of_lt f.fits
    have hword : takeWord (f.encode ++ rest) =
        some (UInt32.ofNat f.bytes.length,f.bytes ++ rest) :=
      takeWord_eq_some.mpr (by rw [Field.encode,List.append_assoc])
    rw [hword]
    dsimp only
    rw [if_neg (by rw [hn,List.length_append]; omega)]
    simp only [hn,List.take_left,List.drop_left]

end LengthPrefixed
