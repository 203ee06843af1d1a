import GoodNet.Lib.ByteCodec
import Mathlib.Data.List.DropRight
import Mathlib.Data.Nat.Digits.Lemmas
set_option autoImplicit false

/-! Text of single bytes: decimal numbers and how they are scanned, the last occurrence of a
character, text without the fill around it. -/

namespace PlainText
open Codec

def digit (d : Nat) : UInt8 := UInt8.ofNat (48+d)

def isDigit (c : UInt8) : Bool := 48 ≤ c && c ≤ 57

def isBlank (c : UInt8) : Bool := c == 32 || (9 ≤ c && c ≤ 13)

/-- The number that digits make. -/
def valueOf (s : Bytes) : Nat := s.foldl (fun n c => 10*n+(c.toNat-48)) 0

def decimal (n : Nat) : Bytes := if n = 0 then [48] else ((Nat.digits 10 n).map digit).reverse

def decimalInt (v : Int) : Bytes :=
  if v < 0 then 45 :: decimal v.natAbs else decimal v.natAbs

/-- A sign, if there is one, and digits. -/
def signed : Bytes → Int
  | [] => 0
  | c :: rest =>
    if c = 45 then -(valueOf (rest.takeWhile isDigit) : Int)
    else if c = 43 then valueOf (rest.takeWhile isDigit)
    else valueOf ((c :: rest).takeWhile isDigit)

/-- The number a text begins with, behind blanks. -/
def scanInt (s : Bytes) : Int := signed (s.dropWhile isBlank)

/-- What is before and behind the last `c`. -/
def splitLast (c : UInt8) : Bytes → Option (Bytes × Bytes)
  | [] => none
  | x :: xs =>
    match splitLast c xs with
    | some (front,back) => some (x :: front,back)
    | none => if x = c then some ([],xs) else none

def trim (c : UInt8) (s : Bytes) : Bytes := (s.dropWhile (· == c)).rdropWhile (· == c)

theorem digit_spec : ∀ d : Fin 10, (digit d).toNat-48 = d ∧ isDigit (digit d) = true ∧
    isBlank (digit d) = false ∧ digit d ≠ 45 ∧ digit d ≠ 43 := by decide

theorem valueOf_digits {l : List Nat} (h : ∀ d ∈ l, d < 10) :
    valueOf (l.map digit).reverse = Nat.ofDigits 10 l := by
  unfold valueOf
  rw [List.foldl_reverse]
  induction l with
  | nil => rfl
  | cons d l ih =>
    have hd := (digit_spec ⟨d,h d List.mem_cons_self⟩).1
    have hrest := ih (fun x hx => h x (List.mem_cons_of_mem d hx))
    simp only [] at hd
    simp only [List.map_cons,List.foldr_cons,hrest,hd,Nat.ofDigits_cons]
    omega

theorem valueOf_decimal (n : Nat) : valueOf (decimal n) = n := by
  unfold decimal
  split
  · rename_i h
    subst h
    rfl
  · rw [valueOf_digits (fun d hd => Nat.digits_lt_base (by omega) hd),Nat.ofDigits_digits]

theorem mem_decimal {n : Nat} {c : UInt8} (h : c ∈ decimal n) : ∃ d : Fin 10, c = digit d := by
  unfold decimal at h
  split at h
  · exact ⟨0,by simpa [digit] using h⟩
  · rw [List.mem_reverse,List.mem_map] at h
    obtain ⟨d,hd,rfl⟩ := h
    exact ⟨⟨d,Nat.digits_lt_base (by omega) hd⟩,rfl⟩

theorem decimal_length_le {n k : Nat} (hk : 0 < k) (h : n < 10^k) : (decimal n).length ≤ k := by
  unfold decimal
  split
  · exact hk
  · simpa using (Nat.digits_length_le_iff (by omega) n).mpr h

theorem decimal_ne_nil (n : Nat) : decimal n ≠ [] := by
  unfold decimal
  split
  · simp
  · rename_i h
    simpa [Nat.digits_ne_nil_iff_ne_zero] using h

theorem takeWhile_decimal (n : Nat) : (decimal n).takeWhile isDigit = decimal n := by
  refine List.takeWhile_eq_self_iff.mpr (fun c hc => ?_)
  obtain ⟨d,rfl⟩ := mem_decimal hc
  exact (digit_spec d).2.1

theorem signed_decimal (n : Nat) :
    signed (decimal n) = n ∧ (decimal n).dropWhile isBlank = decimal n := by
  have htake := takeWhile_decimal n
  have hvalue := valueOf_decimal n
  have hmem : ∀ c ∈ decimal n, ∃ d : Fin 10, c = digit d := fun c hc => mem_decimal hc
  cases hd : decimal n with
  | nil => exact absurd hd (decimal_ne_nil n)
  | cons c rest =>
    obtain ⟨d,rfl⟩ := hmem c (by simp [hd])
    obtain ⟨_,_,hblank,hminus,hplus⟩ := digit_spec d
    rw [hd] at htake hvalue
    simp [signed,hminus,hplus,htake,hvalue,hblank]

/-- A number is scanned as it was written. -/
theorem scanInt_decimalInt (v : Int) : scanInt (decimalInt v) = v := by
  obtain ⟨hsigned,hdrop⟩ := signed_decimal v.natAbs
  unfold scanInt decimalInt
  split
  · have hminus : (45 :: decimal v.natAbs).dropWhile isBlank = 45 :: decimal v.natAbs := rfl
    rw [hminus]
    simp only [signed,if_true,takeWhile_decimal,valueOf_decimal]
    omega
  · rw [hdrop,hsigned]
    omega

theorem mem_decimalInt {v : Int} {c : UInt8} (h : c ∈ decimalInt v) :
    c = 45 ∨ ∃ d : Fin 10, c = digit d := by
  unfold decimalInt at h
  split at h
  · rcases List.mem_cons.mp h with h | h
    · exact Or.inl h
    · exact Or.inr (mem_decimal h)
  · exact Or.inr (mem_decimal h)

theorem splitLast_none {c : UInt8} {s : Bytes} (h : c ∉ s) : splitLast c s = none := by
  induction s with
  | nil => rfl
  | cons x xs ih =>
    rw [List.mem_cons,not_or] at h
    simp [splitLast,ih h.2,Ne.symm h.1]

theorem splitLast_append {c : UInt8} {front back : Bytes} (h : c ∉ back) :
    splitLast c (front ++ c :: back) = some (front,back) := by
  induction front with
  | nil => simp [splitLast,splitLast_none h]
  | cons x xs ih => simp [splitLast,ih]

/-- Text with nothing around it stays as it is. -/
theorem trim_eq_self {c : UInt8} {s : Bytes} (hfront : s.head? ≠ some c)
    (hback : s.getLast? ≠ some c) : trim c s = s := by
  have hdrop : s.dropWhile (· == c) = s := by
    cases s with
    | nil => rfl
    | cons x xs =>
      have hx : ¬x = c := by simpa using hfront
      simp [hx]
  unfold trim
  rw [hdrop,List.rdropWhile_eq_self_iff]
  intro hne hlast
  rw [List.getLast?_eq_some_getLast hne] at hback
  exact hback (by simpa using hlast)

end PlainText
