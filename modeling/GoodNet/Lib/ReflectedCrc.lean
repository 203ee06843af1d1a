import Mathlib.Data.List.Basic
set_option autoImplicit false

/-! Cyclic redundancy checks in the reflected form: a shift register that gives its lowest bit up
with each step. The step is linear over xor, so a register takes several bits of the message at
once by the steps of its own low bits, which a table may hold. -/

namespace ReflectedCrc

variable {w : Nat}

/-- One bit of the message: the bit that leaves the register decides with it whether the
polynomial is taken off. -/
def feedBit (p r : BitVec w) (bit : Bool) : BitVec w :=
  (r >>> 1) ^^^ (if r.getLsbD 0 ^^ bit then p else 0)

def feedBits (p r : BitVec w) (bits : List Bool) : BitVec w := bits.foldl (feedBit p) r

/-- The check of a message, a bit at a time. -/
def crc (p initial final : BitVec w) (bits : List Bool) : BitVec w :=
  feedBits p initial bits ^^^ final

/-- One step of the register by itself. -/
def shiftStep (p r : BitVec w) : BitVec w := (r >>> 1) ^^^ (if r.getLsbD 0 then p else 0)

def shiftSteps (p : BitVec w) : Nat → BitVec w → BitVec w
  | 0, r => r
  | n+1, r => shiftSteps p n (shiftStep p r)

def bitWord (w : Nat) (b : Bool) : BitVec w := if b then 1 else 0

/-- Bits as a word, the first of them lowest. -/
def word (w : Nat) : List Bool → BitVec w
  | [] => 0
  | b :: bs => bitWord w b ^^^ (word w bs <<< 1)

/-- The `n` lowest bits of the register. -/
def low (n : Nat) (r : BitVec w) : BitVec w := (r.setWidth n).setWidth w

theorem getLsbD_bitWord (b : Bool) (i : Nat) :
    (bitWord w b).getLsbD i = (decide (0 < w) && decide (i = 0) && b) := by
  cases b <;> simp [bitWord]

theorem bitWord_shift (b : Bool) : bitWord w b >>> 1 = 0 := by
  apply BitVec.eq_of_getLsbD_eq
  intro i _
  simp [getLsbD_bitWord]

theorem getLsbD_word (bs : List Bool) (i : Nat) :
    (word w bs).getLsbD i = (decide (i < w) && bs.getD i false) := by
  induction bs generalizing i with
  | nil => simp [word]
  | cons b bs ih =>
    rw [word,BitVec.getLsbD_xor,getLsbD_bitWord,BitVec.getLsbD_shiftLeft]
    cases i with
    | zero => simp
    | succ i =>
      rw [Nat.add_sub_cancel,ih]
      by_cases hi : i+1 < w
      · simp [hi,Nat.lt_of_succ_lt hi]
      · simp [hi]

/-- The bits of a word, lowest first, make the word again. -/
theorem word_bits {n : Nat} (x : BitVec n) :
    word w ((List.range n).map x.getLsbD) = x.setWidth w := by
  apply BitVec.eq_of_getLsbD_eq
  intro i hi
  rw [getLsbD_word,BitVec.getLsbD_setWidth]
  by_cases hn : i < n
  · simp [hn]
  · simp [hn,BitVec.getLsbD_of_ge x i (Nat.not_lt.1 hn)]

theorem shiftStep_xor (p r s : BitVec w) :
    shiftStep p (r ^^^ s) = shiftStep p r ^^^ shiftStep p s := by
  rw [shiftStep,shiftStep,shiftStep,BitVec.ushiftRight_xor_distrib,BitVec.getLsbD_xor]
  cases r.getLsbD 0 <;> cases s.getLsbD 0
  · simp
  · simp [BitVec.xor_assoc]
  · simp only [Bool.xor_false,ite_true,Bool.false_eq_true,ite_false]
    ac_rfl
  · -- both take the polynomial off, which together is nothing
    simp only [Bool.xor_self,Bool.false_eq_true,ite_false,ite_true]
    calc (r >>> 1) ^^^ (s >>> 1) ^^^ 0
        = (r >>> 1) ^^^ (s >>> 1) ^^^ (p ^^^ p) := by rw [BitVec.xor_self]; rfl
      _ = (r >>> 1) ^^^ p ^^^ ((s >>> 1) ^^^ p) := by ac_rfl

theorem shiftSteps_xor (p : BitVec w) (n : Nat) (r s : BitVec w) :
    shiftSteps p n (r ^^^ s) = shiftSteps p n r ^^^ shiftSteps p n s := by
  induction n generalizing r s with
  | zero => rfl
  | succ n ih => rw [shiftSteps,shiftStep_xor,ih,shiftSteps,shiftSteps]

/-- While zeros leave the register, its steps are shifts. -/
theorem shiftSteps_of_low_zero {p r : BitVec w} {n : Nat}
    (h : ∀ i, i < n → r.getLsbD i = false) : shiftSteps p n r = r >>> n := by
  induction n generalizing r with
  | zero => simp [shiftSteps]
  | succ n ih =>
    have hstep : shiftStep p r = r >>> 1 := by simp [shiftStep,h 0 (Nat.succ_pos n)]
    have hlow : ∀ i, i < n → (r >>> 1).getLsbD i = false := by
      intro i hi
      rw [BitVec.getLsbD_ushiftRight,Nat.add_comm]
      exact h (i+1) (by omega)
    rw [shiftSteps,hstep,ih hlow,Nat.add_comm,BitVec.shiftRight_add]

theorem low_xor_high (n : Nat) (r : BitVec w) : low n r ^^^ (r >>> n <<< n) = r := by
  apply BitVec.eq_of_getLsbD_eq
  intro i hi
  simp only [low,BitVec.getLsbD_xor,BitVec.getLsbD_setWidth,BitVec.getLsbD_shiftLeft,
    BitVec.getLsbD_ushiftRight]
  by_cases hn : i < n
  · simp [hi,hn]
  · have hsum : n+(i-n) = i := by omega
    simp [hi,hn,hsum]

theorem high_shiftRight (n : Nat) (r : BitVec w) : (r >>> n <<< n) >>> n = r >>> n := by
  apply BitVec.eq_of_getLsbD_eq
  intro i _
  simp only [BitVec.getLsbD_ushiftRight,BitVec.getLsbD_shiftLeft,Nat.add_sub_cancel_left]
  by_cases hi : n+i < w
  · simp [hi]
  · simp [hi,BitVec.getLsbD_of_ge r (n+i) (Nat.not_lt.1 hi)]

/-- Several steps are those of the low bits beside a shift of the others. -/
theorem shiftSteps_eq (p : BitVec w) (n : Nat) (r : BitVec w) :
    shiftSteps p n r = (r >>> n) ^^^ shiftSteps p n (low n r) := by
  have hhigh : ∀ i, i < n → (r >>> n <<< n).getLsbD i = false := by
    intro i hi
    simp [hi]
  calc shiftSteps p n r
      = shiftSteps p n (low n r ^^^ (r >>> n <<< n)) := by rw [low_xor_high]
    _ = shiftSteps p n (low n r) ^^^ (r >>> n) := by
        rw [shiftSteps_xor,shiftSteps_of_low_zero hhigh,high_shiftRight]
    _ = (r >>> n) ^^^ shiftSteps p n (low n r) := BitVec.xor_comm _ _

theorem feedBit_eq (p r : BitVec w) (b : Bool) (hw : 0 < w) :
    feedBit p r b = shiftStep p (r ^^^ bitWord w b) := by
  rw [shiftStep,BitVec.ushiftRight_xor_distrib,bitWord_shift,BitVec.getLsbD_xor,getLsbD_bitWord,
    feedBit]
  simp [hw]

theorem word_shift {bs : List Bool} (h : bs.length < w) :
    (word w bs <<< 1) >>> 1 = word w bs := by
  apply BitVec.eq_of_getLsbD_eq
  intro i hi
  simp only [BitVec.getLsbD_ushiftRight,BitVec.getLsbD_shiftLeft,Nat.add_sub_cancel_left,
    getLsbD_word]
  by_cases htop : 1+i < w
  · simp [htop,hi]
  · have hend : bs.length ≤ i := by omega
    simp [htop,hend]

/-- Bits that fit the register may be taken in at once, before its steps. -/
theorem feedBits_eq (p r : BitVec w) {bs : List Bool} (h : bs.length ≤ w) :
    feedBits p r bs = shiftSteps p bs.length (r ^^^ word w bs) := by
  induction bs generalizing r with
  | nil => simp [feedBits,shiftSteps,word]
  | cons b bs ih =>
    have hlen : bs.length < w := h
    -- the bits behind the first do not reach the lowest place in this step
    have hrest : shiftStep p (word w bs <<< 1) = word w bs := by
      rw [shiftStep,word_shift hlen]
      simp
    have hstep : shiftStep p (r ^^^ word w (b :: bs)) = feedBit p r b ^^^ word w bs := by
      rw [word,← BitVec.xor_assoc,shiftStep_xor,hrest,feedBit_eq p r b (by omega)]
    rw [List.length_cons,shiftSteps,hstep]
    exact ih (feedBit p r b) (Nat.le_of_lt hlen)

theorem feedBits_append (p r : BitVec w) (xs ys : List Bool) :
    feedBits p r (xs++ys) = feedBits p (feedBits p r xs) ys := List.foldl_append

end ReflectedCrc
