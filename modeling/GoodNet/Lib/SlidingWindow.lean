import Mathlib.Data.Nat.Basic
set_option autoImplicit false

/-! A bitmap of fixed width below a highest mark. What matters of it is the set of
numbers it shuts out: those a full width below the mark, and those whose bit is set. -/

namespace SlidingWindow

def Shut {w : Nat} (top : Nat) (map : BitVec w) (n : Nat) : Prop :=
  n ≤ top ∧ (w ≤ top-n ∨ map.getLsbD (top-n) = true)

/-- The numbers that go out once `m` has been presented: itself and everything a full
width below. -/
def Covers (w m n : Nat) : Prop := n = m ∨ n+w ≤ m

theorem shut_start {w m n : Nat} (hw : 0 < w) :
    Shut m (0#w ||| BitVec.twoPow w 0) n ↔ Covers w m n := by
  unfold Shut Covers
  simp only [BitVec.getLsbD_or,BitVec.getLsbD_zero,Bool.false_or,BitVec.getLsbD_twoPow,hw,
    decide_true,Bool.true_and,decide_eq_true_eq]
  omega

/-- Raising the mark shifts every recorded number up by the distance. -/
theorem shut_advance {w top m n : Nat} {map : BitVec w} (hw : 0 < w) (hm : top < m) :
    Shut m ((map <<< (m-top)) ||| BitVec.twoPow w 0) n ↔ Shut top map n ∨ Covers w m n := by
  unfold Shut Covers
  simp only [BitVec.getLsbD_or,BitVec.getLsbD_shiftLeft,BitVec.getLsbD_twoPow,hw,decide_true,
    Bool.true_and,Bool.or_eq_true,Bool.and_eq_true,Bool.not_eq_true',decide_eq_false_iff_not,
    decide_eq_true_eq]
  by_cases hle : n ≤ top
  · have hd : m-n-(m-top) = top-n := by omega
    rw [hd]
    cases hb : map.getLsbD (top-n) with
    | true =>
      have hlt := BitVec.lt_of_getLsbD hb
      simp only [and_true,or_true]
      omega
    | false =>
      simp only [Bool.false_eq_true,and_false,or_false,false_or]
      omega
  · omega

theorem shut_advance_far {w top m n : Nat} {map : BitVec w} (hw : 0 < w) (hm : top < m)
    (hf : w ≤ m-top) :
    Shut m (0#w ||| BitVec.twoPow w 0) n ↔ Shut top map n ∨ Covers w m n := by
  have hs : map <<< (m-top) = 0#w := BitVec.shiftLeft_eq_zero hf
  rw [← hs]
  exact shut_advance hw hm

/-- Recording a number inside the window changes its own bit only. -/
theorem shut_mark {w top m n : Nat} {map : BitVec w} (hm : m ≤ top) (hin : top-m < w) :
    Shut top (map ||| BitVec.twoPow w (top-m)) n ↔ Shut top map n ∨ Covers w m n := by
  unfold Shut Covers
  simp only [BitVec.getLsbD_or,BitVec.getLsbD_twoPow,hin,decide_true,Bool.true_and,
    Bool.or_eq_true,decide_eq_true_eq]
  cases map.getLsbD (top-n) with
  | true =>
    simp only [true_or,or_true,and_true]
    omega
  | false =>
    simp only [Bool.false_eq_true,false_or,or_false]
    omega

/-- Whatever a number that is already out would shut out is out as well. -/
theorem Shut.covers {w top m n : Nat} {map : BitVec w} (h : Shut top map m)
    (hc : Covers w m n) : Shut top map n := by
  rcases hc with hc | hc
  · rw [hc]
    exact h
  · obtain ⟨hle,_⟩ := h
    exact ⟨by omega,Or.inl (by omega)⟩

/-- The bitmap is the set of recorded numbers, read downwards from the mark. -/
def Records {w : Nat} (top : Nat) (map : BitVec w) (taken : Nat → Prop) : Prop :=
  ∀ i, i < w → (map.getLsbD i = true ↔ ∃ m, taken m ∧ m+i = top)

/-- Numbers at or below the old mark keep their place relative to it, and the new mark is
recorded at the bottom. -/
theorem Records.advance {w top m : Nat} {map : BitVec w} {taken : Nat → Prop}
    (h : Records top map taken) (hm : top < m) (hle : ∀ n, taken n → n ≤ top) :
    Records m ((map <<< (m-top)) ||| BitVec.twoPow w 0) (fun n => taken n ∨ n = m) := by
  intro i hi
  simp only [BitVec.getLsbD_or,BitVec.getLsbD_shiftLeft,BitVec.getLsbD_twoPow,hi,decide_true,
    Bool.true_and,Bool.or_eq_true,Bool.and_eq_true,Bool.not_eq_true',decide_eq_false_iff_not,
    decide_eq_true_eq]
  constructor
  · rintro (⟨hfar,hbit⟩ | ⟨_,h0⟩)
    · obtain ⟨n,hn,hsum⟩ := (h (i-(m-top)) (by omega)).mp hbit
      exact ⟨n,Or.inl hn,by omega⟩
    · exact ⟨m,Or.inr rfl,by omega⟩
  · rintro ⟨n,hn | rfl,hsum⟩
    · have hn' := hle n hn
      refine Or.inl ⟨by omega,(h (i-(m-top)) (by omega)).mpr ⟨n,hn,by omega⟩⟩
    · exact Or.inr ⟨by omega,by omega⟩

theorem Records.advance_far {w top m : Nat} {map : BitVec w} {taken : Nat → Prop}
    (h : Records top map taken) (hm : top < m) (hle : ∀ n, taken n → n ≤ top) (hf : w ≤ m-top) :
    Records m (0#w ||| BitVec.twoPow w 0) (fun n => taken n ∨ n = m) := by
  have hs : map <<< (m-top) = 0#w := BitVec.shiftLeft_eq_zero hf
  rw [← hs]
  exact h.advance hm hle

theorem Records.mark {w top m : Nat} {map : BitVec w} {taken : Nat → Prop}
    (h : Records top map taken) (hm : m ≤ top) (hin : top-m < w) :
    Records top (map ||| BitVec.twoPow w (top-m)) (fun n => taken n ∨ n = m) := by
  intro i hi
  simp only [BitVec.getLsbD_or,BitVec.getLsbD_twoPow,hin,decide_true,Bool.true_and,
    Bool.or_eq_true,decide_eq_true_eq]
  rw [h i hi]
  constructor
  · rintro (⟨n,hn,hsum⟩ | heq)
    · exact ⟨n,Or.inl hn,hsum⟩
    · exact ⟨m,Or.inr rfl,by omega⟩
  · rintro ⟨n,hn | rfl,hsum⟩
    · exact Or.inl ⟨n,hn,hsum⟩
    · exact Or.inr (by omega)

end SlidingWindow
