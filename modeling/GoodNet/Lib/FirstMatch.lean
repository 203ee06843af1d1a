import Mathlib.Data.List.Basic
set_option autoImplicit false

/-! The first place where a text holds a pattern. -/

namespace FirstMatch

variable {α : Type} [DecidableEq α] {pat s : List α}

/-- The search from a place of the text on; `i` counts what lies in front of it. -/
def findFrom (pat : List α) : Nat → List α → Option Nat
  | i, [] => if pat = [] then some i else none
  | i, c :: s => if pat.isPrefixOf (c :: s) then some i else findFrom pat (i+1) s

def find (pat s : List α) : Option Nat := findFrom pat 0 s

theorem findFrom_eq_map (pat : List α) (i : Nat) (s : List α) :
    findFrom pat i s = (find pat s).map (fun k => k+i) := by
  unfold find
  induction s generalizing i with
  | nil => simp only [findFrom]; split <;> simp
  | cons c s ih =>
    simp only [findFrom]
    split
    · simp
    · rw [ih (i+1),ih (0+1),Option.map_map]
      congr 1
      funext k
      simp only [Function.comp]
      omega

/-- The pattern lies where it is found. -/
theorem find_eq_some {k : Nat} (h : find pat s = some k) :
    ∃ front back, s = front ++ pat ++ back ∧ front.length = k := by
  unfold find at h
  induction s generalizing k with
  | nil =>
    simp only [findFrom] at h
    split at h
    · rename_i hpat
      cases h
      exact ⟨[],[],by simp [hpat],rfl⟩
    · cases h
  | cons c s ih =>
    simp only [findFrom] at h
    split at h
    · rename_i hpre
      cases h
      obtain ⟨back,hback⟩ := List.isPrefixOf_iff_prefix.mp hpre
      exact ⟨[],back,by simpa using hback.symm,rfl⟩
    · rw [findFrom_eq_map] at h
      obtain ⟨j,hj,rfl⟩ := Option.map_eq_some_iff.mp h
      obtain ⟨front,back,hs,hlen⟩ := ih hj
      exact ⟨c :: front,back,by rw [hs]; rfl,by simp [hlen]⟩

theorem mem_of_find {k : Nat} {x : α} (h : find pat s = some k) (hx : x ∈ pat) : x ∈ s := by
  obtain ⟨front,back,rfl,_⟩ := find_eq_some h
  simp [hx]

theorem find_cons {c : α} (h : pat.isPrefixOf (c :: s) = false) :
    find pat (c :: s) = (find pat s).map (fun k => k+1) := by
  have hf := findFrom_eq_map pat 1 s
  rw [find,findFrom,if_neg (by simp [h]),hf]

/-- What is not found in front of a place is found behind it as if the text started there. -/
theorem find_drop {k n : Nat} (hpat : pat ≠ []) (h : find pat s = some k) (hn : n ≤ k) :
    find pat (s.drop n) = some (k-n) := by
  induction n generalizing s k with
  | zero => simpa using h
  | succ n ih =>
    cases s with
    | nil => simp [find,findFrom,hpat] at h
    | cons c s =>
      cases hpre : pat.isPrefixOf (c :: s) with
      | true =>
        rw [find,findFrom,if_pos hpre] at h
        cases h
        omega
      | false =>
        rw [find_cons hpre] at h
        obtain ⟨j,hj,rfl⟩ := Option.map_eq_some_iff.mp h
        rw [List.drop_succ_cons,ih hj (by omega),Nat.add_sub_add_right]

theorem find_drop_none {n : Nat} (h : find pat s = none) :
    find pat (s.drop n) = none := by
  induction n generalizing s with
  | zero => simpa using h
  | succ n ih =>
    cases s with
    | nil => simpa using h
    | cons c s =>
      rw [List.drop_succ_cons]
      apply ih
      cases hpre : pat.isPrefixOf (c :: s) with
      | true => simp [find,findFrom,hpre] at h
      | false =>
        rw [find_cons hpre] at h
        exact Option.map_eq_none_iff.mp h

/-- A text without the pattern's first character cannot hide it. -/
theorem findFrom_fresh {a : α} {i : Nat} {front back : List α} (h : ∀ x ∈ front, x ≠ a) :
    findFrom (a :: pat) i (front ++ (a :: pat) ++ back) = some (i+front.length) := by
  induction front generalizing i with
  | nil =>
    have hpre : (a :: pat).isPrefixOf ((a :: pat) ++ back) = true :=
      List.isPrefixOf_iff_prefix.mpr (List.prefix_append _ _)
    rw [List.nil_append,List.cons_append,findFrom,← List.cons_append,if_pos hpre,List.length_nil,
      Nat.add_zero]
  | cons x front ih =>
    have hx := h x List.mem_cons_self
    have hpre : (a :: pat).isPrefixOf (x :: (front ++ (a :: pat) ++ back)) = false := by
      simp [List.isPrefixOf,Ne.symm hx]
    rw [List.cons_append,List.cons_append,findFrom,if_neg (by rw [hpre]; decide),
      ih (fun y hy => h y (List.mem_cons_of_mem x hy)),List.length_cons]
    congr 1
    omega

end FirstMatch
