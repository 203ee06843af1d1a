import Mathlib.Data.List.Sort
set_option autoImplicit false

/-! Lists in the order of a bounded key, the largest key first and equal keys as they come. -/

namespace KeyOrder

variable {α : Type}

/-- The entries with a key below the bound: for each key its entries in the order of the list. -/
def byKey (key : α → Nat) : Nat → List α → List α
  | 0, _ => []
  | k+1, l => l.filter (fun a => key a = k) ++ byKey key k l

/-- The sort that puts a larger key first and is stable. -/
def sortByKey (key : α → Nat) (l : List α) : List α :=
  l.insertionSort (fun a b => key b ≤ key a)

variable {key : α → Nat}

theorem mem_byKey {bound : Nat} {l : List α} {a : α} :
    a ∈ byKey key bound l ↔ a ∈ l ∧ key a < bound := by
  induction bound with
  | zero => simp [byKey]
  | succ k ih =>
    simp only [byKey,List.mem_append,List.mem_filter,decide_eq_true_eq,ih]
    constructor
    · rintro (⟨hm,hk⟩ | ⟨hm,hk⟩)
      · exact ⟨hm,by omega⟩
      · exact ⟨hm,by omega⟩
    · rintro ⟨hm,hk⟩
      by_cases heq : key a = k
      · exact .inl ⟨hm,heq⟩
      · exact .inr ⟨hm,by omega⟩

theorem byKey_filter (p : α → Bool) (bound : Nat) (l : List α) :
    (byKey key bound l).filter p = byKey key bound (l.filter p) := by
  induction bound with
  | zero => rfl
  | succ k ih => simp [byKey,ih,List.filter_filter,Bool.and_comm]

/-- Only the entries of each key count, and their order. -/
theorem byKey_congr {bound : Nat} {l l' : List α}
    (h : ∀ k < bound, l.filter (fun a => key a = k) = l'.filter (fun a => key a = k)) :
    byKey key bound l = byKey key bound l' := by
  induction bound with
  | zero => rfl
  | succ k ih =>
    simp only [byKey]
    rw [h k (Nat.lt_succ_self k),ih (fun j hj => h j (Nat.lt_succ_of_lt hj))]

/-- A list in this order whose keys are below the bound is what it lists by key. -/
theorem byKey_of_pairwise {bound : Nat} {l : List α}
    (hsort : l.Pairwise (fun a b => key b ≤ key a)) (h : ∀ a ∈ l, key a < bound) :
    byKey key bound l = l := by
  induction bound generalizing l with
  | zero =>
    have hnil : l = [] := List.eq_nil_iff_forall_not_mem.2 fun a ha => Nat.not_lt_zero _ (h a ha)
    rw [hnil]
    rfl
  | succ k ih =>
    -- the entries of the largest key come first
    have hsplit : l.filter (fun a => key a = k) ++ l.filter (fun a => key a < k) = l := by
      clear ih
      induction l with
      | nil => rfl
      | cons a l ihl =>
        obtain ⟨hfirst,htail⟩ := List.pairwise_cons.1 hsort
        have hrest := ihl htail (fun b hb => h b (List.mem_cons_of_mem a hb))
        have hbound := h a List.mem_cons_self
        by_cases hk : key a = k
        · have hlt : ¬ key a < k := by omega
          simp [hk,hrest]
        · have hlt : key a < k := by omega
          have hnone : l.filter (fun b => key b = k) = [] := by
            refine List.filter_eq_nil_iff.2 fun b hb => ?_
            have hle := hfirst b hb
            simp only [decide_eq_true_eq]
            omega
          rw [hnone,List.nil_append] at hrest
          simp [hk,hlt,hnone,hrest]
    have hlow : byKey key k l = l.filter (fun a => key a < k) := by
      rw [← ih (hsort.filter _) (fun a ha => by simpa using (List.mem_filter.1 ha).2)]
      refine byKey_congr fun j hj => ?_
      rw [List.filter_filter]
      refine List.filter_congr fun a _ => ?_
      by_cases hk : key a = j <;> simp [hk,hj]
    rw [byKey,hlow,hsplit]

/-- Equal keys stay as they are: the sort is stable. -/
theorem sortByKey_filter (k : Nat) (l : List α) :
    (sortByKey key l).filter (fun a => key a = k) = l.filter (fun a => key a = k) := by
  have hkeep : (l.filter (fun a => key a = k)).Pairwise (fun a b => key b ≤ key a) := by
    refine List.pairwise_of_forall_mem_list fun a ha b hb => ?_
    simp only [List.mem_filter,decide_eq_true_eq] at ha hb
    omega
  have hsub := (List.sublist_insertionSort hkeep List.filter_sublist).filter
    (fun a => decide (key a = k))
  rw [List.filter_filter] at hsub
  simp only [Bool.and_self] at hsub
  exact (hsub.eq_of_length_le ((List.perm_insertionSort _ l).filter _).length_eq.le).symm

theorem sortByKey_eq {bound : Nat} {l : List α} (h : ∀ a ∈ l, key a < bound) :
    sortByKey key l = byKey key bound l := by
  have hperm : (sortByKey key l).Perm l := List.perm_insertionSort _ l
  have hsorted : byKey key bound (sortByKey key l) = sortByKey key l :=
    byKey_of_pairwise (List.pairwise_insertionSort _ l) (fun a ha => h a (hperm.mem_iff.1 ha))
  rw [← hsorted]
  exact byKey_congr fun k _ => sortByKey_filter k l

/-- Sorting in one more entry is listing it after the others of its key. -/
theorem sortByKey_append {bound : Nat} {l : List α} {a : α} (hl : ∀ b ∈ l, key b < bound)
    (ha : key a < bound) :
    sortByKey key (byKey key bound l ++ [a]) = byKey key bound (l ++ [a]) := by
  have hkeys : ∀ b ∈ byKey key bound l ++ [a], key b < bound := by
    intro b hb
    rcases List.mem_append.1 hb with hb | hb
    · exact (mem_byKey.1 hb).2
    · rw [List.mem_singleton.1 hb]
      exact ha
  rw [sortByKey_eq hkeys]
  refine byKey_congr fun k hk => ?_
  rw [List.filter_append,List.filter_append,byKey_filter,byKey_of_pairwise]
  · refine List.pairwise_of_forall_mem_list fun b hb c hc => ?_
    simp only [List.mem_filter,decide_eq_true_eq] at hb hc
    omega
  · exact fun b hb => hl b (List.mem_filter.1 hb).1

end KeyOrder
