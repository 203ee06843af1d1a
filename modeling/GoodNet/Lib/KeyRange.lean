import Mathlib.Data.List.Sort
import Mathlib.Data.List.Nodup
set_option autoImplicit false

/-! Entries with distinct keys in the order of the keys, and what a bound on the keys leaves of
them: the first of them. -/

namespace KeyRange

variable {α β K : Type}

/-- The entries of a list, smallest key first. -/
def inOrder (le : K → K → Prop) [DecidableRel le] (key : α → K) (l : List α) : List α :=
  l.insertionSort (fun a b => le (key a) (key b))

section
variable {le : K → K → Prop} [DecidableRel le] {key : α → K} {l : List α}

theorem mem_inOrder {a : α} : a ∈ inOrder le key l ↔ a ∈ l := List.mem_insertionSort _

theorem inOrder_perm (l : List α) : (inOrder le key l).Perm l := List.perm_insertionSort _ l

variable [Std.Total le] [IsTrans K le]

theorem inOrder_pairwise (l : List α) :
    (inOrder le key l).Pairwise (fun a b => le (key a) (key b)) := by
  have htotal : Std.Total (fun a b : α => le (key a) (key b)) :=
    ⟨fun a b => Std.Total.total (key a) (key b)⟩
  have htrans : IsTrans α (fun a b => le (key a) (key b)) := ⟨fun _ _ _ hab hbc =>
    @IsTrans.trans K le _ _ _ _ hab hbc⟩
  exact List.pairwise_insertionSort _ l

/-- Where no key comes twice, what is left after a test is in order as it would be by itself. -/
theorem filter_inOrder [Std.Antisymm le] (hkeys : (l.map key).Nodup) (q : α → Bool) :
    (inOrder le key l).filter q = inOrder le key (l.filter q) := by
  have hperm : ((inOrder le key l).filter q).Perm (inOrder le key (l.filter q)) :=
    ((inOrder_perm l).filter q).trans (inOrder_perm _).symm
  refine hperm.eq_of_pairwise (fun a b ha hb hab hba => ?_) ((inOrder_pairwise l).filter q)
    (inOrder_pairwise _)
  have hkey : key a = key b := antisymm hab hba
  have hal : a ∈ l := mem_inOrder.1 (List.mem_filter.1 ha).1
  have hbl : b ∈ l := (List.mem_filter.1 (mem_inOrder.1 hb)).1
  exact List.inj_on_of_nodup_map hkeys hal hbl hkey

end

/-- Of a list in the order of its keys a test that holds below wherever it holds leaves the first
entries. -/
theorem filter_down {le : K → K → Prop} {key : α → K} {q : α → Bool} {l : List α}
    (hsorted : l.Pairwise (fun a b => le (key a) (key b)))
    (hdown : ∀ a b, le (key a) (key b) → q b = true → q a = true) :
    l.filter q = l.take (l.filter q).length := by
  induction l with
  | nil => rfl
  | cons a l ih =>
    obtain ⟨hfirst,hrest⟩ := List.pairwise_cons.1 hsorted
    cases ha : q a with
    | true =>
      rw [List.filter_cons_of_pos ha,List.length_cons,List.take_succ_cons]
      exact congrArg _ (ih hrest)
    | false =>
      have hnone : (a :: l).filter q = [] := by
        refine List.filter_eq_nil_iff.2 fun b hb hq => ?_
        rcases List.mem_cons.1 hb with rfl | hb
        · rw [ha] at hq
          cases hq
        · rw [hdown a b (hfirst b hb) hq] at ha
          cases ha
      rw [hnone]
      rfl

/-- The entries that pass the test are the first ones, so a first part passes if it is not
longer. -/
theorem forall_take_iff {q : α → Bool} {l : List α} {n m : Nat}
    (hfirst : l.filter q = l.take m) (hm : m ≤ l.length) :
    (∀ a ∈ l.take n, q a = true) ↔ min n l.length ≤ m := by
  have hpass : ∀ a ∈ l.take m, q a = true := by
    intro a ha
    rw [← hfirst] at ha
    exact (List.mem_filter.1 ha).2
  constructor
  · intro h
    have hsub : ((l.take n).filter q).Sublist (l.filter q) := (List.take_sublist n l).filter q
    rw [List.filter_eq_self.2 h,hfirst] at hsub
    have hlen := hsub.length_le
    rw [List.length_take,List.length_take,Nat.min_eq_left hm] at hlen
    exact hlen
  · intro hle a ha
    refine hpass a ?_
    rw [List.take_eq_take_min] at ha
    exact List.take_subset_take_left l hle ha

/-- Two first parts of a list are shown alike only if they are the same and so is each entry. -/
theorem map_take_eq_iff (f g : α → β) (l : List α) (i j : Nat) :
    (l.take i).map f = (l.take j).map g ↔
      l.take i = l.take j ∧ ∀ a ∈ l.take j, f a = g a := by
  constructor
  · intro h
    have hlen := congrArg List.length h
    rw [List.length_map,List.length_map,List.length_take,List.length_take] at hlen
    have hsame : l.take i = l.take j := List.take_eq_take_iff.2 hlen
    rw [hsame] at h
    exact ⟨hsame,fun a ha => List.map_inj_left.1 h a ha⟩
  · rintro ⟨hsame,hentry⟩
    rw [hsame]
    exact List.map_congr_left hentry

end KeyRange
