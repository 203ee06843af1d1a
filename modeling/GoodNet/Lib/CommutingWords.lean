import Mathlib.Data.List.Basic
set_option autoImplicit false

/-! Words put one behind the other in an order that is not fixed. The outcome is the same in
every order exactly when any two of the words commute; words of one length only commute when
they are equal. -/

namespace CommutingWords

variable {α β : Type} {f : β → List α} {l : List β}

theorem flatMap_eq_foldr (f : β → List α) (l : List β) :
    l.flatMap f = l.foldr (fun b rest => f b ++ rest) [] := by
  induction l with
  | nil => rfl
  | cons b l ih => rw [List.flatMap_cons,ih,List.foldr_cons]

theorem flatMap_eq_of_perm {l' : List β} (hc : ∀ a ∈ l, ∀ b ∈ l, f a ++ f b = f b ++ f a)
    (h : l.Perm l') : l.flatMap f = l'.flatMap f := by
  rw [flatMap_eq_foldr,flatMap_eq_foldr]
  refine h.foldr_eq' (fun a ha b hb rest => ?_) []
  rw [← List.append_assoc,← List.append_assoc,hc a ha b hb]

/-- Two elements of a list can be brought to its front, in either order. -/
theorem perm_front {a b : β} (ha : a ∈ l) (hb : b ∈ l) (hab : a ≠ b) :
    ∃ rest, l.Perm (a :: b :: rest) := by
  obtain ⟨s,t,rfl⟩ := List.append_of_mem ha
  have hb' : b ∈ s ++ t := by
    rcases List.mem_append.mp hb with hs | ht
    · exact List.mem_append.mpr (.inl hs)
    · rcases List.mem_cons.mp ht with rfl | ht
      · exact absurd rfl hab
      · exact List.mem_append.mpr (.inr ht)
  obtain ⟨s',t',hst⟩ := List.append_of_mem hb'
  refine ⟨s' ++ t',List.perm_middle.trans (.cons a ?_)⟩
  rw [hst]
  exact List.perm_middle

theorem append_comm_of_perm (h : ∀ l' : List β, l'.Perm l → l'.flatMap f = l.flatMap f) :
    ∀ a ∈ l, ∀ b ∈ l, f a ++ f b = f b ++ f a := by
  intro a ha b hb
  by_cases hab : a = b
  · rw [hab]
  · obtain ⟨rest,hrest⟩ := perm_front ha hb hab
    have hfirst := h _ hrest.symm
    have hsecond := h _ ((List.Perm.swap a b rest).trans hrest.symm)
    have hboth := hfirst.trans hsecond.symm
    simp only [List.flatMap_cons,← List.append_assoc] at hboth
    exact List.append_cancel_right hboth

theorem flatMap_perm_iff :
    (∀ l' : List β, l'.Perm l → l'.flatMap f = l.flatMap f) ↔
      ∀ a ∈ l, ∀ b ∈ l, f a ++ f b = f b ++ f a :=
  ⟨append_comm_of_perm,fun hc _ h => (flatMap_eq_of_perm hc h.symm).symm⟩

theorem eq_of_append_comm {x y : List α} (hlen : x.length = y.length) (h : x ++ y = y ++ x) :
    x = y := (List.append_inj h hlen).1

end CommutingWords
