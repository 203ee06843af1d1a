import Mathlib.Data.List.Basic
set_option autoImplicit false

/-! A choice by a list of preferences: the earliest entry that will do. -/

namespace Preference

variable {α : Type} {prefs : List α} {p q : α → Prop} {a : α}

/-- `a` will do, and nothing listed before it does. -/
def Earliest (prefs : List α) (p : α → Prop) (a : α) : Prop :=
  ∃ before after, prefs = before ++ a :: after ∧ p a ∧ ∀ b ∈ before, ¬ p b

theorem Earliest.congr (h : Earliest prefs p a) (hpq : ∀ b, p b ↔ q b) : Earliest prefs q a := by
  obtain ⟨before,after,hsplit,ha,hb⟩ := h
  exact ⟨before,after,hsplit,(hpq a).1 ha,fun b hm hq => hb b hm ((hpq b).2 hq)⟩

theorem exists_earliest (h : ∃ a ∈ prefs, p a) : ∃ a, Earliest prefs p a := by
  induction prefs with
  | nil => simp at h
  | cons c prefs ih =>
    by_cases hc : p c
    · exact ⟨c,[],prefs,rfl,hc,by simp⟩
    · obtain ⟨a,ha,hp⟩ := h
      rcases List.mem_cons.1 ha with rfl | ha
      · exact absurd hp hc
      · obtain ⟨a,before,after,hsplit,ha,hbefore⟩ := ih ⟨a,ha,hp⟩
        refine ⟨a,c :: before,after,by rw [hsplit]; rfl,ha,fun b hb => ?_⟩
        rcases List.mem_cons.1 hb with rfl | hb
        · exact hc
        · exact hbefore b hb

/-- `find?` makes that choice. -/
theorem Earliest.find? {test : α → Bool} (h : Earliest prefs (fun a => test a = true) a) :
    prefs.find? test = some a := by
  obtain ⟨before,after,hsplit,ha,hbefore⟩ := h
  rw [hsplit,List.find?_append,List.find?_eq_none.2 hbefore,Option.none_or,
    List.find?_cons_of_pos ha]

end Preference
