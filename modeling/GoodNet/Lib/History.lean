import Mathlib.Logic.Relation
set_option autoImplicit false

/-! Histories, newest entry first, and runs of small steps. -/

namespace History

variable {ε σ : Type}

/-- Every entry stands in relation `P` to what was there before it. -/
def Justified (P : ε → List ε → Prop) : List ε → Prop
  | [] => True
  | e :: older => P e older ∧ Justified P older

theorem Justified.append {P : ε → List ε → Prop} {new old : List ε} (h : Justified P old)
    (hn : ∀ e ∈ new, ∀ older, P e older) : Justified P (new ++ old) := by
  induction new with
  | nil => exact h
  | cons e new ih =>
    have htail := ih (fun x hx => hn x (List.mem_cons_of_mem e hx))
    exact ⟨hn e List.mem_cons_self _,htail⟩

theorem Justified.suffix {P : ε → List ε → Prop} {newer older : List ε}
    (h : Justified P (newer ++ older)) : Justified P older := by
  induction newer with
  | nil => exact h
  | cons x newer ih => exact ih h.2

theorem Justified.split {P : ε → List ε → Prop} {newer older : List ε} {e : ε}
    (h : Justified P (newer ++ e :: older)) : P e older := h.suffix.1

theorem Justified.mem {P : ε → List ε → Prop} {log : List ε} {e : ε} (h : Justified P log)
    (he : e ∈ log) : ∃ newer older, log = newer ++ e :: older ∧ P e older := by
  obtain ⟨newer,older,rfl⟩ := List.append_of_mem he
  exact ⟨newer,older,rfl,h.split⟩

/-- Entries of one kind, added in two goes. -/
theorem added_trans {P : ε → Prop} {a b c : List ε}
    (h : ∃ new, b = new ++ a ∧ ∀ e ∈ new, P e) (h' : ∃ new, c = new ++ b ∧ ∀ e ∈ new, P e) :
    ∃ new, c = new ++ a ∧ ∀ e ∈ new, P e := by
  obtain ⟨first,rfl,hfirst⟩ := h
  obtain ⟨second,rfl,hsecond⟩ := h'
  exact ⟨second ++ first,(List.append_assoc _ _ _).symm,List.forall_mem_append.2 ⟨hsecond,hfirst⟩⟩

/-- What a single step preserves, a run of steps preserves, also when every step is promised
something about the history it leaves behind. Histories only grow, so the promise for the
last state covers the earlier ones. -/
theorem invariant_under {R : σ → σ → Prop} {I : σ → Prop} {log : σ → List ε} {C : ε → Prop}
    (hgrow : ∀ a b, R a b → ∀ e ∈ log a, e ∈ log b)
    (hstep : ∀ a b, R a b → (∀ e ∈ log b, C e) → I a → I b) {a b : σ}
    (h : Relation.ReflTransGen R a b) (ha : I a) (hc : ∀ e ∈ log b, C e) : I b := by
  induction h with
  | refl => exact ha
  | tail _ hs ih => exact hstep _ _ hs hc (ih (fun e he => hc e (hgrow _ _ hs e he)))

end History
