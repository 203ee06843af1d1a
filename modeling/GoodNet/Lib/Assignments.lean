import Mathlib.Data.List.Basic
set_option autoImplicit false

/-! Statements that assign to the fields of a record one after the other, any of which may throw
and leave it half changed. Where each of them ends, a run gives every field the last value that
was assigned to it. -/

namespace Assignments

/-- A statement on a record; false where it throws, with what has been assigned by then. -/
abbrev Stmt (σ : Type) := σ → Bool × σ

variable {σ ι ν ρ : Type}

def runAll : List (Stmt σ) → Stmt σ
  | [], d => (true,d)
  | s :: ss, d => if (s d).1 then runAll ss (s d).2 else (false,(s d).2)

/-- The statement ends, gives the fields their new values, where there are any, and leaves what
is not a field as it is. -/
def Sets (value : σ → ι → ν) (rest : σ → ρ) (s : Stmt σ) (new : ι → Option ν) : Prop :=
  ∀ d, (s d).1 = true ∧ rest (s d).2 = rest d ∧
    ∀ g, value (s d).2 g = (new g).getD (value d g)

variable {value : σ → ι → ν} {rest : σ → ρ} {s : Stmt σ} {ss : List (Stmt σ)}
  {new new' : ι → Option ν}

theorem Sets.congr (h : Sets value rest s new) (heq : ∀ g, new g = new' g) :
    Sets value rest s new' := by
  rwa [funext heq] at h

theorem sets_skip : Sets value rest (fun d => (true,d)) (fun _ => none) :=
  fun _ => ⟨rfl,rfl,fun _ => rfl⟩

theorem sets_nil : Sets value rest (runAll []) (fun _ => none) := sets_skip

/-- What is assigned later counts. -/
theorem Sets.cons (h : Sets value rest s new) (hs : Sets value rest (runAll ss) new') :
    Sets value rest (runAll (s :: ss)) (fun g => (new' g).or (new g)) := by
  intro d
  obtain ⟨hok,hrest,hvalue⟩ := h d
  obtain ⟨hok',hrest',hvalue'⟩ := hs (s d).2
  rw [runAll,if_pos hok]
  refine ⟨hok',hrest'.trans hrest,fun g => ?_⟩
  rw [hvalue',hvalue]
  cases hnew : new' g <;> simp [hnew]

/-- One field is given a value, if there is one. -/
theorem sets_assign [DecidableEq ι] {α : Type} {assign : α → σ → σ} {inj : α → ν} (f : ι)
    (x : Option α)
    (hvalue : ∀ v d g, value (assign v d) g = if g = f then inj v else value d g)
    (hrest : ∀ v d, rest (assign v d) = rest d) :
    Sets value rest (fun d => (true,x.elim d (fun v => assign v d)))
      (fun g => if g = f then x.map inj else none) := by
  intro d
  cases x with
  | none => exact ⟨rfl,rfl,fun g => by simp⟩
  | some v =>
    refine ⟨rfl,hrest v d,fun g => ?_⟩
    refine (hvalue v d g).trans ?_
    by_cases hg : g = f <;> simp [hg]

end Assignments
