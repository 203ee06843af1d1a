import Mathlib.Data.Nat.Basic
import Mathlib.Order.WellFounded
set_option autoImplicit false

/-! A function that calls itself last, or not at all, with a bound on the depth. Where a rank falls
with every call the calls end, and a bound above the rank is never met. -/

namespace Nesting

variable {σ ρ : Type} {next : σ → Option σ} {f : Nat → σ → ρ} {rank : σ → Nat}

/-- With depth left, `f` is what it is at depth one, or the call it ends in. -/
def Unfolds (next : σ → Option σ) (f : Nat → σ → ρ) : Prop :=
  ∀ n x, f (n+1) x = match next x with
    | none => f 1 x
    | some y => f n y

theorem Unfolds.depth (h : Unfolds next f) (hrank : ∀ x y, next x = some y → rank y < rank x)
    {x : σ} {n m : Nat} (hn : rank x < n) (hm : rank x < m) : f n x = f m x := by
  induction n generalizing x m with
  | zero => omega
  | succ n ih =>
    cases m with
    | zero => omega
    | succ m =>
      rw [h n x,h m x]
      cases hx : next x with
      | none => rfl
      | some y =>
        have hlt := hrank x y hx
        exact ih (by omega) (by omega)

theorem wellFounded (hrank : ∀ x y, next x = some y → rank y < rank x) :
    WellFounded (fun y x => next x = some y) :=
  Subrelation.wf (fun {y x} h => hrank x y h) (InvImage.wf rank wellFounded_lt)

end Nesting
