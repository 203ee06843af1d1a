import Mathlib.Data.List.Basic
set_option autoImplicit false

/-! Threads at work on shared state. A run is a list of steps, a discipline is a promise about
every step made in the state before it, and a thread's call is found among the calls in
progress by the thread it belongs to. -/

namespace Interleaving

variable {σ ε : Type}

def run (act : σ → ε → σ) (s : σ) (steps : List ε) : σ := steps.foldl act s

/-- Every step of the run is promised `P` in the state it is taken in. -/
def Along (act : σ → ε → σ) (P : σ → ε → Prop) (s : σ) : List ε → Prop
  | [] => True
  | a :: rest => P s a ∧ Along act P (act s a) rest

instance decidableAlong (act : σ → ε → σ) (P : σ → ε → Prop) [∀ s a, Decidable (P s a)] :
    (s : σ) → (steps : List ε) → Decidable (Along act P s steps)
  | _, [] => inferInstanceAs (Decidable True)
  | s, a :: rest => @instDecidableAnd _ _ _ (decidableAlong act P (act s a) rest)

/-- What every promised step preserves, a promised run preserves. -/
theorem Along.invariant {act : σ → ε → σ} {P : σ → ε → Prop} {I : σ → Prop}
    (hstep : ∀ s a, I s → P s a → I (act s a)) {s : σ} (hs : I s) {steps : List ε}
    (h : Along act P s steps) : I (run act s steps) := by
  induction steps generalizing s with
  | nil => exact hs
  | cons a rest ih => exact ih (hstep s a hs h.1) h.2

/-- A promise that gives another one, step by step under an invariant, gives it along the run. -/
theorem Along.promises {act : σ → ε → σ} {P Q : σ → ε → Prop} {I : σ → Prop}
    (hkeep : ∀ s a, I s → P s a → I (act s a)) (hstep : ∀ s a, I s → P s a → Q s a) {s : σ}
    (hs : I s) {steps : List ε} (h : Along act P s steps) : Along act Q s steps := by
  induction steps generalizing s with
  | nil => trivial
  | cons a rest ih => exact ⟨hstep s a hs h.1,ih (hkeep s a hs h.1) h.2⟩

/-- Two promises that come to the same under an invariant that one of them keeps come to the same
along a run. -/
theorem Along.congr {act : σ → ε → σ} {P Q R : σ → ε → Prop} {I : σ → Prop}
    (hstep : ∀ s a, I s → R s a → (P s a ↔ Q s a))
    (hkeep : ∀ s a, I s → R s a → Q s a → I (act s a)) {s : σ} (hs : I s) {steps : List ε}
    (h : Along act R s steps) : Along act P s steps ↔ Along act Q s steps := by
  induction steps generalizing s with
  | nil => exact Iff.rfl
  | cons a rest ih =>
    have hfirst := hstep s a hs h.1
    constructor
    · rintro ⟨hp,hrest⟩
      exact ⟨hfirst.1 hp,(ih (hkeep s a hs h.1 (hfirst.1 hp)) h.2).1 hrest⟩
    · rintro ⟨hq,hrest⟩
      exact ⟨hfirst.2 hq,(ih (hkeep s a hs h.1 hq) h.2).2 hrest⟩

/-- The promise about a step inside a run is made in the state the steps before it lead to. -/
theorem Along.inside {act : σ → ε → σ} {P : σ → ε → Prop} {s : σ} {before rest : List ε} {a : ε}
    (h : Along act P s (before ++ a :: rest)) : P (run act s before) a := by
  induction before generalizing s with
  | nil => exact h.1
  | cons b before ih => exact ih h.2

/-- A promised run was promised up to every point of it. -/
theorem Along.front {act : σ → ε → σ} {P : σ → ε → Prop} {s : σ} {before rest : List ε}
    (h : Along act P s (before ++ rest)) : Along act P s before := by
  induction before generalizing s with
  | nil => trivial
  | cons a before ih => exact ⟨h.1,ih h.2⟩

/-- What every step preserves, every run preserves. -/
theorem run_invariant {act : σ → ε → σ} {I : σ → Prop} (hstep : ∀ s a, I s → I (act s a)) {s : σ}
    (hs : I s) (steps : List ε) : I (run act s steps) := by
  induction steps generalizing s with
  | nil => exact hs
  | cons a rest ih => exact ih (hstep s a hs)

/-- A number that no step makes less ends where it began exactly if every step leaves it alone. -/
theorem Along.of_measure {act : σ → ε → σ} {P : σ → ε → Prop} {I : σ → Prop} {m : σ → Nat}
    (hkeep : ∀ s a, I s → I (act s a)) (hgrow : ∀ s a, I s → m s ≤ m (act s a))
    (hsame : ∀ s a, I s → (m (act s a) = m s ↔ P s a)) {s : σ} (hs : I s) (steps : List ε) :
    m (run act s steps) = m s ↔ Along act P s steps := by
  have hgrows : ∀ (steps : List ε) (s : σ), I s → m s ≤ m (run act s steps) := by
    intro steps
    induction steps with
    | nil => exact fun s _ => Nat.le_refl (m s)
    | cons a rest ih => exact fun s hs => Nat.le_trans (hgrow s a hs) (ih (act s a) (hkeep s a hs))
  induction steps generalizing s with
  | nil => exact iff_of_true rfl trivial
  | cons a rest ih =>
    have hfirst := hgrow s a hs
    have hrest := hgrows rest (act s a) (hkeep s a hs)
    refine Iff.trans ?_ (and_congr (hsame s a hs) (ih (hkeep s a hs)))
    change m (run act (act s a) rest) = m s ↔ _
    omega

/-- The first entry that `p` holds of, and the others. -/
def pick (p : ε → Bool) : List ε → Option (ε × List ε)
  | [] => none
  | a :: l => if p a then some (a,l) else (pick p l).map (fun found => (found.1,a :: found.2))

theorem pick_some {p : ε → Bool} {l rest : List ε} {a : ε} (h : pick p l = some (a,rest)) :
    p a = true ∧ ∃ l₁ l₂, l = l₁ ++ a :: l₂ ∧ rest = l₁ ++ l₂ := by
  induction l generalizing rest with
  | nil => cases h
  | cons b l ih =>
    rw [pick] at h
    split at h
    · rename_i hb
      cases h
      exact ⟨hb,[],l,rfl,rfl⟩
    · obtain ⟨⟨c,rest'⟩,hpick,heq⟩ := Option.map_eq_some_iff.mp h
      cases heq
      obtain ⟨ha,l₁,l₂,rfl,rfl⟩ := ih hpick
      exact ⟨ha,b :: l₁,l₂,rfl,rfl⟩

theorem pick_perm {p : ε → Bool} {l rest : List ε} {a : ε} (h : pick p l = some (a,rest)) :
    p a = true ∧ a ∈ l ∧ l.Perm (a :: rest) := by
  obtain ⟨ha,l₁,l₂,rfl,rfl⟩ := pick_some h
  exact ⟨ha,by simp,List.perm_middle⟩

theorem pick_find (p : ε → Bool) (l : List ε) : (pick p l).map Prod.fst = l.find? p := by
  induction l with
  | nil => rfl
  | cons a l ih =>
    cases hp : p a with
    | true => simp [pick,hp]
    | false => simp [pick,hp,← ih,Function.comp_def]

/-- Those that are left were there before. -/
theorem mem_of_mem_rest {l₁ l₂ : List ε} {a b : ε} (h : b ∈ l₁ ++ l₂) : b ∈ l₁ ++ a :: l₂ := by
  rcases List.mem_append.mp h with h | h
  · exact List.mem_append_left _ h
  · exact List.mem_append_right _ (List.mem_cons_of_mem a h)

end Interleaving
