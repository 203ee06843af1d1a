import GoodNet.Lib.Interleaving
import Mathlib.Logic.Function.Basic
set_option autoImplicit false

/-! A value that is published as a whole. A writer takes the lock, loads the value, works on a copy
of it, stores the copy and unlocks; whoever reads loads the value and takes no lock. -/

namespace CopyOnWrite
open Interleaving

variable {α ε : Type}

/-- How far a thread has come with an update. -/
inductive Stage (α ε : Type) where
  | waiting (u : ε)
  | locked (u : ε)
  | copying (u : ε) (old : α)
  | stored

/-- `begun` and `published` are the updates so far with their threads, the oldest first. -/
structure Cell (α ε : Type) where
  value : α
  holder : Option Nat := none
  stage : Nat → Option (Stage α ε) := fun _ => none
  begun : List (Nat × ε) := []
  published : List (Nat × ε) := []

inductive Step (ε : Type) where
  | begin (thread : Nat) (u : ε)
  | lock (thread : Nat)
  | load (thread : Nat)
  | store (thread : Nat)
  | unlock (thread : Nat)

def Cell.moved (c : Cell α ε) (thread : Nat) (s : Option (Stage α ε)) : Cell α ε :=
  { c with stage := Function.update c.stage thread s }

/-- A step that its thread cannot take leaves everything as it is. -/
def Cell.act (apply : ε → α → α) (c : Cell α ε) : Step ε → Cell α ε
  | .begin t u =>
    match c.stage t with
    | none => { c.moved t (some (.waiting u)) with begun := c.begun ++ [(t,u)] }
    | some _ => c
  | .lock t =>
    match c.holder, c.stage t with
    | none, some (.waiting u) => { c.moved t (some (.locked u)) with holder := some t }
    | _, _ => c
  | .load t =>
    match c.stage t with
    | some (.locked u) => c.moved t (some (.copying u c.value))
    | _ => c
  | .store t =>
    match c.stage t with
    | some (.copying u old) =>
      { c.moved t (some .stored) with value := apply u old, published := c.published ++ [(t,u)] }
    | _ => c
  | .unlock t =>
    match c.stage t with
    | some .stored => { c.moved t none with holder := none }
    | _ => c

/-- The update that a step begins, if its thread is free. -/
def Cell.begins (c : Cell α ε) : Step ε → List (Nat × ε)
  | .begin t u => if (c.stage t).isNone then [(t,u)] else []
  | .lock _ | .load _ | .store _ | .unlock _ => []

/-- Holds the lock. -/
def Stage.inside : Stage α ε → Bool
  | .waiting _ => false
  | _ => true

/-- The update that is still to be stored. -/
def Stage.ahead : Stage α ε → Option ε
  | .waiting u => some u
  | .locked u => some u
  | .copying u _ => some u
  | .stored => none

def Cell.pending (c : Cell α ε) (thread : Nat) : Option ε := (c.stage thread).bind Stage.ahead

/-- One update after another. -/
def replay (apply : ε → α → α) (a : α) (l : List (Nat × ε)) : α :=
  l.foldl (fun a e => apply e.2 a) a

def ofThread (thread : Nat) (l : List (Nat × ε)) : List ε :=
  l.filterMap (fun e => if e.1 = thread then some e.2 else none)

/-- The value is what the stored updates make one after another, no copy is out of date, and a
thread's updates are stored once each in its own order. -/
structure Cell.Sound (apply : ε → α → α) (a : α) (c : Cell α ε) : Prop where
  value : c.value = replay apply a c.published
  held : ∀ t s, c.stage t = some s → s.inside = true → c.holder = some t
  fresh : ∀ t u old, c.stage t = some (.copying u old) → old = c.value
  order : ∀ t, ofThread t c.begun = ofThread t c.published ++ (c.pending t).toList

section
variable {apply : ε → α → α} {a : α} {c : Cell α ε}

@[simp] theorem moved_stage (c : Cell α ε) (t : Nat) (s : Option (Stage α ε)) :
    (c.moved t s).stage t = s := by simp [Cell.moved]

theorem moved_stage_ne (c : Cell α ε) {t t' : Nat} (s : Option (Stage α ε)) (h : t' ≠ t) :
    (c.moved t s).stage t' = c.stage t' := by simp [Cell.moved,h]

@[simp] theorem replay_snoc (t : Nat) (u : ε) (l : List (Nat × ε)) :
    replay apply a (l ++ [(t,u)]) = apply u (replay apply a l) := by simp [replay]

@[simp] theorem ofThread_snoc (t : Nat) (u : ε) (l : List (Nat × ε)) :
    ofThread t (l ++ [(t,u)]) = ofThread t l ++ [u] := by simp [ofThread]

theorem ofThread_snoc_ne {t t' : Nat} (u : ε) (l : List (Nat × ε)) (h : t' ≠ t) :
    ofThread t' (l ++ [(t,u)]) = ofThread t' l := by simp [ofThread,Ne.symm h]

/-- What an updated map holds at a key is the new value or what was there. -/
theorem update_eq_some {κ ι : Type} [DecidableEq κ] {f g : κ → Option ι} {t t' : κ} {o : Option ι}
    {v : ι} (hf : f = Function.update g t o) (hv : f t' = some v) :
    o = some v ∧ t' = t ∨ t' ≠ t ∧ g t' = some v := by
  rw [hf] at hv
  by_cases ht : t' = t
  · subst ht
    exact .inl ⟨by simpa using hv,rfl⟩
  · exact .inr ⟨ht,by simpa [ht] using hv⟩

theorem moved_pending (c : Cell α ε) (t : Nat) (s : Option (Stage α ε)) :
    (c.moved t s).pending = Function.update c.pending t (s.bind Stage.ahead) := by
  funext t'
  by_cases ht : t' = t
  · subst ht
    simp [Cell.pending]
  · simp [Cell.pending,moved_stage_ne c s ht,ht]

/-- A thread goes on with the update it has ahead of it. -/
theorem moved_pending_same {c : Cell α ε} {t : Nat} {s : Option (Stage α ε)}
    (h : s.bind Stage.ahead = c.pending t) : (c.moved t s).pending = c.pending := by
  rw [moved_pending,h,Function.update_eq_self]

/-- Two threads are not inside at once. -/
theorem Cell.Sound.alone (h : c.Sound apply a) {t t' : Nat} {s s' : Stage α ε}
    (hs : c.stage t = some s) (hi : s.inside = true) (hs' : c.stage t' = some s')
    (hi' : s'.inside = true) : t' = t := by
  have hholder := h.held t s hs hi
  rw [h.held t' s' hs' hi'] at hholder
  exact Option.some.inj hholder

/-- A step of `t`: what it does to lock and value, it does while nobody else is inside. -/
theorem Cell.Sound.change (h : c.Sound apply a) {c' : Cell α ε} {t : Nat}
    (hstage : ∀ t', t' ≠ t → c'.stage t' = c.stage t')
    (hvalue : c'.value = replay apply a c'.published)
    (hself : ∀ x, c'.stage t = some x → x.inside = true →
      c'.holder = some t ∧ ∀ u old, x = .copying u old → old = c'.value)
    (hothers : ∀ t' x, t' ≠ t → c.stage t' = some x → x.inside = true →
      c'.holder = c.holder ∧ c'.value = c.value)
    (horder : ∀ t', ofThread t' c'.begun = ofThread t' c'.published ++ (c'.pending t').toList) :
    c'.Sound apply a := by
  refine ⟨hvalue,fun t' x hx hi => ?_,fun t' u old hx => ?_,horder⟩
  · by_cases ht : t' = t
    · subst ht
      exact (hself x hx hi).1
    · rw [hstage t' ht] at hx
      rw [(hothers t' x ht hx hi).1]
      exact h.held t' x hx hi
  · by_cases ht : t' = t
    · subst ht
      exact (hself _ hx rfl).2 u old rfl
    · rw [hstage t' ht] at hx
      rw [(hothers t' _ ht hx rfl).2]
      exact h.fresh t' u old hx

theorem Cell.Sound.act (h : c.Sound apply a) (e : Step ε) : (c.act apply e).Sound apply a := by
  cases e with
  | begin t u =>
    unfold Cell.act
    dsimp only
    split
    · rename_i hidle
      refine h.change (fun t' ht => moved_stage_ne c _ ht) h.value (fun x hx hi => ?_)
        (fun t' x ht hx hi => ⟨rfl,rfl⟩) (fun t' => ?_)
      · simp only [moved_stage,Option.some.injEq] at hx
        subst hx
        cases hi
      · have horder := h.order t'
        by_cases ht : t' = t
        · subst ht
          simpa [Cell.pending,hidle,Cell.moved,Stage.ahead] using horder
        · simpa [Cell.pending,Cell.moved,ht,ofThread_snoc_ne] using horder
    · exact h
  | lock t =>
    unfold Cell.act
    dsimp only
    split
    · rename_i u hfree hw
      refine h.change (fun t' ht => moved_stage_ne c _ ht) h.value (fun x hx hi => ?_)
        (fun t' x ht hx hi => ?_) (fun t' => ?_)
      · simp only [moved_stage,Option.some.injEq] at hx
        subst hx
        exact ⟨rfl,by simp⟩
      · -- the lock was free
        have hholder := h.held t' x hx hi
        rw [hfree] at hholder
        cases hholder
      · have hsame : (c.moved t (some (.locked u))).pending = c.pending :=
          moved_pending_same (by simp [Cell.pending,hw,Stage.ahead])
        exact hsame ▸ h.order t'
    · exact h
  | load t =>
    unfold Cell.act
    dsimp only
    split
    · rename_i u hl
      refine h.change (fun t' ht => moved_stage_ne c _ ht) h.value (fun x hx hi => ?_)
        (fun t' x ht hx hi => ⟨rfl,rfl⟩) (fun t' => ?_)
      · simp only [moved_stage,Option.some.injEq] at hx
        subst hx
        refine ⟨h.held t _ hl rfl,fun v old hv => ?_⟩
        cases hv
        rfl
      · have hsame : (c.moved t (some (.copying u c.value))).pending = c.pending :=
          moved_pending_same (by simp [Cell.pending,hl,Stage.ahead])
        exact hsame ▸ h.order t'
    · exact h
  | store t =>
    unfold Cell.act
    dsimp only
    split
    · rename_i u old hc
      refine h.change (fun t' ht => moved_stage_ne c _ ht) ?_ (fun x hx hi => ?_)
        (fun t' x ht hx hi => absurd (h.alone hc rfl hx hi) ht) (fun t' => ?_)
      · rw [replay_snoc,← h.value,h.fresh t u old hc]
      · simp only [moved_stage,Option.some.injEq] at hx
        subst hx
        exact ⟨h.held t _ hc rfl,by simp⟩
      · have horder := h.order t'
        by_cases ht : t' = t
        · subst ht
          simpa [Cell.pending,Cell.moved,hc,Stage.ahead] using horder
        · simpa [Cell.pending,Cell.moved,ht,ofThread_snoc_ne] using horder
    · exact h
  | unlock t =>
    unfold Cell.act
    dsimp only
    split
    · rename_i hd
      refine h.change (fun t' ht => moved_stage_ne c _ ht) h.value (fun x hx hi => ?_)
        (fun t' x ht hx hi => absurd (h.alone hd rfl hx hi) ht) (fun t' => ?_)
      · simp at hx
      · have hsame : (c.moved t none).pending = c.pending :=
          moved_pending_same (by simp [Cell.pending,hd,Stage.ahead])
        exact hsame ▸ h.order t'
    · exact h

/-- Only the beginning of an update and its store are seen from outside. -/
theorem Cell.act_cases (apply : ε → α → α) (c : Cell α ε) (e : Step ε) :
    ((c.act apply e).value = c.value ∧ (c.act apply e).published = c.published ∧
      (c.act apply e).begun = c.begun ∧ (c.act apply e).pending = c.pending) ∨
    (∃ t u, e = .begin t u ∧ c.stage t = none ∧ (c.act apply e).value = c.value ∧
      (c.act apply e).published = c.published ∧ (c.act apply e).begun = c.begun ++ [(t,u)] ∧
      (c.act apply e).pending = Function.update c.pending t (some u)) ∨
    (∃ t u old, e = .store t ∧ c.stage t = some (.copying u old) ∧
      (c.act apply e).value = apply u old ∧ (c.act apply e).published = c.published ++ [(t,u)] ∧
      (c.act apply e).begun = c.begun ∧
      (c.act apply e).pending = Function.update c.pending t none) := by
  cases e with
  | begin t u =>
    unfold Cell.act
    dsimp only
    split
    · rename_i hidle
      exact .inr (.inl ⟨t,u,rfl,hidle,rfl,rfl,rfl,moved_pending c t _⟩)
    · exact .inl ⟨rfl,rfl,rfl,rfl⟩
  | lock t =>
    unfold Cell.act
    dsimp only
    split
    · rename_i u _ hw
      exact .inl ⟨rfl,rfl,rfl,moved_pending_same (by simp [Cell.pending,hw,Stage.ahead])⟩
    · exact .inl ⟨rfl,rfl,rfl,rfl⟩
  | load t =>
    unfold Cell.act
    dsimp only
    split
    · rename_i u hl
      exact .inl ⟨rfl,rfl,rfl,moved_pending_same (by simp [Cell.pending,hl,Stage.ahead])⟩
    · exact .inl ⟨rfl,rfl,rfl,rfl⟩
  | store t =>
    unfold Cell.act
    dsimp only
    split
    · rename_i u old hc
      exact .inr (.inr ⟨t,u,old,rfl,hc,rfl,rfl,rfl,moved_pending c t _⟩)
    · exact .inl ⟨rfl,rfl,rfl,rfl⟩
  | unlock t =>
    unfold Cell.act
    dsimp only
    split
    · rename_i hd
      exact .inl ⟨rfl,rfl,rfl,moved_pending_same (by simp [Cell.pending,hd,Stage.ahead])⟩
    · exact .inl ⟨rfl,rfl,rfl,rfl⟩

theorem Cell.begun_act (apply : ε → α → α) (c : Cell α ε) (e : Step ε) :
    (c.act apply e).begun = c.begun ++ c.begins e := by
  cases e with
  | begin t u =>
    cases hs : c.stage t with
    | none => simp [Cell.act,Cell.begins,hs]
    | some x => simp [Cell.act,Cell.begins,hs]
  | lock t =>
    simp only [Cell.act,Cell.begins,List.append_nil]
    split
    · rfl
    · rfl
  | load t =>
    simp only [Cell.act,Cell.begins,List.append_nil]
    split
    · rfl
    · rfl
  | store t =>
    simp only [Cell.act,Cell.begins,List.append_nil]
    split
    · rfl
    · rfl
  | unlock t =>
    simp only [Cell.act,Cell.begins,List.append_nil]
    split
    · rfl
    · rfl

/-- What has been published stays and stays where it is. -/
theorem Cell.published_act (apply : ε → α → α) (c : Cell α ε) (e : Step ε) :
    c.published <+: (c.act apply e).published := by
  rcases c.act_cases apply e with ⟨_,hp,_⟩ | ⟨t,u,_,_,_,hp,_⟩ | ⟨t,u,old,_,_,_,hp,_⟩
  · simp [hp]
  · simp [hp]
  · rw [hp]
    exact List.prefix_append _ _

theorem sound_start (apply : ε → α → α) (a : α) : ({ value := a } : Cell α ε).Sound apply a :=
  ⟨rfl,fun _ _ h => by simp at h,fun _ _ _ h => by simp at h,
    fun _ => by simp [ofThread,Cell.pending]⟩

/-- A thread that has returned from its updates has published all of them. -/
theorem Cell.Sound.returned (h : c.Sound apply a) {t : Nat} (ht : c.stage t = none) :
    ofThread t c.begun = ofThread t c.published := by
  simpa [Cell.pending,ht] using h.order t

end

end CopyOnWrite
