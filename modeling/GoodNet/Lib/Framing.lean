import Mathlib.Data.List.Basic
import Mathlib.Tactic.Common
set_option autoImplicit false

/-! Cutting a stream into units. A scanner looks at the front of what has arrived and finds
a unit there, or a fault, or too little to tell; more input never changes the first two. -/

namespace Framing

inductive Verdict where
  | short
  | bad
  | unit (n : Nat)
  deriving DecidableEq, Repr

structure Scanner (α : Type) where
  look : List α → Verdict
  unit_pos : ∀ {b n}, look b = .unit n → 0 < n
  unit_le : ∀ {b n}, look b = .unit n → n ≤ b.length
  unit_append : ∀ {b n}, look b = .unit n → ∀ c, look (b ++ c) = .unit n
  bad_append : ∀ {b}, look b = .bad → ∀ c, look (b ++ c) = .bad

section
variable {α : Type} {s : Scanner α} {a b c r r' : List α} {us vs : List (List α)}

/-- Nothing can be cut off the front. -/
def Scanner.Stuck (s : Scanner α) (b : List α) : Prop := ∀ n, s.look b ≠ .unit n

theorem Scanner.stuck_of_bad (h : s.look b = .bad) : s.Stuck b := by
  intro n hn
  rw [h] at hn
  cases hn

/-- The units are cut off the front one after the other until that is no longer possible. -/
inductive Cuts (s : Scanner α) : List α → List (List α) → List α → Prop where
  | stop {b : List α} (h : s.Stuck b) : Cuts s b [] b
  | unit {b rest : List α} {n : Nat} {us : List (List α)} (h : s.look b = .unit n)
      (ht : Cuts s (b.drop n) us rest) : Cuts s b (b.take n :: us) rest

theorem Cuts.flatten (h : Cuts s b us r) : us.flatten ++ r = b := by
  induction h with
  | stop _ => rfl
  | unit _ _ ih => rw [List.flatten_cons,List.append_assoc,ih,List.take_append_drop]

theorem Cuts.stuck (h : Cuts s b us r) : s.Stuck r := by
  induction h with
  | stop h => exact h
  | unit _ _ ih => exact ih

theorem Cuts.length_le (h : Cuts s b us r) : us.length ≤ b.length := by
  induction h with
  | stop _ => exact Nat.zero_le _
  | unit hv _ ih =>
    have hpos := s.unit_pos hv
    have hle := s.unit_le hv
    rw [List.length_drop] at ih
    rw [List.length_cons]
    omega

def Scanner.cutWithin (s : Scanner α) : Nat → List α → List (List α) × List α
  | 0, b => ([],b)
  | fuel+1, b =>
    match s.look b with
    | .unit n => (b.take n :: (s.cutWithin fuel (b.drop n)).1,(s.cutWithin fuel (b.drop n)).2)
    | _ => ([],b)

/-- The cut of an input: it exists and, below, is the only one. -/
def Scanner.cut (s : Scanner α) (b : List α) : List (List α) × List α := s.cutWithin b.length b

theorem Scanner.cuts_within (s : Scanner α) {fuel : Nat} {b : List α} (hf : b.length ≤ fuel) :
    Cuts s b (s.cutWithin fuel b).1 (s.cutWithin fuel b).2 := by
  induction fuel generalizing b with
  | zero =>
    refine .stop (fun n hn => ?_)
    have hpos := s.unit_pos hn
    have hle := s.unit_le hn
    omega
  | succ fuel ih =>
    cases hv : s.look b with
    | short =>
      simp only [cutWithin,hv]
      exact .stop (fun n hn => by rw [hv] at hn; cases hn)
    | bad =>
      simp only [cutWithin,hv]
      exact .stop (s.stuck_of_bad hv)
    | unit n =>
      have hpos := s.unit_pos hv
      have hle := s.unit_le hv
      simp only [cutWithin,hv]
      exact .unit hv (ih (by rw [List.length_drop]; omega))

theorem Scanner.cuts (s : Scanner α) (b : List α) : Cuts s b (s.cut b).1 (s.cut b).2 :=
  s.cuts_within (Nat.le_refl _)

theorem Cuts.unique (h : Cuts s b us r) (h' : Cuts s b vs r') : us = vs ∧ r = r' := by
  induction h generalizing vs with
  | stop hs =>
    cases h' with
    | stop _ => exact ⟨rfl,rfl⟩
    | unit hv _ => exact absurd hv (hs _)
  | unit hv _ ih =>
    cases h' with
    | stop hs => exact absurd hv (hs _)
    | unit hv' ht' =>
      rw [hv] at hv'
      cases hv'
      obtain ⟨rfl,hr⟩ := ih ht'
      exact ⟨rfl,hr⟩

/-- Where nothing can be cut off, the cut is that. -/
theorem Scanner.cut_stuck (h : s.Stuck b) : s.cut b = ([],b) := by
  obtain ⟨hunits,hrest⟩ := (s.cuts b).unique (.stop h)
  exact Prod.ext hunits hrest

/-- Cutting what has arrived and later the remainder together with the next piece is
cutting everything at once. -/
theorem Cuts.append (h : Cuts s a us r) (h' : Cuts s (r ++ c) vs r') :
    Cuts s (a ++ c) (us ++ vs) r' := by
  induction h with
  | stop _ => exact h'
  | @unit b rest n us hv _ ih =>
    have hle := s.unit_le hv
    have htail : Cuts s ((b ++ c).drop n) (us ++ vs) r' := by
      rw [List.drop_append_of_le_length hle]
      exact ih h'
    have hunit := Cuts.unit (s.unit_append hv c) htail
    rwa [List.take_append_of_le_length hle] at hunit

/-- A fault stays where it is whatever follows. -/
theorem Cuts.bad_append (h : Cuts s a us r) (hb : s.look r = .bad) (c : List α) :
    Cuts s (a ++ c) us (r ++ c) := by
  have hstop : Cuts s (r ++ c) [] (r ++ c) := .stop (s.stuck_of_bad (s.bad_append hb c))
  simpa using h.append hstop

/-- Pieces that are units by themselves are found again in their concatenation. -/
theorem Cuts.of_units (hu : ∀ u ∈ us, s.look u = .unit u.length) (hr : s.Stuck r) :
    Cuts s (us.flatten ++ r) us r := by
  induction us with
  | nil => exact .stop hr
  | cons u us ih =>
    have htail := ih (fun v hv => hu v (List.mem_cons_of_mem u hv))
    have hhead := s.unit_append (hu u List.mem_cons_self) (us.flatten ++ r)
    have hdrop : (u ++ (us.flatten ++ r)).drop u.length = us.flatten ++ r := List.drop_left
    rw [← hdrop] at htail
    have hunit := Cuts.unit hhead htail
    rwa [List.take_left,← List.append_assoc] at hunit

end

/-- Nonempty ranges one after the other, between two bounds. -/
def Laid (lo hi : Nat) : List (Nat × Nat) → Prop
  | [] => lo ≤ hi
  | a :: as => lo ≤ a.1 ∧ a.1 < a.2 ∧ Laid a.2 hi as

theorem Laid.append {lo mid hi : Nat} {as bs : List (Nat × Nat)} (h : Laid lo mid as)
    (h' : Laid mid hi bs) : Laid lo hi (as ++ bs) := by
  induction as generalizing lo with
  | nil =>
    cases bs with
    | nil => exact Nat.le_trans h h'
    | cons b bs => exact ⟨Nat.le_trans h h'.1,h'.2⟩
  | cons a as ih => exact ⟨h.1,h.2.1,ih h.2.2⟩

theorem Laid.weaken {lo lo' hi : Nat} {as : List (Nat × Nat)} (h : Laid lo hi as)
    (hlo : lo' ≤ lo) : Laid lo' hi as := by
  cases as with
  | nil => exact Nat.le_trans hlo h
  | cons a as => exact ⟨Nat.le_trans hlo h.1,h.2⟩

theorem Laid.lower {lo hi : Nat} {as : List (Nat × Nat)} (h : Laid lo hi as) :
    ∀ a ∈ as, lo ≤ a.1 := by
  induction as generalizing lo with
  | nil => exact fun a ha => by cases ha
  | cons b as ih =>
    intro a ha
    have hstart := h.1
    have hlen := h.2.1
    rcases List.mem_cons.mp ha with rfl | ha
    · exact hstart
    · have htail := ih h.2.2 a ha
      omega

theorem Laid.nodup {lo hi : Nat} {as : List (Nat × Nat)} (h : Laid lo hi as) : as.Nodup := by
  induction as generalizing lo with
  | nil => exact List.nodup_nil
  | cons a as ih =>
    refine List.nodup_cons.mpr ⟨fun ha => ?_,ih h.2.2⟩
    have hbehind := h.2.2.lower a ha
    exact absurd h.2.1 (Nat.not_lt.mpr hbehind)

end Framing
