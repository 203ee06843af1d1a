import Mathlib.Logic.Basic
import Mathlib.Tactic.Common
set_option autoImplicit false

/-! Two parties dial each other at once. Either connection takes three messages, dialler
first; whoever finishes one while the other is up refuses it, and word of that reaches both
ends in its own time. -/

namespace CrossedDials

inductive End where
  | pending
  | answered
  | up
  | refused
  | dropped
  deriving DecidableEq, Repr

inductive Message where
  | first
  | second
  | third
  deriving DecidableEq, Repr

/-- A connection: the end of the party that dialled, the end of the other one, the message
under way and whether an end is still to be told that the connection is closed. -/
structure Line where
  near : End
  far : End
  flight : Option Message
  tellNear : Bool
  tellFar : Bool
  deriving DecidableEq, Repr

def Line.opened : Line := ⟨.pending,.pending,some .first,false,false⟩

/-- What can happen to a connection `a` next to its rival `b`: the far end of `b` belongs to
the party that dialled `a`, and the near one to the party that is asked. A refusal by the
latter finds the other end of `b` still there. -/
inductive Move (a b : Line) : Line → Prop where
  | answer (hf : a.flight = some .first) (he : a.far = .pending) :
      Move a b { a with far := .answered, flight := some .second }
  | confirm (hf : a.flight = some .second) (he : a.near = .pending) (hr : b.far ≠ .up) :
      Move a b { a with near := .up, flight := some .third }
  | decline (hf : a.flight = some .second) (he : a.near = .pending) (hr : b.far = .up) :
      Move a b { a with near := .refused, flight := some .third, tellNear := true, tellFar := true }
  | finish (hf : a.flight = some .third) (he : a.far = .answered) (hr : b.near ≠ .up) :
      Move a b { a with far := .up, flight := none }
  | refuse (hf : a.flight = some .third) (he : a.far = .answered) (hr : b.near = .up)
      (hfar : b.far ≠ .refused ∧ b.far ≠ .dropped) :
      Move a b { a with far := .refused, flight := none, tellNear := true, tellFar := true }
  | lose (hf : a.flight = some .third) (he : a.far = .dropped) : Move a b { a with flight := none }
  | dropNear (ht : a.tellNear = true) (he : a.near ≠ .refused) :
      Move a b { a with near := .dropped, tellNear := false }
  | dropFar (ht : a.tellFar = true) (he : a.far ≠ .refused) :
      Move a b { a with far := .dropped, tellFar := false }
  | ignoreNear (ht : a.tellNear = true) (he : a.near = .refused) :
      Move a b { a with tellNear := false }
  | ignoreFar (ht : a.tellFar = true) (he : a.far = .refused) : Move a b { a with tellFar := false }

/-- An end that will not change any more unless it is told to. -/
def End.Settled (e : End) : Prop := e = .up ∨ e = .refused ∨ e = .dropped

/-- How far a connection is, by the message under way. -/
def Line.Stage (a : Line) : Prop :=
  match a.flight with
  | some .first => a.near = .pending ∧ a.far = .pending
  | some .second => a.near = .pending ∧ a.far = .answered
  | some .third => (a.near = .up ∨ a.near = .refused) ∧ (a.far = .answered ∨ a.far = .dropped)
  | none => a.near.Settled ∧ a.far.Settled

/-- What holds of a connection by itself: an end is dropped because the other refused it,
and a refusal is on its way to the other end until it arrives. -/
structure Line.Sound (a : Line) : Prop where
  stage : a.Stage
  noticed : a.tellNear = true ∨ a.tellFar = true → a.near = .refused ∨ a.far = .refused
  toldFar : a.near = .refused → a.tellFar = true ∨ a.far = .refused ∨ a.far = .dropped
  toldNear : a.far = .refused → a.tellNear = true ∨ a.near = .refused ∨ a.near = .dropped
  droppedNear : a.near = .dropped → a.far = .refused
  droppedFar : a.far = .dropped → a.near = .refused
  mate : a.far = .up → a.near = .up

/-- What holds of the two: a refusal is in favour of the rival, and never mutual. -/
structure Rivals (a b : Line) : Prop where
  single : a.near = .up → b.far ≠ .up
  rivalNear : a.near = .refused → b.far = .up
  rivalFar : a.far = .refused → b.near = .up
  crossNear : a.near = .refused → b.near ≠ .refused
  crossFar : a.far = .refused → b.far ≠ .refused

theorem Line.sound_opened : Line.opened.Sound := by
  constructor <;> simp [Line.Stage,Line.opened]

theorem rivals_opened : Rivals Line.opened Line.opened := by
  constructor <;> simp [Line.opened]

section
variable {a b a' : Line}

theorem Move.sound (h : Move a b a') (ha : a.Sound) (hb : b.Sound) (hab : Rivals a b) :
    a'.Sound := by
  -- what is left in each case is a matter of the five states only, no arithmetic
  obtain ⟨h1,h2,h3,h4,h5,h6,h7⟩ := ha
  cases h with
  | answer hf he =>
    simp only [Line.Stage,hf] at h1
    constructor <;> grind -linarith -ring -lia [Line.Stage,End.Settled]
  | confirm hf he hr =>
    simp only [Line.Stage,hf] at h1
    constructor <;> grind -linarith -ring -lia [Line.Stage,End.Settled]
  | decline hf he hr =>
    simp only [Line.Stage,hf] at h1
    constructor <;> grind -linarith -ring -lia [Line.Stage,End.Settled]
  | finish hf he hr =>
    simp only [Line.Stage,hf] at h1
    have hup : a.near = .up := by
      rcases h1.1 with h | h
      · exact h
      · exact absurd (hb.mate (hab.rivalNear h)) hr
    constructor <;> grind -linarith -ring -lia [Line.Stage,End.Settled]
  | refuse hf he hr hfar =>
    simp only [Line.Stage,hf] at h1
    constructor <;> grind -linarith -ring -lia [Line.Stage,End.Settled]
  | lose hf he =>
    simp only [Line.Stage,hf] at h1
    constructor <;> grind -linarith -ring -lia [Line.Stage,End.Settled]
  | dropNear ht he =>
    have href := (h2 (Or.inl ht)).resolve_left he
    constructor <;> grind -linarith -ring -lia [Line.Stage,End.Settled]
  | dropFar ht he =>
    have href := (h2 (Or.inr ht)).resolve_right he
    constructor <;> grind -linarith -ring -lia [Line.Stage,End.Settled]
  | ignoreNear ht he => constructor <;> grind -linarith -ring -lia [Line.Stage,End.Settled]
  | ignoreFar ht he => constructor <;> grind -linarith -ring -lia [Line.Stage,End.Settled]

/-- The one refusal that could be mutual is ruled out by its own condition; a dialler that
declines has the other one's third message, so that one is up. -/
theorem Move.rivals (h : Move a b a') (ha : a.Sound) (hb : b.Sound) (hab : Rivals a b)
    (hba : Rivals b a) : Rivals a' b ∧ Rivals b a' := by
  obtain ⟨h1,h2,h3,h4,h5,h6,h7⟩ := ha
  obtain ⟨k1,k2,k3,k4,k5⟩ := hab
  obtain ⟨l1,l2,l3,l4,l5⟩ := hba
  have hmate := hb.mate
  cases h with
  | answer hf he => constructor <;> constructor <;> grind -linarith -ring -lia
  | confirm hf he hr => constructor <;> constructor <;> grind -linarith -ring -lia
  | decline hf he hr => constructor <;> constructor <;> grind -linarith -ring -lia
  | finish hf he hr => constructor <;> constructor <;> grind -linarith -ring -lia
  | refuse hf he hr hfar => constructor <;> constructor <;> grind -linarith -ring -lia
  | lose hf he => constructor <;> constructor <;> grind -linarith -ring -lia
  | dropNear ht he => constructor <;> constructor <;> grind -linarith -ring -lia
  | dropFar ht he => constructor <;> constructor <;> grind -linarith -ring -lia
  | ignoreNear ht he => constructor <;> constructor <;> grind -linarith -ring -lia
  | ignoreFar ht he => constructor <;> constructor <;> grind -linarith -ring -lia

/-- With nothing under way a connection is up at both ends, or one of them has refused it. -/
theorem Line.Sound.at_rest (ha : a.Sound) (hf : a.flight = none) :
    (a.near = .up ∧ a.far = .up) ∨ a.near = .refused ∨ a.far = .refused := by
  obtain ⟨h1,_,_,_,h5,h6,_⟩ := ha
  simp only [Line.Stage,hf] at h1
  grind -linarith -ring -lia [End.Settled]

end

/-- The two connections, each by the name of the party that dialled it. -/
abbrev Pair := Bool → Line

def Pair.set (s : Pair) (c : Bool) (l : Line) : Pair := fun d => if d = c then l else s d

structure Inv (s : Pair) : Prop where
  sound : ∀ c, (s c).Sound
  rivals : ∀ c, Rivals (s c) (s (!c))

theorem Inv.opened : Inv (fun _ => Line.opened) :=
  ⟨fun _ => Line.sound_opened,fun _ => rivals_opened⟩

theorem Inv.move {s : Pair} (hi : Inv s) {c : Bool} {l : Line} (h : Move (s c) (s (!c)) l) :
    Inv (s.set c l) := by
  have hback : Rivals (s (!c)) (s c) := by simpa using hi.rivals (!c)
  have hsound := h.sound (hi.sound c) (hi.sound (!c)) (hi.rivals c)
  obtain ⟨hfore,haft⟩ := h.rivals (hi.sound c) (hi.sound (!c)) (hi.rivals c) hback
  refine ⟨fun d => ?_,fun d => ?_⟩
  · by_cases hd : d = c
    · simpa [Pair.set,hd] using hsound
    · simpa [Pair.set,hd] using hi.sound d
  · by_cases hd : d = c
    · subst hd
      simpa [Pair.set] using hfore
    · obtain rfl : d = !c := Bool.eq_not_of_ne hd
      simpa [Pair.set] using haft

def Pair.AtRest (s : Pair) : Prop :=
  ∀ c, (s c).flight = none ∧ (s c).tellNear = false ∧ (s c).tellFar = false

/-- When everything has arrived, one of the two connections is up at both ends. -/
theorem Inv.survivor {s : Pair} (hi : Inv s) (hq : s.AtRest) :
    ∃ c, (s c).near = .up ∧ (s c).far = .up := by
  rcases (hi.sound true).at_rest (hq true).1 with h | h
  · exact ⟨true,h⟩
  · rcases (hi.sound false).at_rest (hq false).1 with h' | h'
    · exact ⟨false,h'⟩
    · have hrival := hi.rivals true
      have hback := hi.rivals false
      obtain ⟨k1,k2,k3,k4,k5⟩ := hrival
      obtain ⟨l1,l2,l3,l4,l5⟩ := hback
      simp only [Bool.not_true,Bool.not_false] at *
      grind -linarith -ring -lia

end CrossedDials
