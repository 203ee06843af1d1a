import Mathlib.Data.Multiset.AddSub
import Mathlib.Logic.Function.Basic
set_option autoImplicit false

/-! Two parties agree on a call through offers and answers. Either one may call; whoever calls
collects what it has to announce, sends it as an offer and waits for the answer, and whoever is
offered a call collects its own and answers. Signals are not lost, and overtake each other. -/

namespace OfferAnswer

variable {τ : Type}

inductive Signal (τ : Type) where
  | offer (x : τ)
  | answer (x : τ)
  deriving DecidableEq, Repr

/-- What a party has: nothing, an end that is still collecting, or one that has announced itself;
`remote` is what the other party has announced, once it is known. -/
inductive End (τ : Type) where
  | absent
  | collecting (caller : Bool) (remote : Option τ)
  | announced (own : τ) (caller : Bool) (remote : Option τ)
  deriving DecidableEq, Repr

def announce (caller : Bool) (own : τ) : Signal τ := if caller then .offer own else .answer own

/-- An end that knows both sides is given up unless they fit. -/
def End.collected (fits : τ → τ → Bool) (own : τ) : End τ → End τ
  | .collecting caller none => .announced own caller none
  | .collecting caller (some x) => if fits own x then .announced own caller (some x) else .absent
  | e => e

def End.told (fits : τ → τ → Bool) (x : τ) : End τ → End τ
  | .absent => .absent
  | .collecting caller _ => .collecting caller (some x)
  | .announced own caller none => if fits own x then .announced own caller (some x) else .absent
  | .announced own caller (some _) => .announced own caller (some x)

/-- `flight i` is what party `i` has sent and the other has not handled. -/
structure Call (τ : Type) where
  ends : Bool → End τ
  flight : Bool → Multiset (Signal τ)

def Call.idle : Call τ := ⟨fun _ => .absent,fun _ => 0⟩

def Call.setEnd (c : Call τ) (i : Bool) (e : End τ) : Call τ :=
  { c with ends := Function.update c.ends i e }

def Call.setFlight (c : Call τ) (i : Bool) (f : Multiset (Signal τ)) : Call τ :=
  { c with flight := Function.update c.flight i f }

/-- Only the steps marked with `true` lose something: an offer to a party that has an end. -/
inductive Step (fits : τ → τ → Bool) : Bool → Call τ → Call τ → Prop where
  | dial {c : Call τ} {i : Bool} (h : c.ends i = .absent) :
      Step fits false c (c.setEnd i (.collecting true none))
  | announce {c : Call τ} {i caller : Bool} {remote : Option τ} (own : τ)
      (h : c.ends i = .collecting caller remote) :
      Step fits false c ((c.setEnd i ((c.ends i).collected fits own)).setFlight i
        (announce caller own ::ₘ c.flight i))
  | offer {c : Call τ} {i : Bool} {x : τ} {f : Multiset (Signal τ)} (h : c.ends i = .absent)
      (hf : c.flight (!i) = .offer x ::ₘ f) :
      Step fits false c ((c.setFlight (!i) f).setEnd i (.collecting false (some x)))
  | glare {c : Call τ} {i : Bool} {x : τ} {f : Multiset (Signal τ)} (h : c.ends i ≠ .absent)
      (hf : c.flight (!i) = .offer x ::ₘ f) : Step fits true c (c.setFlight (!i) f)
  | answer {c : Call τ} {i : Bool} {x : τ} {f : Multiset (Signal τ)}
      (hf : c.flight (!i) = .answer x ::ₘ f) :
      Step fits false c ((c.setFlight (!i) f).setEnd i ((c.ends i).told fits x))

/-- A run; `true` when one of its steps is marked. -/
inductive Run (fits : τ → τ → Bool) : Bool → Call τ → Call τ → Prop where
  | refl (c : Call τ) : Run fits false c c
  | step {a b : Bool} {c d e : Call τ} (h : Run fits a c d) (hs : Step fits b d e) :
      Run fits (a || b) c e

/-- Nothing is under way. -/
def Call.Quiet (c : Call τ) : Prop :=
  ∀ i, c.flight i = 0 ∧ ∀ caller remote, c.ends i ≠ .collecting caller remote

/-- Whoever has an end has it with the other party, who has been told the same and is the other
one of caller and called. -/
def Call.Agreed (c : Call τ) : Prop :=
  ∀ i, c.ends i ≠ .absent → ∃ own caller x, c.ends i = .announced own caller (some x) ∧
    c.ends (!i) = .announced x (!caller) (some own)

/-- A party that has no end, or calls and has not been answered; `f` is what it has sent. -/
inductive Dials (e : End τ) (f : Multiset (Signal τ)) : Prop where
  | idle (he : e = .absent) (hf : f = 0)
  | collecting (he : e = .collecting true none) (hf : f = 0)
  | calling (own : τ) (he : e = .announced own true none) (hf : f = {.offer own})

inductive Phase (fits : τ → τ → Bool) (c : Call τ) : Prop where
  | calling (h : ∀ i, Dials (c.ends i) (c.flight i))
  | answering (p : Bool) (own : τ) (hp : c.ends p = .announced own true none)
      (hfp : c.flight p = 0) (ho : c.ends (!p) = .collecting false (some own))
      (hfo : c.flight (!p) = 0)
  | answered (p : Bool) (own x : τ) (rest : Multiset (Signal τ))
      (hp : c.ends p = .announced own true none) (hfp : c.flight p = 0)
      (hfo : c.flight (!p) = .answer x ::ₘ rest)
      (h : if fits x own then c.ends (!p) = .announced x false (some own) ∧ rest = 0
        else Dials (c.ends (!p)) rest)
  | agreed (p : Bool) (own x : τ) (hp : c.ends p = .announced own true (some x))
      (ho : c.ends (!p) = .announced x false (some own)) (hf : ∀ i, c.flight i = 0)

def End.Calls : End τ → Prop
  | .absent => True
  | .collecting caller _ => caller = true
  | .announced _ caller _ => caller = true

/-- The offer of party `p` has been lost; nobody will answer it. -/
structure Lost (c : Call τ) (p : Bool) : Prop where
  waits : ∃ own, c.ends p = .announced own true none
  offers : ∀ x, .offer x ∉ c.flight p
  answers : ∀ x, .answer x ∉ c.flight (!p)
  other : (c.ends (!p)).Calls

section
variable {fits : τ → τ → Bool} {b : Bool} {c c' : Call τ} {i p : Bool}

@[simp] theorem setEnd_ends (c : Call τ) (i : Bool) (e : End τ) :
    (c.setEnd i e).ends i = e := by
  simp [Call.setEnd]

@[simp] theorem setEnd_other (c : Call τ) (i : Bool) (e : End τ) :
    (c.setEnd i e).ends (!i) = c.ends (!i) := by
  simp [Call.setEnd]

@[simp] theorem setEnd_not (c : Call τ) (i : Bool) (e : End τ) :
    (c.setEnd (!i) e).ends i = c.ends i := by
  simp [Call.setEnd]

@[simp] theorem setEnd_flight (c : Call τ) (i : Bool) (e : End τ) :
    (c.setEnd i e).flight = c.flight := rfl

@[simp] theorem setFlight_flight (c : Call τ) (i : Bool) (f : Multiset (Signal τ)) :
    (c.setFlight i f).flight i = f := by
  simp [Call.setFlight]

@[simp] theorem setFlight_other (c : Call τ) (i : Bool) (f : Multiset (Signal τ)) :
    (c.setFlight i f).flight (!i) = c.flight (!i) := by
  simp [Call.setFlight]

@[simp] theorem setFlight_not (c : Call τ) (i : Bool) (f : Multiset (Signal τ)) :
    (c.setFlight (!i) f).flight i = c.flight i := by
  simp [Call.setFlight]

@[simp] theorem setFlight_ends (c : Call τ) (i : Bool) (f : Multiset (Signal τ)) :
    (c.setFlight i f).ends = c.ends := rfl

/-- The two parties, the one the step belongs to first. -/
theorem both {P : Bool → Prop} (h : P i) (ho : P (!i)) : ∀ j, P j := by
  intro j
  by_cases hj : j = i
  · exact hj ▸ h
  · exact Bool.eq_not_of_ne hj ▸ ho

theorem Dials.calls {e : End τ} {f : Multiset (Signal τ)} (h : Dials e f) : e.Calls := by
  cases h with
  | idle he hf => rw [he]; trivial
  | collecting he hf => rw [he]; rfl
  | calling own he hf => rw [he]; rfl

theorem Dials.no_answer {e : End τ} {f : Multiset (Signal τ)} (h : Dials e f) (x : τ) :
    .answer x ∉ f := by
  cases h with
  | idle he hf => simp [hf]
  | collecting he hf => simp [hf]
  | calling own he hf => simp [hf]

/-- An offer of a party that dials is the only thing it has sent. -/
theorem Dials.offered {e : End τ} {f f' : Multiset (Signal τ)} {x : τ} (h : Dials e f)
    (hf : f = .offer x ::ₘ f') : e = .announced x true none ∧ f' = 0 := by
  cases h with
  | idle he hz => exact absurd (hz.symm.trans hf) Multiset.zero_ne_cons
  | collecting he hz => exact absurd (hz.symm.trans hf) Multiset.zero_ne_cons
  | calling own he hone =>
    have hsame : Signal.offer own ::ₘ 0 = Signal.offer x ::ₘ f' := hone.symm.trans hf
    have hx : Signal.offer x ∈ ({Signal.offer own} : Multiset (Signal τ)) :=
      (hone.symm.trans hf).symm ▸ Multiset.mem_cons_self _ _
    have heq : Signal.offer x = Signal.offer own := Multiset.mem_singleton.1 hx
    cases heq
    exact ⟨he,((Multiset.cons_inj_right _).1 hsame).symm⟩

theorem Dials.dial {e : End τ} {f : Multiset (Signal τ)} (h : Dials e f) (he : e = .absent) :
    Dials (.collecting true none) f := by
  cases h with
  | idle _ hf => exact .collecting rfl hf
  | collecting hc => rw [he] at hc; cases hc
  | calling own hc => rw [he] at hc; cases hc

theorem Dials.announce {e : End τ} {f : Multiset (Signal τ)} {caller : Bool} {remote : Option τ}
    (h : Dials e f) (fits : τ → τ → Bool) (he : e = .collecting caller remote) (own : τ) :
    caller = true ∧ f = 0 ∧
      Dials (e.collected fits own) (announce caller own ::ₘ 0) := by
  cases h with
  | idle hc => rw [he] at hc; cases hc
  | collecting hc hf =>
    rw [hc] at he
    cases he
    rw [hc]
    exact ⟨rfl,hf,.calling own rfl rfl⟩
  | calling own hc => rw [he] at hc; cases hc

/-- A party that has no end joins those that dial. -/
theorem Phase.dial (h : Phase fits c) (hi : c.ends i = .absent) :
    Phase fits (c.setEnd i (.collecting true none)) := by
  cases h with
  | calling h =>
    refine .calling (both (i := i) ?_ ?_)
    · simpa using (h i).dial hi
    · simpa using h (!i)
  | answering p own hp hfp ho hfo =>
    by_cases hip : i = p
    · rw [hip,hp] at hi
      cases hi
    · rw [Bool.eq_not_of_ne hip,ho] at hi
      cases hi
  | answered p own x rest hp hfp hfo h =>
    by_cases hip : i = p
    · rw [hip,hp] at hi
      cases hi
    · obtain rfl := Bool.eq_not_of_ne hip
      refine .answered p own x rest (by simpa using hp) hfp hfo ?_
      split at h
      · rw [hi] at h
        cases h.1
      · rename_i hfits
        rw [if_neg hfits,setEnd_ends]
        exact h.dial hi
  | agreed p own x hp ho hf =>
    by_cases hip : i = p
    · rw [hip,hp] at hi
      cases hi
    · rw [Bool.eq_not_of_ne hip,ho] at hi
      cases hi

/-- Collecting has come to its end. -/
theorem Phase.announce {caller : Bool} {remote : Option τ} (h : Phase fits c)
    (hi : c.ends i = .collecting caller remote) (own : τ) :
    Phase fits ((c.setEnd i ((c.ends i).collected fits own)).setFlight i
      (announce caller own ::ₘ c.flight i)) := by
  cases h with
  | calling h =>
    obtain ⟨-,hzero,hnext⟩ := (h i).announce fits hi own
    refine .calling (both (i := i) ?_ ?_)
    · simpa [hzero] using hnext
    · simpa using h (!i)
  | answering p x hp hfp ho hfo =>
    by_cases hip : i = p
    · rw [hip,hp] at hi
      cases hi
    · obtain rfl := Bool.eq_not_of_ne hip
      rw [ho] at hi
      cases hi
      refine .answered p x own 0 (by simpa using hp) (by simpa using hfp)
        (by simp [hfo,OfferAnswer.announce]) ?_
      rw [setFlight_ends,setEnd_ends,ho]
      by_cases hfits : fits own x = true
      · simp [hfits,End.collected]
      · rw [if_neg hfits]
        exact .idle (by simp [hfits,End.collected]) rfl
  | answered p x y rest hp hfp hfo h =>
    by_cases hip : i = p
    · rw [hip,hp] at hi
      cases hi
    · obtain rfl := Bool.eq_not_of_ne hip
      split at h
      · rw [hi] at h
        cases h.1
      · rename_i hfits
        obtain ⟨hcaller,hzero,hnext⟩ := h.announce fits hi own
        refine .answered p x y (OfferAnswer.announce caller own ::ₘ 0) (by simpa using hp)
          (by simpa using hfp) ?_ ?_
        · rw [setFlight_flight,hfo,hzero,Multiset.cons_swap]
        · rw [if_neg hfits,setFlight_ends,setEnd_ends]
          exact hnext
  | agreed p x y hp ho hf =>
    by_cases hip : i = p
    · rw [hip,hp] at hi
      cases hi
    · rw [Bool.eq_not_of_ne hip,ho] at hi
      cases hi

/-- Offers are only under way while both parties dial, or from the one that has called again. -/
theorem Phase.offered {x : τ} {f : Multiset (Signal τ)} (h : Phase fits c)
    (hf : c.flight (!i) = .offer x ::ₘ f) :
    (∀ j, Dials (c.ends j) (c.flight j)) ∨ ∃ own y rest, c.ends i = .announced own true none ∧
      c.flight i = 0 ∧ c.flight (!i) = .answer y ::ₘ rest ∧ Dials (c.ends (!i)) rest := by
  cases h with
  | calling h => exact .inl h
  | answering p own hp hfp ho hfo =>
    exfalso
    by_cases hip : i = p
    · rw [hip,hfo] at hf
      exact absurd hf Multiset.zero_ne_cons
    · rw [Bool.eq_not_of_ne hip,Bool.not_not,hfp] at hf
      exact absurd hf Multiset.zero_ne_cons
  | answered p own y rest hp hfp hfo h =>
    by_cases hip : i = p
    · subst hip
      split at h
      · rw [hfo,h.2] at hf
        have hx : Signal.offer x ∈ Signal.answer y ::ₘ 0 := by
          rw [hf]
          exact Multiset.mem_cons_self _ _
        cases Multiset.mem_singleton.1 hx
      · exact .inr ⟨own,y,rest,hp,hfp,hfo,h⟩
    · rw [Bool.eq_not_of_ne hip,Bool.not_not,hfp] at hf
      exact absurd hf Multiset.zero_ne_cons
  | agreed p own y hp ho hzero =>
    rw [hzero] at hf
    exact absurd hf Multiset.zero_ne_cons

theorem Phase.offer {x : τ} {f : Multiset (Signal τ)} (h : Phase fits c)
    (hi : c.ends i = .absent) (hf : c.flight (!i) = .offer x ::ₘ f) :
    Phase fits ((c.setFlight (!i) f).setEnd i (.collecting false (some x))) := by
  rcases h.offered hf with h | ⟨own,y,rest,hown,-⟩
  · obtain ⟨he,hrest⟩ := (h (!i)).offered hf
    have hsent : c.flight i = 0 := by
      cases h i with
      | idle _ hz => exact hz
      | collecting hc => rw [hi] at hc; cases hc
      | calling own hc => rw [hi] at hc; cases hc
    refine .answering (!i) x ?_ ?_ ?_ ?_
    · simpa using he
    · simpa using hrest
    · simp
    · simpa using hsent
  · rw [hi] at hown
    cases hown

/-- An offer that meets an end is lost for good. -/
theorem Phase.glare {x : τ} {f : Multiset (Signal τ)} (h : Phase fits c)
    (hf : c.flight (!i) = .offer x ::ₘ f) : Lost (c.setFlight (!i) f) (!i) := by
  rcases h.offered hf with h | ⟨own,y,rest,hown,hzero,hfo,h⟩
  · obtain ⟨he,hrest⟩ := (h (!i)).offered hf
    refine ⟨⟨x,by simpa using he⟩,?_,?_,?_⟩
    · simp [hrest]
    · simpa using (h i).no_answer
    · simpa using (h i).calls
  · -- the answer that is under way as well stays
    rw [hfo] at hf
    obtain ⟨heq,-⟩ | ⟨-,g,hrest,hleft⟩ := Multiset.cons_eq_cons.1 hf
    · cases heq
    · obtain ⟨he,hg⟩ := h.offered hrest
      refine ⟨⟨x,by simpa using he⟩,?_,?_,?_⟩
      · simp [hleft,hg]
      · simp [hzero]
      · simp [hown,End.Calls]

/-- The answer reaches the party that has called: the call is settled, or given up on both
sides. -/
theorem Phase.answer {x : τ} {f : Multiset (Signal τ)} (hsym : ∀ a b, fits a b = fits b a)
    (h : Phase fits c) (hf : c.flight (!i) = .answer x ::ₘ f) :
    Phase fits ((c.setFlight (!i) f).setEnd i ((c.ends i).told fits x)) := by
  have hmem : Signal.answer x ∈ c.flight (!i) := by
    rw [hf]
    exact Multiset.mem_cons_self _ _
  cases h with
  | calling h => exact absurd hmem ((h (!i)).no_answer x)
  | answering p own hp hfp ho hfo =>
    exfalso
    by_cases hip : i = p
    · rw [hip,hfo] at hmem
      exact absurd hmem (Multiset.notMem_zero _)
    · rw [Bool.eq_not_of_ne hip,Bool.not_not,hfp] at hmem
      exact absurd hmem (Multiset.notMem_zero _)
  | answered p own y rest hp hfp hfo h =>
    by_cases hip : i = p
    · subst hip
      have hone : Signal.answer x ∉ rest := by
        split at h
        · rw [h.2]
          exact Multiset.notMem_zero _
        · exact h.no_answer x
      rw [hfo] at hf hmem
      have hy : Signal.answer x = Signal.answer y := (Multiset.mem_cons.1 hmem).resolve_right hone
      cases hy
      obtain rfl := (Multiset.cons_inj_right _).1 hf
      by_cases hfits : fits x own = true
      · rw [if_pos hfits] at h
        refine .agreed i own x ?_ ?_ (both (i := i) ?_ ?_)
        · simp [hp,End.told,hsym own x,hfits]
        · simpa using h.1
        · simpa using hfp
        · simpa using h.2
      · rw [if_neg hfits] at h
        refine .calling (both (i := i) ?_ ?_)
        · exact .idle (by simp [hp,End.told,hsym own x,hfits]) (by simpa using hfp)
        · simpa using h
    · rw [Bool.eq_not_of_ne hip,Bool.not_not,hfp] at hmem
      exact absurd hmem (Multiset.notMem_zero _)
  | agreed p own y hp ho hzero =>
    rw [hzero] at hmem
    exact absurd hmem (Multiset.notMem_zero _)

theorem Step.phase (hsym : ∀ a b, fits a b = fits b a) (hs : Step fits false c c')
    (h : Phase fits c) : Phase fits c' := by
  cases hs with
  | dial hi => exact h.dial hi
  | announce own hi => exact h.announce hi own
  | offer hi hf => exact h.offer hi hf
  | answer hf => exact h.answer hsym hf

theorem Step.loses (hs : Step fits true c c') (h : Phase fits c) : ∃ p, Lost c' p := by
  cases hs with
  | glare hi hf => exact ⟨_,h.glare hf⟩

theorem End.Calls.collected {e : End τ} (h : e.Calls) (own : τ) : (e.collected fits own).Calls := by
  cases e with
  | absent => trivial
  | collecting caller remote =>
    cases remote with
    | none => exact h
    | some x =>
      rw [End.collected]
      split
      · exact h
      · trivial
  | announced own caller remote => exact h

theorem End.Calls.told {e : End τ} (h : e.Calls) (x : τ) : (e.told fits x).Calls := by
  cases e with
  | absent => trivial
  | collecting caller remote => exact h
  | announced own caller remote =>
    cases remote with
    | none =>
      rw [End.told]
      split
      · exact h
      · trivial
    | some y => exact h

/-- The party that waits is left alone, and the other one goes on calling. -/
theorem Step.lost (hs : Step fits b c c') (h : Lost c p) : Lost c' p := by
  obtain ⟨⟨own,hp⟩,hoffers,hanswers,hother⟩ := h
  cases hs with
  | @dial _ i hi =>
    by_cases hip : i = p
    · rw [hip,hp] at hi
      cases hi
    · obtain rfl := Bool.eq_not_of_ne hip
      exact ⟨⟨own,by simpa using hp⟩,hoffers,hanswers,by simp [End.Calls]⟩
  | @announce _ i caller remote y hi =>
    by_cases hip : i = p
    · rw [hip,hp] at hi
      cases hi
    · obtain rfl := Bool.eq_not_of_ne hip
      have hcaller : caller = true := by
        rw [hi] at hother
        exact hother
      refine ⟨⟨own,by simpa using hp⟩,by simpa using hoffers,fun x hx => ?_,?_⟩
      · rw [setFlight_flight,hcaller] at hx
        rcases Multiset.mem_cons.1 hx with hx | hx
        · cases hx
        · exact hanswers x hx
      · rw [setFlight_ends,setEnd_ends]
        exact hother.collected y
  | @offer _ i x f hi hf =>
    by_cases hip : i = p
    · rw [hip,hp] at hi
      cases hi
    · rw [Bool.eq_not_of_ne hip,Bool.not_not] at hf
      exact absurd (hf ▸ Multiset.mem_cons_self _ _) (hoffers x)
  | @glare _ i x f hi hf =>
    by_cases hip : i = p
    · subst hip
      refine ⟨⟨own,hp⟩,by simpa using hoffers,fun y hy => hanswers y ?_,hother⟩
      rw [setFlight_flight] at hy
      exact hf ▸ Multiset.mem_cons_of_mem hy
    · rw [Bool.eq_not_of_ne hip,Bool.not_not] at hf
      exact absurd (hf ▸ Multiset.mem_cons_self _ _) (hoffers x)
  | @answer _ i x f hf =>
    by_cases hip : i = p
    · subst hip
      exact absurd (hf ▸ Multiset.mem_cons_self _ _) (hanswers x)
    · obtain rfl := Bool.eq_not_of_ne hip
      rw [Bool.not_not] at hf
      refine ⟨⟨own,by simpa using hp⟩,fun y hy => hoffers y ?_,?_,?_⟩
      · rw [setEnd_flight,Bool.not_not,setFlight_flight] at hy
        exact hf ▸ Multiset.mem_cons_of_mem hy
      · simpa using hanswers
      · rw [setEnd_ends]
        exact hother.told x

/-- What a run from nothing leads to: a phase of one call, or a lost offer. -/
theorem Run.outcome (hsym : ∀ a b, fits a b = fits b a) {d : Call τ} (hd : Phase fits d)
    (h : Run fits b d c) : (b = false → Phase fits c) ∧ (b = true → ∃ p, Lost c p) := by
  induction h with
  | refl c => exact ⟨fun _ => hd,fun h => by cases h⟩
  | @step a b c d e h hs ih =>
    obtain ⟨hphase,hlost⟩ := ih hd
    cases a with
    | true =>
      obtain ⟨p,hp⟩ := hlost rfl
      exact ⟨fun h => by simp at h,fun _ => ⟨p,hs.lost hp⟩⟩
    | false =>
      cases b with
      | true => exact ⟨fun h => by simp at h,fun _ => hs.loses (hphase rfl)⟩
      | false => exact ⟨fun _ => hs.phase hsym (hphase rfl),fun h => by simp at h⟩

theorem phase_idle : Phase fits (Call.idle : Call τ) := .calling fun _ => .idle rfl rfl

theorem Phase.agreed_of_quiet (h : Phase fits c) (hq : c.Quiet) : c.Agreed := by
  cases h with
  | calling h =>
    intro i hi
    cases h i with
    | idle he => exact absurd he hi
    | collecting he => exact absurd he ((hq i).2 _ _)
    | calling own he hf =>
      have hzero := hf.symm.trans (hq i).1
      exact absurd hzero (Multiset.singleton_ne_zero _)
  | answering p own hp hfp ho hfo => exact absurd ho ((hq (!p)).2 _ _)
  | answered p own x rest hp hfp hfo h =>
    exact absurd ((hq (!p)).1.symm.trans hfo) Multiset.zero_ne_cons
  | agreed p own x hp ho hf =>
    refine both (i := p) (fun _ => ⟨own,true,x,hp,ho⟩) (fun _ => ⟨x,false,own,ho,?_⟩)
    rw [Bool.not_not]
    exact hp

theorem Lost.not_agreed (h : Lost c p) : ¬c.Agreed := by
  intro ha
  obtain ⟨own,hp⟩ := h.waits
  obtain ⟨own',caller,x,heq,-⟩ := ha p (by rw [hp]; simp)
  rw [hp] at heq
  cases heq

/-- When nothing is under way any more, the parties agree if and only if no offer has met an
end. -/
theorem Run.agreed_iff (hsym : ∀ a b, fits a b = fits b a) (h : Run fits b Call.idle c)
    (hq : c.Quiet) : c.Agreed ↔ b = false := by
  obtain ⟨hphase,hlost⟩ := h.outcome hsym phase_idle
  cases b with
  | false => exact ⟨fun _ => rfl,fun _ => (hphase rfl).agreed_of_quiet hq⟩
  | true =>
    obtain ⟨p,hp⟩ := hlost rfl
    exact ⟨fun ha => absurd ha hp.not_agreed,fun h => by cases h⟩

end

end OfferAnswer
