import Mathlib.Data.List.Nodup
set_option autoImplicit false

/-! Numbers handed out under a changing key. A number is drawn first and used later, with
the key of that moment; a new key restarts the numbers, in two steps. -/

namespace NonceLedger

variable {κ : Type}

structure Ledger (κ : Type) where
  current : Option κ
  retired : List κ
  next : Nat
  renewals : Nat
  waiting : List Nat
  used : List (κ × Nat)

/-- The steps of a disciplined user: nothing is drawn for use while a renewal is under way,
nothing is waiting when one begins, and the first key comes after the first number. -/
inductive Step : Ledger κ → Ledger κ → Prop where
  | skip (l : Ledger κ) : Step l { l with next := l.next+1 }
  | draw (l : Ledger κ) (h : l.renewals = 0) :
      Step l { l with next := l.next+1, waiting := l.next :: l.waiting }
  | drop (l : Ledger κ) {n : Nat} {rest : List Nat} (h : l.waiting.Perm (n :: rest)) :
      Step l { l with waiting := rest }
  | use (l : Ledger κ) {k : κ} {n : Nat} {rest : List Nat} (hk : l.current = some k)
      (h : l.waiting.Perm (n :: rest)) :
      Step l { l with waiting := rest, used := (k,n) :: l.used }
  | first (l : Ledger κ) (k : κ) (hk : l.current = none) (hn : l.next ≠ 0) (hw : 0 ∉ l.waiting) :
      Step l { l with current := some k }
  | renew (l : Ledger κ) {old : κ} (k : κ) (hk : l.current = some old)
      (hfresh : k ∉ old :: l.retired) (hw : l.waiting = []) :
      Step l { l with current := some k, retired := old :: l.retired, renewals := l.renewals+1 }
  | restart (l : Ledger κ) (h : l.renewals ≠ 0) :
      Step l { l with next := 1, renewals := l.renewals-1 }

/-- Under the current key every number below the next one is used, waiting or lost; a key
that is being brought in is unused. -/
structure Sound (l : Ledger κ) : Prop where
  closed : l.current = none → l.used = [] ∧ l.retired = [] ∧ l.renewals = 0
  keyed : ∀ u ∈ l.used, l.current = some u.1 ∨ u.1 ∈ l.retired
  retired : ∀ k ∈ l.retired, l.current ≠ some k
  once : l.used.Nodup
  positive : ∀ u ∈ l.used, u.2 ≠ 0
  waitingOnce : l.waiting.Nodup
  waitingBelow : ∀ n ∈ l.waiting, n < l.next
  waitingPositive : l.current ≠ none → 0 ∉ l.waiting
  unused : l.renewals ≠ 0 → l.waiting = [] ∧ ∀ u ∈ l.used, l.current ≠ some u.1
  begun : l.current ≠ none → l.renewals = 0 → l.next ≠ 0
  spent : l.renewals = 0 → ∀ u ∈ l.used, l.current = some u.1 → u.2 < l.next ∧ u.2 ∉ l.waiting

section
variable {l l' : Ledger κ}

theorem Sound.skip (h : Sound l) : Sound { l with next := l.next+1 } where
  closed := h.closed
  keyed := h.keyed
  retired := h.retired
  once := h.once
  positive := h.positive
  waitingOnce := h.waitingOnce
  waitingBelow := fun n hn => Nat.lt_succ_of_lt (h.waitingBelow n hn)
  waitingPositive := h.waitingPositive
  unused := h.unused
  begun := fun _ _ => Nat.succ_ne_zero _
  spent := fun hr u hu hk =>
    ⟨Nat.lt_succ_of_lt (h.spent hr u hu hk).1,(h.spent hr u hu hk).2⟩

theorem Sound.draw (h : Sound l) (hr : l.renewals = 0) :
    Sound { l with next := l.next+1, waiting := l.next :: l.waiting } where
  closed := h.closed
  keyed := h.keyed
  retired := h.retired
  once := h.once
  positive := h.positive
  waitingOnce := by
    refine List.nodup_cons.mpr ⟨fun hm => ?_,h.waitingOnce⟩
    exact Nat.lt_irrefl _ (h.waitingBelow _ hm)
  waitingBelow := by
    intro n hn
    rcases List.mem_cons.mp hn with rfl | hn
    · exact Nat.lt_succ_self _
    · exact Nat.lt_succ_of_lt (h.waitingBelow n hn)
  waitingPositive := by
    intro hk hm
    rcases List.mem_cons.mp hm with hz | hm
    · exact h.begun hk hr hz.symm
    · exact h.waitingPositive hk hm
  unused := fun hn => absurd hr hn
  begun := fun _ _ => Nat.succ_ne_zero _
  spent := by
    intro _ u hu hk
    obtain ⟨hlt,hw⟩ := h.spent hr u hu hk
    refine ⟨Nat.lt_succ_of_lt hlt,fun hm => ?_⟩
    rcases List.mem_cons.mp hm with he | hm
    · omega
    · exact hw hm

theorem Sound.drop (h : Sound l) {n : Nat} {rest : List Nat} (hp : l.waiting.Perm (n :: rest)) :
    Sound { l with waiting := rest } := by
  have hsub : ∀ m ∈ rest, m ∈ l.waiting := fun m hm => hp.mem_iff.mpr (List.mem_cons_of_mem n hm)
  exact {
    closed := h.closed
    keyed := h.keyed
    retired := h.retired
    once := h.once
    positive := h.positive
    waitingOnce := (List.nodup_cons.mp (hp.nodup_iff.mp h.waitingOnce)).2
    waitingBelow := fun m hm => h.waitingBelow m (hsub m hm)
    waitingPositive := fun hk hm => h.waitingPositive hk (hsub 0 hm)
    unused := fun hr => by
      have hnone := (h.unused hr).1
      rw [hnone] at hp
      cases (List.nil_perm.mp hp)
    begun := h.begun
    spent := fun hr u hu hk =>
      ⟨(h.spent hr u hu hk).1,fun hm => (h.spent hr u hu hk).2 (hsub _ hm)⟩ }

/-- The number that is used now was waiting, so it has not been used under this key. -/
theorem Sound.use (h : Sound l) {k : κ} {n : Nat} {rest : List Nat} (hk : l.current = some k)
    (hp : l.waiting.Perm (n :: rest)) :
    Sound { l with waiting := rest, used := (k,n) :: l.used } := by
  have hdrop := h.drop hp
  have hn : n ∈ l.waiting := hp.mem_iff.mpr List.mem_cons_self
  have hidle : l.renewals = 0 := by
    by_contra hr
    rw [(h.unused hr).1] at hn
    cases hn
  have hnew : (k,n) ∉ l.used := fun hm => (h.spent hidle _ hm hk).2 hn
  exact {
    closed := fun hc => by
      rw [hk] at hc
      cases hc
    keyed := by
      intro u hu
      rcases List.mem_cons.mp hu with rfl | hu
      · exact Or.inl hk
      · exact h.keyed u hu
    retired := h.retired
    once := List.nodup_cons.mpr ⟨hnew,h.once⟩
    positive := by
      intro u hu
      rcases List.mem_cons.mp hu with rfl | hu
      · intro hz
        have hz : n = 0 := hz
        rw [hz] at hn
        exact h.waitingPositive (by rw [hk]; simp) hn
      · exact h.positive u hu
    waitingOnce := hdrop.waitingOnce
    waitingBelow := hdrop.waitingBelow
    waitingPositive := hdrop.waitingPositive
    unused := fun hr => absurd hidle hr
    begun := h.begun
    spent := by
      intro hr u hu hc
      rcases List.mem_cons.mp hu with rfl | hu
      · exact ⟨h.waitingBelow n hn,(List.nodup_cons.mp (hp.nodup_iff.mp h.waitingOnce)).1⟩
      · exact hdrop.spent hr u hu hc }

theorem Sound.first (h : Sound l) (k : κ) (hk : l.current = none) (hn : l.next ≠ 0)
    (hw : 0 ∉ l.waiting) : Sound { l with current := some k } := by
  obtain ⟨hnone,hr,hidle⟩ := h.closed hk
  exact {
    closed := fun hc => by cases hc
    keyed := fun u hu => by
      rw [hnone] at hu
      cases hu
    retired := fun j hj => by
      rw [hr] at hj
      cases hj
    once := h.once
    positive := h.positive
    waitingOnce := h.waitingOnce
    waitingBelow := h.waitingBelow
    waitingPositive := fun _ => hw
    unused := fun hc => absurd hidle hc
    begun := fun _ _ => hn
    spent := fun _ u hu => by
      rw [hnone] at hu
      cases hu }

/-- The new key has not been there before, so nothing has been used under it. -/
theorem Sound.renew (h : Sound l) {old : κ} (k : κ) (hk : l.current = some old)
    (hfresh : k ∉ old :: l.retired) (hw : l.waiting = []) :
    Sound { l with current := some k, retired := old :: l.retired, renewals := l.renewals+1 } := by
  have hold : ∀ u ∈ l.used, u.1 ∈ old :: l.retired := by
    intro u hu
    rcases h.keyed u hu with hc | hc
    · rw [hk] at hc
      rw [Option.some.inj hc]
      exact List.mem_cons_self
    · exact List.mem_cons_of_mem old hc
  have hunused : ∀ u ∈ l.used, some k ≠ some u.1 := by
    intro u hu hc
    rw [Option.some.inj hc] at hfresh
    exact hfresh (hold u hu)
  exact {
    closed := fun hc => by cases hc
    keyed := fun u hu => Or.inr (hold u hu)
    retired := fun j hj hc => by
      rw [Option.some.inj hc] at hfresh
      exact hfresh hj
    once := h.once
    positive := h.positive
    waitingOnce := h.waitingOnce
    waitingBelow := h.waitingBelow
    waitingPositive := fun _ hm => by
      rw [hw] at hm
      cases hm
    unused := fun _ => ⟨hw,hunused⟩
    begun := fun _ hr => by cases hr
    spent := fun hr => by cases hr }

theorem Sound.restart (h : Sound l) (hr : l.renewals ≠ 0) :
    Sound { l with next := 1, renewals := l.renewals-1 } := by
  obtain ⟨hw,hu⟩ := h.unused hr
  exact {
    closed := fun hc => absurd (h.closed hc).2.2 hr
    keyed := h.keyed
    retired := h.retired
    once := h.once
    positive := h.positive
    waitingOnce := h.waitingOnce
    waitingBelow := fun n hn => by
      rw [hw] at hn
      cases hn
    waitingPositive := h.waitingPositive
    unused := fun _ => ⟨hw,hu⟩
    begun := fun _ _ => Nat.one_ne_zero
    spent := fun _ u hm hc => absurd hc (hu u hm) }

theorem Step.sound (hs : Step l l') (h : Sound l) : Sound l' := by
  cases hs with
  | skip => exact h.skip
  | draw hr => exact h.draw hr
  | drop hp => exact h.drop hp
  | use hk hp => exact h.use hk hp
  | first k hk hn hw => exact h.first k hk hn hw
  | renew k hk hfresh hw => exact h.renew k hk hfresh hw
  | restart hr => exact h.restart hr

end

end NonceLedger
