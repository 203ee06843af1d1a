import GoodNet.Lib.SlidingWindow
import Mathlib.Tactic.Common
set_option autoImplicit false

/-! `NonceWindow` of `core/types/nonce_window.hpp` and `core/cm/transport.cpp`. -/

namespace GoodNet
open SlidingWindow

def windowSize : Nat := 256

structure NonceWindow where
  highestNonce : UInt64 := 0
  bitmap : BitVec 256 := 0#256
  deriving DecidableEq, Repr

def setBit (b : BitVec 256) (i : Nat) : BitVec 256 := b ||| BitVec.twoPow 256 i

def NonceWindow.reset (_ : NonceWindow) : NonceWindow := {}

def NonceWindow.accept (w : NonceWindow) (nonce : UInt64) : NonceWindow × Bool :=
  if nonce = 0 then (w,false)
  else if w.highestNonce = 0 then ({ highestNonce := nonce, bitmap := setBit 0#256 0 },true)
  else if w.highestNonce < nonce then
    let shift := (nonce-w.highestNonce).toNat
    let b := if windowSize ≤ shift then 0#256 else w.bitmap <<< shift
    ({ highestNonce := nonce, bitmap := setBit b 0 },true)
  else
    let diff := (w.highestNonce-nonce).toNat
    if windowSize ≤ diff then (w,false)
    else if w.bitmap.getLsbD diff then (w,false)
    else ({ w with bitmap := setBit w.bitmap diff },true)

/-- The packet ids the window turns away. -/
def NonceWindow.Refuses (w : NonceWindow) (nonce : UInt64) : Prop :=
  nonce = 0 ∨ (w.highestNonce ≠ 0 ∧ Shut w.highestNonce.toNat w.bitmap nonce.toNat)

theorem toNat_diff {a b : UInt64} (h : b ≤ a) : (a-b).toNat = a.toNat-b.toNat :=
  UInt64.toNat_sub_of_le a b h

theorem toNat_pos {n : UInt64} (h : n ≠ 0) : 0 < n.toNat := by
  have hz : n.toNat ≠ 0 := fun hc => h (UInt64.toNat_inj.mp (by simpa using hc))
  omega

theorem NonceWindow.accept_refused {w : NonceWindow} {n : UInt64} (h : w.Refuses n) :
    w.accept n = (w,false) := by
  unfold NonceWindow.accept
  rcases h with hz | ⟨htop,hle,hr⟩
  · simp [hz]
  · have hle' : n ≤ w.highestNonce := UInt64.le_iff_toNat_le.mpr hle
    have hlt : ¬ w.highestNonce < n := UInt64.not_lt.mpr hle'
    by_cases hz : n = 0
    · simp [hz]
    · rcases hr with hr | hr
      · simp [hz,htop,hlt,toNat_diff hle',windowSize,hr]
      · simp [hz,htop,hlt,toNat_diff hle',hr]

theorem NonceWindow.accept_taken {w : NonceWindow} {n : UInt64} (h : ¬ w.Refuses n) :
    (w.accept n).2 = true ∧ (w.accept n).1.highestNonce ≠ 0 ∧
      ∀ m, 0 < m → (Shut (w.accept n).1.highestNonce.toNat (w.accept n).1.bitmap m ↔
        (w.highestNonce ≠ 0 ∧ Shut w.highestNonce.toNat w.bitmap m) ∨
          Covers windowSize n.toNat m) := by
  unfold NonceWindow.Refuses at h
  obtain ⟨hz,hin⟩ := not_or.mp h
  by_cases htop : w.highestNonce = 0
  · simp only [accept,hz,htop,ite_true,ite_false,ne_eq,not_false_eq_true,not_true,false_and,
      false_or,true_and,setBit]
    intro m _
    exact shut_start (by decide)
  · have hout : ¬ Shut w.highestNonce.toNat w.bitmap n.toNat := fun hs => hin ⟨htop,hs⟩
    by_cases hlt : w.highestNonce < n
    · have hlt' : w.highestNonce.toNat < n.toNat := UInt64.lt_iff_toNat_lt.mp hlt
      have hsub := toNat_diff (UInt64.le_of_lt hlt)
      by_cases hfar : windowSize ≤ n.toNat-w.highestNonce.toNat
      · simp only [accept,hz,htop,hlt,hsub,hfar,ite_true,ite_false,ne_eq,not_false_eq_true,
          true_and,setBit]
        intro m _
        exact shut_advance_far (by decide) hlt' hfar
      · simp only [accept,hz,htop,hlt,hsub,hfar,ite_true,ite_false,ne_eq,not_false_eq_true,
          true_and,setBit]
        intro m _
        exact shut_advance (by decide) hlt'
    · have hle : n ≤ w.highestNonce := UInt64.not_lt.mp hlt
      have hle' : n.toNat ≤ w.highestNonce.toNat := UInt64.le_iff_toNat_le.mp hle
      have hnear : ¬ windowSize ≤ w.highestNonce.toNat-n.toNat :=
        fun hc => hout ⟨hle',Or.inl hc⟩
      have hbit : ¬ w.bitmap.getLsbD (w.highestNonce.toNat-n.toNat) = true :=
        fun hc => hout ⟨hle',Or.inr hc⟩
      simp only [accept,hz,htop,hlt,toNat_diff hle,hnear,hbit,ite_false,Bool.false_eq_true,
        ne_eq,not_false_eq_true,true_and,setBit]
      intro m _
      exact shut_mark hle' (by unfold windowSize at hnear; omega)

theorem NonceWindow.accept_result (w : NonceWindow) (n : UInt64) :
    (w.accept n).2 = false ↔ w.Refuses n := by
  constructor
  · intro h
    by_contra hr
    rw [(accept_taken hr).1] at h
    cases h
  · intro h
    rw [accept_refused h]

theorem NonceWindow.accept_result_true (w : NonceWindow) (n : UInt64) :
    (w.accept n).2 = true ↔ ¬ w.Refuses n := by
  rw [← accept_result,Bool.not_eq_false]

/-- One presentation, accepted or not: the id itself and all ids a window width below it
are refused from then on, and nothing else changes. -/
theorem NonceWindow.refuses_accept (w : NonceWindow) (m n : UInt64) :
    (w.accept m).1.Refuses n ↔ w.Refuses n ∨ Covers windowSize m.toNat n.toNat := by
  by_cases hn : n = 0
  · exact ⟨fun _ => Or.inl (Or.inl hn),fun _ => Or.inl hn⟩
  · have hpos := toNat_pos hn
    by_cases hm : w.Refuses m
    · rw [accept_refused hm]
      constructor
      · exact Or.inl
      · rintro (h | hc)
        · exact h
        · rcases hm with hz | ⟨htop,hs⟩
          · subst hz
            unfold Covers at hc
            simp only [UInt64.toNat_zero] at hc
            omega
          · exact Or.inr ⟨htop,hs.covers hc⟩
    · obtain ⟨_,htop,hshut⟩ := accept_taken hm
      unfold Refuses
      simp only [hn,false_or,htop,ne_eq,not_false_eq_true,true_and]
      exact hshut n.toNat hpos

/-- Accepting always leaves a trace: the id is refused from then on. -/
theorem NonceWindow.accept_changes {w : NonceWindow} {n : UInt64} (h : ¬ w.Refuses n) :
    (w.accept n).1 ≠ w := by
  intro he
  have hr := (refuses_accept w n n).mpr (Or.inr (Or.inl rfl))
  rw [he] at hr
  exact h hr

@[simp] theorem NonceWindow.refuses_reset (w : NonceWindow) (n : UInt64) :
    w.reset.Refuses n ↔ n = 0 := by
  simp [Refuses,reset]

def NonceWindow.present (w : NonceWindow) (ids : List UInt64) : NonceWindow :=
  ids.foldl (fun w n => (w.accept n).1) w

/-- What a window turns away after any run of presentations. -/
theorem NonceWindow.refuses_present (w : NonceWindow) (ids : List UInt64) (n : UInt64) :
    (w.present ids).Refuses n ↔
      w.Refuses n ∨ ∃ m ∈ ids, Covers windowSize m.toNat n.toNat := by
  induction ids generalizing w with
  | nil => simp [present]
  | cons m ids ih =>
    have hstep : w.present (m :: ids) = (w.accept m).1.present ids := rfl
    rw [hstep,ih,refuses_accept]
    simp only [List.mem_cons,exists_eq_or_imp,or_assoc]

end GoodNet
