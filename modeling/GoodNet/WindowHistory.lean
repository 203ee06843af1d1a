import GoodNet.NonceWindow
set_option autoImplicit false

/-! The window remembers exactly what it has accepted, as far back as it reaches. -/

namespace GoodNet
open SlidingWindow

/-- The packet ids that `accept` takes, in a run of calls. -/
def NonceWindow.accepted (w : NonceWindow) : List UInt64 → List UInt64
  | [] => []
  | n :: ids =>
    let next := w.accept n
    if next.2 then n :: next.1.accepted ids else next.1.accepted ids

/-- The largest of some packet ids, zero when there are none. -/
def largest (ids : List UInt64) : Nat := ids.foldr (fun n h => max n.toNat h) 0

def takenBy (ids : List UInt64) (m : Nat) : Prop := ∃ n ∈ ids, n.toNat = m

/-- A window whose accepted packet ids are `ids`. -/
structure NonceWindow.Tracks (w : NonceWindow) (ids : List UInt64) : Prop where
  top : w.highestNonce.toNat = largest ids
  bits : Records w.highestNonce.toNat w.bitmap (takenBy ids)
  nonzero : ∀ n ∈ ids, n ≠ 0

section
variable {w : NonceWindow} {ids : List UInt64} {n : UInt64}

theorem largest_append (ids : List UInt64) (n : UInt64) :
    largest (ids ++ [n]) = max (largest ids) n.toNat := by
  unfold largest
  induction ids with
  | nil => simp
  | cons m ids ih =>
    simp only [List.cons_append,List.foldr_cons,ih]
    omega

theorem le_largest (h : n ∈ ids) : n.toNat ≤ largest ids := by
  unfold largest
  induction ids with
  | nil => cases h
  | cons m ids ih =>
    rw [List.foldr_cons]
    rcases List.mem_cons.mp h with rfl | h
    · omega
    · have := ih h
      omega

theorem largest_eq_zero (h : ∀ m ∈ ids, m ≠ 0) (hz : largest ids = 0) : ids = [] := by
  cases ids with
  | nil => rfl
  | cons m ids =>
    have hle : m.toNat ≤ largest (m :: ids) := le_largest List.mem_cons_self
    have hpos := toNat_pos (h m List.mem_cons_self)
    omega

theorem takenBy_append (ids : List UInt64) (n : UInt64) (m : Nat) :
    takenBy (ids ++ [n]) m ↔ takenBy ids m ∨ m = n.toNat := by
  unfold takenBy
  simp only [List.mem_append,List.mem_singleton,or_and_right,exists_or,exists_eq_left]
  rw [eq_comm (a := m)]

theorem NonceWindow.tracks_reset (w : NonceWindow) : w.reset.Tracks [] := by
  refine ⟨rfl,fun i _ => ?_,by simp⟩
  simp [takenBy,reset]

theorem Records.taken {top : Nat} {map : BitVec 256}
    (h : Records top map (fun m => takenBy ids m ∨ m = n.toNat)) :
    Records top map (takenBy (ids ++ [n])) := by
  intro i hi
  simp only [takenBy_append]
  exact h i hi

/-- What the window answers, in terms of what it has accepted. -/
theorem NonceWindow.Tracks.accept_iff (h : w.Tracks ids) (n : UInt64) :
    (w.accept n).2 = true ↔ n ≠ 0 ∧ n ∉ ids ∧ (ids = [] ∨ largest ids < n.toNat+256) := by
  have hmem : ∀ i, n.toNat+i = largest ids → i < 256 →
      (w.bitmap.getLsbD i = true ↔ n ∈ ids) := by
    intro i hsum hi
    rw [h.bits i hi,h.top]
    constructor
    · rintro ⟨m,⟨k,hk,rfl⟩,heq⟩
      have hkn : k = n := UInt64.toNat_inj.mp (by omega)
      rw [← hkn]
      exact hk
    · intro hn
      exact ⟨n.toNat,⟨n,hn,rfl⟩,hsum⟩
  rw [accept_result_true]
  unfold Refuses
  by_cases hz : n = 0
  · simp [hz]
  · by_cases hnone : ids = []
    · have htop : w.highestNonce = 0 := by
        have := h.top
        rw [hnone] at this
        exact UInt64.toNat_inj.mp this
      simp [hz,hnone,htop]
    · have htop : w.highestNonce ≠ 0 := by
        intro hc
        have hlarge := h.top
        rw [hc] at hlarge
        exact hnone (largest_eq_zero h.nonzero hlarge.symm)
      simp only [hz,false_or,htop,ne_eq,not_false_eq_true,true_and,hnone]
      unfold Shut
      rw [h.top]
      by_cases hle : n.toNat ≤ largest ids
      · by_cases hfar : 256 ≤ largest ids-n.toNat
        · have hout : ¬ largest ids < n.toNat+256 := by omega
          simp [hle,hfar,hout]
        · have hbit := hmem (largest ids-n.toNat) (by omega) (by omega)
          have hin : largest ids < n.toNat+256 := by omega
          simp only [hle,hfar,hin,false_or,true_and,and_true]
          rw [hbit]
      · have hnew : n ∉ ids := fun hc => hle (le_largest hc)
        have hin : largest ids < n.toNat+256 := by omega
        simp [hle,hnew,hin]

/-- One call keeps the books, whichever of its branches it takes. -/
theorem NonceWindow.Tracks.accept (h : w.Tracks ids) (hn : (w.accept n).2 = true) :
    (w.accept n).1.Tracks (ids ++ [n]) := by
  have hz : n ≠ 0 := ((h.accept_iff n).mp hn).1
  have hpos := toNat_pos hz
  have hle : ∀ m, takenBy ids m → m ≤ w.highestNonce.toNat := by
    rintro m ⟨k,hk,rfl⟩
    rw [h.top]
    exact le_largest hk
  have hnonzero : ∀ m ∈ ids ++ [n], m ≠ 0 := by
    intro m hm
    rcases List.mem_append.mp hm with hm | hm
    · exact h.nonzero m hm
    · rw [List.mem_singleton.mp hm]
      exact hz
  have htop := h.top
  by_cases hfirst : w.highestNonce = 0
  · have hempty : ids = [] := by
      rw [hfirst] at htop
      exact largest_eq_zero h.nonzero htop.symm
    subst hempty
    have hbits : Records n.toNat (setBit 0#256 0) (takenBy ([] ++ [n])) := by
      apply Records.taken
      have hnil : Records 0 (0#256) (takenBy []) := by
        intro i _
        simp [takenBy]
      have hup := hnil.advance hpos (fun m hm => by simp [takenBy] at hm)
      rwa [BitVec.zero_shiftLeft] at hup
    have hacc : (w.accept n).1 = { highestNonce := n, bitmap := setBit 0#256 0 } := by
      simp [NonceWindow.accept,hz,hfirst]
    rw [hacc]
    exact ⟨by simp [largest],hbits,hnonzero⟩
  · by_cases hlt : w.highestNonce < n
    · have hlt' : w.highestNonce.toNat < n.toNat := UInt64.lt_iff_toNat_lt.mp hlt
      have hsub := toNat_diff (UInt64.le_of_lt hlt)
      have hmax : n.toNat = largest (ids ++ [n]) := by
        rw [largest_append]
        omega
      by_cases hfar : windowSize ≤ n.toNat-w.highestNonce.toNat
      · have hacc : (w.accept n).1 = { highestNonce := n, bitmap := setBit 0#256 0 } := by
          simp [NonceWindow.accept,hz,hfirst,hlt,hsub,hfar]
        rw [hacc]
        exact ⟨hmax,Records.taken (h.bits.advance_far hlt' hle hfar),hnonzero⟩
      · have hacc : (w.accept n).1 =
            ⟨n,setBit (w.bitmap <<< (n.toNat-w.highestNonce.toNat)) 0⟩ := by
          simp [NonceWindow.accept,hz,hfirst,hlt,hsub,hfar]
        rw [hacc]
        exact ⟨hmax,Records.taken (h.bits.advance hlt' hle),hnonzero⟩
    · have hle' : n ≤ w.highestNonce := UInt64.not_lt.mp hlt
      have hnat : n.toNat ≤ w.highestNonce.toNat := UInt64.le_iff_toNat_le.mp hle'
      have hsub := toNat_diff hle'
      have hfree : ¬ w.Refuses n := (accept_result_true w n).mp hn
      have hnear : ¬ windowSize ≤ w.highestNonce.toNat-n.toNat :=
        fun hc => hfree (Or.inr ⟨hfirst,hnat,Or.inl hc⟩)
      have hbit : ¬ w.bitmap.getLsbD (w.highestNonce.toNat-n.toNat) = true :=
        fun hc => hfree (Or.inr ⟨hfirst,hnat,Or.inr hc⟩)
      have hacc : (w.accept n).1 =
          { w with bitmap := setBit w.bitmap (w.highestNonce.toNat-n.toNat) } := by
        simp [NonceWindow.accept,hz,hfirst,hlt,hsub,hnear,hbit]
      rw [hacc]
      refine ⟨?_,Records.taken (h.bits.mark hnat (by unfold windowSize at hnear; omega)),hnonzero⟩
      rw [largest_append]
      show w.highestNonce.toNat = _
      omega

theorem NonceWindow.Tracks.present (h : w.Tracks ids) (calls : List UInt64) :
    (w.present calls).Tracks (ids ++ w.accepted calls) := by
  induction calls generalizing w ids with
  | nil => simpa [NonceWindow.present,accepted] using h
  | cons n calls ih =>
    have hstep : w.present (n :: calls) = (w.accept n).1.present calls := rfl
    rw [hstep]
    unfold accepted
    cases hn : (w.accept n).2 with
    | true =>
      have hnext := ih (h.accept hn)
      simpa [hn] using hnext
    | false =>
      have hsame : (w.accept n).1 = w := by
        rw [accept_refused ((accept_result w n).mp hn)]
      have hnext := ih h
      simpa [hn,hsame] using hnext

/-- After any run of calls from the reset state: the next packet id is taken exactly when it
is not zero, has not been taken before and lies less than a window width below the largest
one taken; and the fields are the set of taken ids, read off downwards. -/
theorem nonce_window_exact (w : NonceWindow) (calls : List UInt64) (n : UInt64) :
    (((w.reset.present calls).accept n).2 = true ↔ n ≠ 0 ∧ n ∉ w.reset.accepted calls ∧
      (w.reset.accepted calls = [] ∨
        (largest (w.reset.accepted calls) : Int)-256 < n.toNat)) ∧
    (∀ i, i < 256 → ((w.reset.present calls).bitmap.getLsbD i = true ↔
      ∃ m ∈ w.reset.accepted calls,
        (m.toNat : Int) = (largest (w.reset.accepted calls) : Int)-i)) ∧
    (w.reset.present calls).highestNonce.toNat = largest (w.reset.accepted calls) := by
  have h := w.tracks_reset.present calls
  rw [List.nil_append] at h
  refine ⟨?_,fun i hi => ?_,h.top⟩
  · rw [h.accept_iff]
    have hint : (largest (w.reset.accepted calls) : Int)-256 < n.toNat ↔
        largest (w.reset.accepted calls) < n.toNat+256 := by omega
    rw [hint]
  · rw [h.bits i hi,h.top]
    constructor
    · rintro ⟨m,⟨k,hk,rfl⟩,hsum⟩
      exact ⟨k,hk,by omega⟩
    · rintro ⟨m,hm,hsum⟩
      exact ⟨m.toNat,⟨m,hm,rfl⟩,by omega⟩

/-- Both ends of the window, and the largest packet id there is. -/
example : (({} : NonceWindow).present [1,256]).bitmap.getLsbD 255 = true ∧
    ((({} : NonceWindow).present [2,257]).accept 1).2 = false ∧
    ((({} : NonceWindow).present [2,257]).accept 18446744073709551615).2 = true := by decide

end

end GoodNet
