import Mathlib.Data.List.Basic
set_option autoImplicit false

/-! Keys with the time each was taken in, for the question whether one has been seen lately. The old
ones go only when there are more than `limit`. -/

namespace RecentKeys

variable {κ : Type}

def sweep (ttl limit now : Nat) (entries : List (κ × Nat)) : List (κ × Nat) :=
  if limit < entries.length then entries.filter (fun e => decide (now ≤ e.2+ttl)) else entries

/-- One question. A key that is not there is taken in. -/
def present [DecidableEq κ] (ttl limit : Nat) (entries : List (κ × Nat)) (now : Nat) (k : κ) :
    List (κ × Nat) × Bool :=
  let kept := sweep ttl limit now entries
  if kept.any (fun e => decide (e.1 = k)) then (kept,true) else ((k,now) :: kept,false)

/-- A question with its answer. -/
structure Presented (κ : Type) where
  key : κ
  time : Nat
  seen : Bool

/-- Every entry was taken in by a question, and what was taken in lately is there. -/
structure Faithful (ttl upto : Nat) (past : List (Presented κ)) (entries : List (κ × Nat)) :
    Prop where
  only : ∀ e ∈ entries, ∃ p ∈ past, p.seen = false ∧ p.key = e.1 ∧ p.time = e.2
  kept : ∀ p ∈ past, p.seen = false → upto ≤ p.time+ttl → (p.key,p.time) ∈ entries

variable {ttl limit now upto : Nat} {entries : List (κ × Nat)} {past : List (Presented κ)} {k : κ}

theorem mem_of_mem_sweep {e : κ × Nat} (h : e ∈ sweep ttl limit now entries) : e ∈ entries := by
  unfold sweep at h
  split at h
  · exact (List.mem_filter.1 h).1
  · exact h

theorem mem_sweep {e : κ × Nat} (h : e ∈ entries) (hnow : now ≤ e.2+ttl) :
    e ∈ sweep ttl limit now entries := by
  unfold sweep
  split
  · exact List.mem_filter.2 ⟨h,decide_eq_true hnow⟩
  · exact h

theorem Faithful.nil : Faithful ttl upto ([] : List (Presented κ)) [] :=
  ⟨by simp,by simp⟩

theorem Faithful.later {upto' : Nat} (h : Faithful ttl upto past entries) (hle : upto ≤ upto') :
    Faithful ttl upto' past entries :=
  ⟨h.only,fun p hp hnew hrecent => h.kept p hp hnew (Nat.le_trans hle hrecent)⟩

variable [DecidableEq κ]

theorem present_seen_iff :
    (present ttl limit entries now k).2 = true ↔ ∃ t, (k,t) ∈ sweep ttl limit now entries := by
  unfold present
  dsimp only
  split
  · rename_i hany
    obtain ⟨⟨k',t⟩,he,hk⟩ := List.any_eq_true.1 hany
    have hk' : k' = k := by simpa using hk
    exact ⟨fun _ => ⟨t,hk' ▸ he⟩,fun _ => rfl⟩
  · rename_i hany
    constructor
    · intro h
      cases h
    · rintro ⟨t,he⟩
      exact absurd (List.any_eq_true.2 ⟨(k,t),he,by simp⟩) hany

theorem present_new (h : (present ttl limit entries now k).2 = false) :
    (present ttl limit entries now k).1 = (k,now) :: sweep ttl limit now entries := by
  unfold present at h ⊢
  dsimp only at h ⊢
  split
  · rename_i hany
    rw [if_pos hany] at h
    cases h
  · rfl

theorem mem_present {e : κ × Nat} (h : e ∈ sweep ttl limit now entries) :
    e ∈ (present ttl limit entries now k).1 := by
  unfold present
  dsimp only
  split
  · exact h
  · exact List.mem_cons_of_mem _ h

theorem Faithful.present (h : Faithful ttl upto past entries) (hle : upto ≤ now) :
    Faithful ttl now (past ++ [⟨k,now,(RecentKeys.present ttl limit entries now k).2⟩])
      (RecentKeys.present ttl limit entries now k).1 := by
  have hold : ∀ e ∈ sweep ttl limit now entries, ∃ p ∈ past, p.seen = false ∧ p.key = e.1 ∧
      p.time = e.2 := fun e he => h.only e (mem_of_mem_sweep he)
  constructor
  · intro e he
    cases hseen : (RecentKeys.present ttl limit entries now k).2 with
    | true =>
      unfold RecentKeys.present at he hseen
      dsimp only at he hseen
      split at hseen
      · rename_i hany
        rw [if_pos hany] at he
        obtain ⟨p,hp,hrest⟩ := hold e he
        exact ⟨p,List.mem_append_left _ hp,hrest⟩
      · cases hseen
    | false =>
      rw [present_new hseen] at he
      rcases List.mem_cons.1 he with rfl | he
      · exact ⟨⟨k,now,false⟩,by simp,rfl,rfl,rfl⟩
      · obtain ⟨p,hp,hrest⟩ := hold e he
        exact ⟨p,List.mem_append_left _ hp,hrest⟩
  · intro p hp hnew hrecent
    rcases List.mem_append.1 hp with hp | hp
    · exact mem_present (mem_sweep (h.kept p hp hnew (Nat.le_trans hle hrecent)) hrecent)
    · rw [List.mem_singleton.1 hp] at hnew ⊢
      rw [present_new hnew]
      exact List.mem_cons_self

/-- A key that was never asked about is new. -/
theorem Faithful.unseen (h : Faithful ttl upto past entries) (hk : ∀ p ∈ past, p.key ≠ k) :
    (RecentKeys.present ttl limit entries now k).2 = false := by
  rw [← Bool.not_eq_true,present_seen_iff]
  rintro ⟨t,ht⟩
  obtain ⟨p,hp,-,hkey,-⟩ := h.only _ (mem_of_mem_sweep ht)
  exact hk p hp hkey

/-- A key that was taken in lately is found. -/
theorem Faithful.seen (h : Faithful ttl upto past entries) (hle : upto ≤ now) {p : Presented κ}
    (hp : p ∈ past) (hnew : p.seen = false) (hk : p.key = k) (hrecent : now ≤ p.time+ttl) :
    (RecentKeys.present ttl limit entries now k).2 = true := by
  refine present_seen_iff.2 ⟨p.time,?_⟩
  rw [← hk]
  exact mem_sweep (h.kept p hp hnew (Nat.le_trans hle hrecent)) hrecent

end RecentKeys
