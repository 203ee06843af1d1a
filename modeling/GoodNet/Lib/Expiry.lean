import Mathlib.Data.List.Basic
set_option autoImplicit false

/-! Queues of stamped entries, one for each key, and an expiry in two passes: the first lists the
keys whose oldest entry is too old, the second drops what is too old under the listed keys.
Anything may happen to the queues in between, as long as new entries come last and are stamped by
a clock that does not go back. -/

namespace Expiry

variable {κ α : Type} (stamp : α → Nat) (ttl : Nat)

def Stale (now : Nat) (a : α) : Prop := ttl < now-stamp a

instance (now : Nat) (a : α) : Decidable (Stale stamp ttl now a) :=
  inferInstanceAs (Decidable (ttl < now-stamp a))

/-- What is not too old, in the order it has. -/
def fresh (now : Nat) (queue : List α) : List α := queue.filter (fun a => ¬ Stale stamp ttl now a)

/-- The test of the first pass. -/
def FrontStale (now : Nat) : List α → Prop
  | [] => False
  | a :: _ => Stale stamp ttl now a

/-- The queues are in the order of their stamps, and no stamp is ahead of the clock. -/
structure Ordered (clock : Nat) (queues : κ → List α) : Prop where
  sorted : ∀ k, (queues k).Pairwise (fun a b => stamp a ≤ stamp b)
  past : ∀ k, ∀ a ∈ queues k, stamp a ≤ clock

/-- A queue is dropped, stays, or takes in an entry stamped now. -/
def Moves (clock : Nat) (queues queues' : κ → List α) : Prop :=
  ∀ k, queues' k = [] ∨ queues' k = queues k ∨
    ∃ a, queues' k = queues k ++ [a] ∧ stamp a = clock

/-- Every key with an entry that is too old is among the listed ones. -/
def Listed (now : Nat) (keys : List κ) (queues : κ → List α) : Prop :=
  ∀ k, ∀ a ∈ queues k, Stale stamp ttl now a → k ∈ keys

variable {stamp ttl} {clock clock' now : Nat} {keys : List κ} {queues queues' : κ → List α}

theorem Moves.refl (clock : Nat) (queues : κ → List α) : Moves stamp clock queues queues :=
  fun _ => .inr (.inl rfl)

theorem Ordered.later (h : Ordered stamp clock queues) (hle : clock ≤ clock') :
    Ordered stamp clock' queues :=
  ⟨h.sorted,fun k a ha => Nat.le_trans (h.past k a ha) hle⟩

theorem Ordered.moves (h : Ordered stamp clock queues) (hm : Moves stamp clock queues queues') :
    Ordered stamp clock queues' := by
  constructor
  · intro k
    rcases hm k with hnil | hsame | ⟨a,happ,hstamp⟩
    · rw [hnil]
      exact .nil
    · rw [hsame]
      exact h.sorted k
    · rw [happ]
      refine List.pairwise_append.2 ⟨h.sorted k,List.pairwise_singleton _ _,fun b hb c hc => ?_⟩
      rw [List.mem_singleton.1 hc,hstamp]
      exact h.past k b hb
  · intro k a ha
    rcases hm k with hnil | hsame | ⟨b,happ,hstamp⟩
    · rw [hnil] at ha
      cases ha
    · rw [hsame] at ha
      exact h.past k a ha
    · rw [happ] at ha
      rcases List.mem_append.1 ha with ha | ha
      · exact h.past k a ha
      · rw [List.mem_singleton.1 ha]
        exact Nat.le_of_eq hstamp

/-- An entry that comes in after the clock was read is not too old by that reading. -/
theorem Listed.moves (h : Listed stamp ttl now keys queues) (hnow : now ≤ clock)
    (hm : Moves stamp clock queues queues') : Listed stamp ttl now keys queues' := by
  intro k a ha hs
  rcases hm k with hnil | hsame | ⟨b,happ,hstamp⟩
  · rw [hnil] at ha
    cases ha
  · rw [hsame] at ha
    exact h k a ha hs
  · rw [happ] at ha
    rcases List.mem_append.1 ha with ha | ha
    · exact h k a ha hs
    · rw [List.mem_singleton.1 ha] at hs
      unfold Stale at hs
      omega

/-- In an ordered queue the front is too old if any entry is. -/
theorem frontStale {queue : List α} (h : queue.Pairwise (fun a b => stamp a ≤ stamp b)) {a : α}
    (ha : a ∈ queue) (hs : Stale stamp ttl now a) : FrontStale stamp ttl now queue := by
  cases queue with
  | nil => cases ha
  | cons b queue =>
    unfold FrontStale Stale at *
    rcases List.mem_cons.1 ha with rfl | ha
    · exact hs
    · have hle := List.rel_of_pairwise_cons h ha
      omega

/-- The first pass misses no key. -/
theorem Ordered.listed (h : Ordered stamp clock queues)
    (hkeys : ∀ k, FrontStale stamp ttl now (queues k) → k ∈ keys) :
    Listed stamp ttl now keys queues :=
  fun k _ ha hs => hkeys k (frontStale (h.sorted k) ha hs)

theorem fresh_sublist (now : Nat) (queue : List α) : (fresh stamp ttl now queue).Sublist queue :=
  List.filter_sublist

theorem not_stale_of_fresh {queue : List α} {a : α} (h : a ∈ fresh stamp ttl now queue) :
    ¬ Stale stamp ttl now a := by
  simpa using (List.mem_filter.1 h).2

theorem fresh_fresh (now : Nat) (queue : List α) :
    fresh stamp ttl now (fresh stamp ttl now queue) = fresh stamp ttl now queue := by
  unfold fresh
  rw [List.filter_filter]
  simp

theorem fresh_of_not_stale {queue : List α} (h : ∀ a ∈ queue, ¬ Stale stamp ttl now a) :
    fresh stamp ttl now queue = queue :=
  List.filter_eq_self.2 (fun a ha => by simpa using h a ha)

theorem Ordered.fresh (h : Ordered stamp clock queues)
    (hq : ∀ k, queues' k = queues k ∨ queues' k = fresh stamp ttl now (queues k)) :
    Ordered stamp clock queues' := by
  constructor
  · intro k
    rcases hq k with heq | heq
    · rw [heq]
      exact h.sorted k
    · rw [heq]
      exact (h.sorted k).sublist (fresh_sublist now _)
  · intro k a ha
    rcases hq k with heq | heq
    · rw [heq] at ha
      exact h.past k a ha
    · rw [heq] at ha
      exact h.past k a ((fresh_sublist now _).subset ha)

/-- What another expiry drops is not missed by this one. -/
theorem Listed.fresh {now' : Nat} (h : Listed stamp ttl now keys queues)
    (hq : ∀ k, queues' k = queues k ∨ queues' k = fresh stamp ttl now' (queues k)) :
    Listed stamp ttl now keys queues' := by
  intro k a ha hs
  rcases hq k with heq | heq
  · rw [heq] at ha
    exact h k a ha hs
  · rw [heq] at ha
    exact h k a ((fresh_sublist now' _).subset ha) hs

/-- The second pass treats the keys it was not given as it treats the others. -/
theorem Listed.swept [DecidableEq κ] (h : Listed stamp ttl now keys queues) (k : κ) :
    (if k ∈ keys then Expiry.fresh stamp ttl now (queues k) else queues k) =
      Expiry.fresh stamp ttl now (queues k) := by
  by_cases hk : k ∈ keys
  · rw [if_pos hk]
  · rw [if_neg hk,fresh_of_not_stale (fun a ha hs => hk (h k a ha hs))]

end Expiry
