import GoodNet.ManagerState
import GoodNet.Lib.ReservedQueue
set_option autoImplicit false

/-! `PerConnQueue` as several threads use it. `try_push` reserves its bytes with a
`fetch_add`, then either takes them back or appends the frame under the lock; `drain_batch`
erases its frames under the lock and lowers the counter before it unlocks. Every frame that is
counted is in memory, so the counter is far from wrapping. -/

namespace GoodNet
open Codec Interleaving ReservedQueue

/-- The queue and the calls at work on it. -/
abbrev SharedQueue := Queue Bytes

abbrev QueueStep := ReservedQueue.Step Bytes

def SharedQueue.act (q : SharedQueue) (a : QueueStep) : SharedQueue :=
  Queue.act List.length perConnMaxBytes q a

def SharedQueue.run (q : SharedQueue) (steps : List QueueStep) : SharedQueue :=
  Interleaving.run SharedQueue.act q steps

/-- The object as the code stores it. -/
def SharedQueue.object (q : SharedQueue) (draining : Bool) : PerConnQueue :=
  ⟨q.items,q.counter,draining⟩

/-- The frames of the `try_push` calls that found room, in the order of their appends. -/
def SharedQueue.grantedFrames (steps : List QueueStep) : List Bytes :=
  Queue.letIn List.length perConnMaxBytes {} [] steps

/-- No call is between its steps. -/
def SharedQueue.atRest (q : SharedQueue) : Bool := q.pushing.isEmpty && q.leaving.isNone

section
variable {q : SharedQueue}

theorem total_length (frames : List Bytes) : total List.length frames = totalBytes frames := by
  induction frames with
  | nil => rfl
  | cons f frames ih =>
    rw [total_cons,ih,totalBytes,totalBytes,List.map_cons,List.sum_cons]

/-- The steps of `try_push` with nothing in between. -/
theorem SharedQueue.push_alone {thread : Nat} (h : q.busy thread = false) (hl : q.leaving = none)
    (frame : Bytes) (draining : Bool) :
    ((q.object draining).tryPush frame).1 =
      ((q.act (.reserve thread frame)).act
        (if ((q.object draining).tryPush frame).2 then .append thread else .rollBack thread)).object
          draining := by
  unfold PerConnQueue.tryPush
  by_cases hfit : perConnMaxBytes < q.counter+frame.length
  · have hover : ¬ q.counter+frame.length ≤ perConnMaxBytes := by omega
    simp [object,act,Queue.act,h,Queue.reserve,pick,Push.of,hfit,hover]
  · have hwithin : q.counter+frame.length ≤ perConnMaxBytes := by omega
    simp [object,act,Queue.act,h,hl,Queue.reserve,pick,Push.of,hfit,hwithin]

/-- The steps of `drain_batch` with nothing in between. -/
theorem SharedQueue.drain_alone {thread : Nat} (h : q.busy thread = false) (hl : q.leaving = none)
    (maxFrames : Nat) (draining : Bool) :
    ∃ q', q' = (q.act (.take thread maxFrames)).act (.settle thread) ∧
      ((q.object draining).drainBatch maxFrames).1 = q'.object draining ∧
      q'.drained = q.drained ++ [((q.object draining).drainBatch maxFrames).2] := by
  refine ⟨_,rfl,?_,?_⟩
  · simp [object,act,Queue.act,h,hl,PerConnQueue.drainBatch,total_length]
  · simp [object,act,Queue.act,h,hl,PerConnQueue.drainBatch]

end

/-- In every run of `try_push` and `drain_batch` calls on a new queue the counter is the bytes
of the queued frames and of the outstanding reservations, so that nothing is ever subtracted
that is not there; the accepted frames are those that found room, in the order of their appends;
they stay within the limit; and the batches drained so far and what is left are the accepted
frames in order. -/
theorem queue_accounted (steps : List QueueStep) :
    let q := SharedQueue.run {} steps
    q.counter = totalBytes q.items+(totalBytes q.reserved+totalBytes q.taken) ∧
    (∀ p ∈ q.pushing, p.item.length ≤ q.counter) ∧ totalBytes q.taken ≤ q.counter ∧
    totalBytes q.items+(totalBytes q.granted+totalBytes q.taken) ≤ perConnMaxBytes ∧
    q.accepted = SharedQueue.grantedFrames steps ∧
    q.drained.flatten ++ q.taken ++ q.items = q.accepted ∧
    (q.atRest = true → q.items = [] → q.counter = 0) := by
  intro q
  have hq : q.Sound List.length perConnMaxBytes :=
    run_invariant (fun _ a h => h.act a) Queue.Sound.start steps
  have hgranted : q.accepted = SharedQueue.grantedFrames steps :=
    Queue.accepted_run List.length perConnMaxBytes {} steps
  obtain ⟨hcount,hbound,hkept⟩ := hq
  have hone : ∀ p ∈ q.pushing, p.item.length ≤ total List.length q.reserved :=
    fun p hp => size_le_total (List.mem_map_of_mem hp)
  simp only [total_length] at hcount hbound hone
  refine ⟨by omega,fun p hp => ?_,by omega,by omega,hgranted,hkept,fun hrest hnone => ?_⟩
  · have hle := hone p hp
    omega
  · simp only [SharedQueue.atRest,Bool.and_eq_true,List.isEmpty_iff,Option.isNone_iff_eq_none]
      at hrest
    have hreserved : q.reserved = [] := by simp [Queue.reserved,hrest.1]
    have htaken : q.taken = [] := by simp [Queue.taken,hrest.2]
    rw [hcount,hnone,hreserved,htaken]
    rfl

/-- Two threads reserve before either appends, a third one drains meanwhile, and a fourth one
comes with `large` and takes its bytes back. -/
def crossedPushes (large : Bytes) : List QueueStep :=
  [.reserve 1 [1],.reserve 2 [2,3],.append 2,.append 1,.reserve 4 large,.take 3 1,.append 4,
    .settle 3,.append 4,.rollBack 4,.reserve 1 [4],.append 1]

theorem crossedPushes_run {large : Bytes} (h : perConnMaxBytes < large.length) :
    SharedQueue.run {} (crossedPushes large) =
      ⟨[[1],[4]],2,[],none,[[2,3],[1],[4]],[[[2,3]]]⟩ := by
  have hover : ¬ 3+large.length ≤ perConnMaxBytes := by omega
  have hone : 3+large.length-2-large.length = 1 := by omega
  have hroom : ∀ n, n ≤ 3 → n ≤ perConnMaxBytes := fun n hn => hn.trans (by decide)
  simp [crossedPushes,SharedQueue.run,Interleaving.run,SharedQueue.act,Queue.act,Queue.busy,
    Queue.reserve,pick,Push.of,hover,hone,hroom]

theorem queue_accounted_crossed : ∃ large : Bytes, perConnMaxBytes < large.length ∧
    let q := SharedQueue.run {} (crossedPushes large)
    SharedQueue.grantedFrames (crossedPushes large) = [[2,3],[1],[4]] ∧ q.drained = [[[2,3]]] ∧
      q.items = [[1],[4]] ∧ q.counter = 2 ∧
      q.drained.flatten ++ q.taken ++ q.items = q.accepted := by
  obtain ⟨large,hlarge⟩ : ∃ large : Bytes, perConnMaxBytes < large.length :=
    ⟨List.replicate (perConnMaxBytes+1) 0,by rw [List.length_replicate]; exact Nat.lt_succ_self _⟩
  obtain ⟨_,_,_,_,hgranted,hkept,_⟩ := queue_accounted (crossedPushes large)
  refine ⟨large,hlarge,?_⟩
  rw [crossedPushes_run hlarge] at hgranted hkept ⊢
  exact ⟨hgranted.symm,rfl,rfl,rfl,hkept⟩

end GoodNet
