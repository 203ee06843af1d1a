import GoodNet.Lib.Interleaving
import Mathlib.Data.List.Count
set_option autoImplicit false

/-! `EventSignal` of `include/signals.hpp`. `emit` copies the handlers under the lock and posts
one task for each after it has let go of it; the strand runs the tasks one at a time, oldest
first. -/

namespace GoodNet
open Interleaving

/-- A call of `emit` that has left the lock: whose it is, its arguments, and the handlers of its
copy that nothing has been posted for. -/
structure Emission (F E : Type) where
  thread : Nat
  event : E
  left : List F
  deriving DecidableEq, Repr

/-- A task on the strand. The thread that posted it is part of the history only. -/
structure SignalTask (F E : Type) where
  thread : Nat
  handler : F
  event : E
  deriving DecidableEq, Repr

/-- `emissions` has a call for each thread that is inside `emit`. `emitted` are the copies taken
under the lock and `handled` the tasks that have been run, both oldest first. -/
structure EventSignal (F E : Type) where
  handlers : List F := []
  emissions : List (Emission F E) := []
  strand : List (SignalTask F E) := []
  emitted : List (Emission F E) := []
  handled : List (SignalTask F E) := []
  deriving DecidableEq, Repr

inductive SignalStep (F E : Type) where
  | connect (h : F)
  | emit (thread : Nat) (event : E)
  | post (thread : Nat)
  | runTask
  deriving DecidableEq, Repr

section
variable {F E : Type}

def EventSignal.connect (s : EventSignal F E) (h : F) : EventSignal F E :=
  { s with handlers := s.handlers ++ [h] }

def EventSignal.isEmitting (s : EventSignal F E) (thread : Nat) : Bool :=
  s.emissions.any (fun m => m.thread == thread)

/-- The part of `emit` under the lock. A thread is inside one call at a time. -/
def EventSignal.emit (s : EventSignal F E) (thread : Nat) (event : E) : EventSignal F E :=
  if s.isEmitting thread then s
  else
    { s with
      emissions := ⟨thread,event,s.handlers⟩ :: s.emissions,
      emitted := s.emitted ++ [⟨thread,event,s.handlers⟩] }

/-- The loop of `emit` goes on: it posts the next task, or the call returns. -/
def EventSignal.post (s : EventSignal F E) (thread : Nat) : EventSignal F E :=
  match pick (fun m => m.thread == thread) s.emissions with
  | none => s
  | some (m,others) =>
    match m.left with
    | [] => { s with emissions := others }
    | h :: rest =>
      { s with
        emissions := { m with left := rest } :: others,
        strand := s.strand ++ [⟨m.thread,h,m.event⟩] }

/-- The handler runs; what it throws is swallowed. -/
def EventSignal.runTask (s : EventSignal F E) : EventSignal F E :=
  match s.strand with
  | [] => s
  | t :: rest => { s with strand := rest, handled := s.handled ++ [t] }

def EventSignal.act (s : EventSignal F E) : SignalStep F E → EventSignal F E
  | .connect h => s.connect h
  | .emit thread event => s.emit thread event
  | .post thread => s.post thread
  | .runTask => s.runTask

/-- The steps that a thread's call of `emit` still takes: a task for each handler of its copy that
is left, and the return. -/
def EventSignal.left (s : EventSignal F E) (thread : Nat) : Nat :=
  match s.emissions.find? (fun m => m.thread == thread) with
  | none => 0
  | some m => m.left.length+1

section
variable {s : EventSignal F E} {thread : Nat}

theorem EventSignal.left_free : s.left thread = 0 ↔ s.isEmitting thread = false := by
  unfold EventSignal.left isEmitting
  cases hf : s.emissions.find? (fun m => m.thread == thread) with
  | none => simpa using hf
  | some m =>
    have hm := List.find?_some hf
    have hin := List.mem_of_find?_eq_some hf
    simp only [Nat.add_eq_zero_iff,Nat.one_ne_zero,and_false,false_iff,Bool.not_eq_false]
    exact List.any_eq_true.mpr ⟨m,hin,hm⟩

theorem EventSignal.left_emit (event : E) (t : Nat) :
    (s.emit t event).left thread =
      if t = thread ∧ s.left thread = 0 then s.handlers.length+1 else s.left thread := by
  unfold EventSignal.emit
  split
  · rename_i hbusy
    rw [if_neg]
    rintro ⟨rfl,hfree⟩
    rw [EventSignal.left_free.mp hfree] at hbusy
    cases hbusy
  · rename_i hidle
    by_cases ht : t = thread
    · subst ht
      have hfree : s.left t = 0 := EventSignal.left_free.mpr (by simpa using hidle)
      rw [if_pos ⟨rfl,hfree⟩]
      simp [EventSignal.left]
    · simp [EventSignal.left,ht]

theorem EventSignal.left_post (h : (s.emissions.map Emission.thread).Nodup) (t : Nat) :
    (s.post t).left thread = if t = thread then s.left thread-1 else s.left thread := by
  have hfind := pick_find (fun m : Emission F E => m.thread == t) s.emissions
  unfold EventSignal.post
  split
  · rename_i hnone
    rw [hnone,Option.map_none] at hfind
    by_cases ht : t = thread
    · subst ht
      simp [EventSignal.left,← hfind]
    · simp [ht]
  · rename_i m others hpick
    obtain ⟨hm,before,after,hsplit,rfl⟩ := pick_some hpick
    rw [hsplit] at h
    have hmid := List.perm_middle.map Emission.thread |>.nodup_iff.mp h
    have hmt : m.thread = t := by simpa using hm
    unfold EventSignal.left
    by_cases ht : t = thread
    · subst ht
      have hnone : (before ++ after).find? (fun m => m.thread == t) = none := by
        have hout := (List.nodup_cons.mp hmid).1
        rw [List.find?_eq_none]
        intro m' hm' heq
        exact hout (List.mem_map.mpr ⟨m',hm',by simpa [hmt] using heq⟩)
      rw [hpick,Option.map_some] at hfind
      rw [← hfind]
      cases hleft : m.left with
      | nil => simp [hnone,hleft]
      | cons g rest => simp [hmt,hleft]
    · cases hleft : m.left with
      | nil => simp [hsplit,List.find?_append,hmt,ht]
      | cons g rest => simp [hsplit,List.find?_append,hmt,ht]

theorem EventSignal.emit_handlers (s : EventSignal F E) (t : Nat) (event : E) :
    (s.emit t event).handlers = s.handlers := by
  unfold EventSignal.emit
  split
  · rfl
  · rfl

theorem EventSignal.post_same (s : EventSignal F E) (t : Nat) :
    (s.post t).handlers = s.handlers ∧ (s.post t).emitted = s.emitted := by
  unfold EventSignal.post
  split
  · exact ⟨rfl,rfl⟩
  · split
    · exact ⟨rfl,rfl⟩
    · exact ⟨rfl,rfl⟩

theorem EventSignal.runTask_same (s : EventSignal F E) :
    s.runTask.handlers = s.handlers ∧ s.runTask.emitted = s.emitted ∧
      s.runTask.emissions = s.emissions := by
  unfold EventSignal.runTask
  split
  · exact ⟨rfl,rfl,rfl⟩
  · exact ⟨rfl,rfl,rfl⟩

end

variable [DecidableEq F]

/-- The events a list of tasks brings `h` from `thread`, in order. -/
def handledFrom (thread : Nat) (h : F) (tasks : List (SignalTask F E)) : List E :=
  (tasks.filter (fun t => t.thread == thread && t.handler == h)).map SignalTask.event

/-- What the handlers still left in an emission make of it for `h`. -/
def Emission.dueTo (thread : Nat) (h : F) (m : Emission F E) : List E :=
  if m.thread = thread then List.replicate (m.left.count h) m.event else []

/-- What `thread` has emitted and `h` was connected for, as often as it was connected. -/
def EventSignal.due (s : EventSignal F E) (thread : Nat) (h : F) : List E :=
  s.emitted.flatMap (Emission.dueTo thread h)

/-- What a run makes due to `h` from `thread`, read off its steps: for each call of `emit` its
event, as often as `h` has been connected by then. `left` counts what the current call still
takes. -/
def dueBy (thread : Nat) (h : F) : List F → Nat → List (SignalStep F E) → List E
  | _, _, [] => []
  | handlers, left, .connect g :: steps => dueBy thread h (handlers ++ [g]) left steps
  | handlers, left, .emit t event :: steps =>
    if t = thread ∧ left = 0 then
      List.replicate (handlers.count h) event ++
        dueBy thread h handlers (handlers.length+1) steps
    else dueBy thread h handlers left steps
  | handlers, left, .post t :: steps =>
    dueBy thread h handlers (if t = thread then left-1 else left) steps
  | handlers, left, .runTask :: steps => dueBy thread h handlers left steps

/-- What `h` has got, what waits on the strand and what has not been posted are, in this order,
what it is due; a thread is in one call at most. -/
structure EventSignal.Accounted (s : EventSignal F E) : Prop where
  single : (s.emissions.map Emission.thread).Nodup
  due : ∀ thread h, handledFrom thread h (s.handled ++ s.strand) ++
    s.emissions.flatMap (Emission.dueTo thread h) = s.due thread h

section
variable {s : EventSignal F E}

theorem dueTo_other {thread : Nat} {h : F} {ms : List (Emission F E)}
    (hn : thread ∉ ms.map Emission.thread) : ms.flatMap (Emission.dueTo thread h) = [] := by
  induction ms with
  | nil => rfl
  | cons m ms ih =>
    simp only [List.map_cons,List.mem_cons,not_or] at hn
    simp [Emission.dueTo,Ne.symm hn.1,ih hn.2]

theorem EventSignal.Accounted.emit (h : s.Accounted) (thread : Nat) (event : E) :
    (s.emit thread event).Accounted := by
  unfold EventSignal.emit
  split
  · exact h
  · rename_i hfree
    have hnew : thread ∉ s.emissions.map Emission.thread := by
      simpa [isEmitting] using hfree
    refine ⟨List.nodup_cons.mpr ⟨hnew,h.single⟩,fun t f => ?_⟩
    have hdue := h.due t f
    by_cases ht : t = thread
    · subst ht
      rw [dueTo_other hnew,List.append_nil] at hdue
      simp [EventSignal.due,dueTo_other hnew,hdue,Emission.dueTo]
    · have hnone : Emission.dueTo t f (⟨thread,event,s.handlers⟩ : Emission F E) = [] := by
        simp [Emission.dueTo,Ne.symm ht]
      simpa [EventSignal.due,hnone] using hdue

/-- A call leaves the list and another takes its place in front. -/
theorem flatMap_dueTo_middle {before after : List (Emission F E)} {m : Emission F E}
    (hnd : ((before ++ m :: after).map Emission.thread).Nodup) (thread : Nat) (h : F) :
    (before ++ m :: after).flatMap (Emission.dueTo thread h) =
      m.dueTo thread h ++ (before ++ after).flatMap (Emission.dueTo thread h) := by
  by_cases ht : m.thread = thread
  · simp only [List.map_append,List.map_cons,List.nodup_append,List.nodup_cons] at hnd
    have hbefore : thread ∉ before.map Emission.thread := by
      intro hin
      exact hnd.2.2 thread hin m.thread List.mem_cons_self ht.symm
    have hafter : thread ∉ after.map Emission.thread := ht ▸ hnd.2.1.1
    simp [dueTo_other hbefore,dueTo_other hafter]
  · simp [Emission.dueTo,ht]

theorem EventSignal.Accounted.post (h : s.Accounted) (thread : Nat) :
    (s.post thread).Accounted := by
  unfold EventSignal.post
  split
  · exact h
  · rename_i m others hpick
    obtain ⟨hm,before,after,hsplit,rfl⟩ := pick_some hpick
    have hsingle := h.single
    rw [hsplit] at hsingle
    have hmid := List.perm_middle.map Emission.thread |>.nodup_iff.mp hsingle
    split
    · rename_i hleft
      refine ⟨(List.nodup_cons.mp hmid).2,fun t f => ?_⟩
      have hdue := h.due t f
      rw [hsplit,flatMap_dueTo_middle hsingle] at hdue
      simpa [EventSignal.due,Emission.dueTo,hleft] using hdue
    · rename_i g rest hleft
      refine ⟨hmid,fun t f => ?_⟩
      have hdue := h.due t f
      rw [hsplit,flatMap_dueTo_middle hsingle] at hdue
      refine Eq.trans ?_ hdue
      by_cases ht : m.thread = t
      · by_cases hg : g = f
        · subst hg
          simp [handledFrom,Emission.dueTo,hleft,ht,List.replicate_succ]
        · simp [handledFrom,Emission.dueTo,hleft,ht,hg]
      · simp [handledFrom,Emission.dueTo,ht]

theorem EventSignal.Accounted.runTask (h : s.Accounted) : s.runTask.Accounted := by
  unfold EventSignal.runTask
  split
  · exact h
  · rename_i t rest hs
    refine ⟨h.single,fun thread f => ?_⟩
    have hdue := h.due thread f
    rw [hs] at hdue
    simpa [EventSignal.due] using hdue

theorem EventSignal.Accounted.act (h : s.Accounted) (a : SignalStep F E) :
    (s.act a).Accounted := by
  cases a with
  | connect g => exact ⟨h.single,h.due⟩
  | emit thread event => exact h.emit thread event
  | post thread => exact h.post thread
  | runTask => exact h.runTask

theorem EventSignal.accounted_new : ({} : EventSignal F E).Accounted :=
  ⟨List.nodup_nil,fun _ _ => rfl⟩

theorem EventSignal.due_emit (s : EventSignal F E) (t : Nat) (event : E) (thread : Nat) (h : F) :
    (s.emit t event).due thread h = s.due thread h ++
      if t = thread ∧ s.left thread = 0 then List.replicate (s.handlers.count h) event else [] := by
  unfold EventSignal.emit
  split
  · rename_i hbusy
    rw [if_neg,List.append_nil]
    rintro ⟨rfl,hfree⟩
    rw [EventSignal.left_free.mp hfree] at hbusy
    cases hbusy
  · rename_i hidle
    by_cases ht : t = thread
    · subst ht
      have hfree : s.left t = 0 := EventSignal.left_free.mpr (by simpa using hidle)
      simp [EventSignal.due,Emission.dueTo,hfree]
    · simp [EventSignal.due,Emission.dueTo,ht]

/-- What becomes due in a run is what its steps make due. -/
theorem EventSignal.Accounted.due_run (hs : s.Accounted) (thread : Nat) (h : F)
    (steps : List (SignalStep F E)) :
    (Interleaving.run EventSignal.act s steps).due thread h =
      s.due thread h ++ dueBy thread h s.handlers (s.left thread) steps := by
  induction steps generalizing s with
  | nil => simp [Interleaving.run,dueBy]
  | cons a steps ih =>
    have hrest := ih (hs.act a)
    refine Eq.trans hrest ?_
    cases a with
    | connect g => rfl
    | emit t event =>
      simp only [EventSignal.act,EventSignal.due_emit,EventSignal.emit_handlers,
        EventSignal.left_emit,dueBy,List.append_assoc]
      split
      · rfl
      · rfl
    | post t =>
      obtain ⟨hhandlers,hemitted⟩ := s.post_same t
      simp only [EventSignal.act,EventSignal.due,dueBy,hhandlers,hemitted,left_post hs.single]
    | runTask =>
      obtain ⟨hhandlers,hemitted,hemissions⟩ := s.runTask_same
      simp only [EventSignal.act,EventSignal.due,dueBy,hhandlers,hemitted,EventSignal.left,
        hemissions]

end

/-- Whichever threads emit, connect and run the strand in whichever order: a handler gets the
events of each thread in the order the thread emitted them in, each as often as the handler was
connected when the event was emitted and no more, and once the signal is at rest it has got
all of them. -/
theorem event_signal_exactly_once (steps : List (SignalStep F E)) (thread : Nat) (h : F) :
    let s := Interleaving.run EventSignal.act {} steps
    handledFrom thread h s.handled <+: dueBy thread h [] 0 steps ∧
    (s.strand = [] → s.isEmitting thread = false →
      handledFrom thread h s.handled = dueBy thread h [] 0 steps) := by
  dsimp only
  have hinv : (Interleaving.run EventSignal.act ({} : EventSignal F E) steps).Accounted :=
    run_invariant (fun _ a hs => hs.act a) EventSignal.accounted_new steps
  have hrun : (Interleaving.run EventSignal.act ({} : EventSignal F E) steps).due thread h =
      dueBy thread h [] 0 steps := EventSignal.accounted_new.due_run thread h steps
  rw [← hrun]
  generalize Interleaving.run EventSignal.act ({} : EventSignal F E) steps = s at hinv
  have hdue := hinv.due thread h
  simp only [handledFrom,List.filter_append,List.map_append,List.append_assoc] at hdue ⊢
  refine ⟨⟨_,hdue⟩,fun hs hfree => ?_⟩
  have hnone : thread ∉ s.emissions.map Emission.thread := by
    simpa [EventSignal.isEmitting] using hfree
  simpa [hs,dueTo_other hnone] using hdue

end

/-- Handler 7 is connected twice, the second time while thread 1 is inside `emit`, and two threads
post their tasks in turns. -/
def crossedEmits : List (SignalStep Nat Nat) :=
  [.connect 7,.connect 8,.emit 1 10,.post 1,.connect 7,.emit 2 20,.post 2,.runTask,.post 1,.post 1,
    .emit 1 11,.post 1,.post 2,.post 2,.post 2,.post 1,.post 1,.post 1,.runTask,.runTask,.runTask,
    .runTask,.runTask,.runTask,.runTask]

theorem event_signal_exactly_once_crossed :
    let s := Interleaving.run EventSignal.act {} crossedEmits
    handledFrom 1 7 s.handled = dueBy 1 7 [] 0 crossedEmits ∧
      dueBy 1 7 [] 0 crossedEmits = [10,11,11] := by
  exact ⟨(event_signal_exactly_once crossedEmits 1 7).2 (by decide) (by decide),by decide⟩

end GoodNet
