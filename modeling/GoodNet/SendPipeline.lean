import GoodNet.SendInterleaving
import GoodNet.QueueAccounting
set_option autoImplicit false

/-! `send_frame` on one live connection, called by any number of threads. A call builds its
frame, pushes it, drains a batch of at most 64 frames, which may be other threads' frames, and
hands that batch to the connector; other threads may run between any two of these steps. -/

namespace GoodNet
open Codec Interleaving ReservedQueue

/-- A frame with the call of `send_frame` it was built by: the thread, and the number of the
call among all calls on the connection. -/
structure QueuedFrame where
  thread : Nat
  number : Nat
  bytes : Bytes
  deriving DecidableEq, Repr

/-- The length of the bytes, which is what `pending_bytes` counts. -/
def QueuedFrame.size (f : QueuedFrame) : Nat := f.bytes.length

/-- A batch in the hands of the thread that drained it. -/
structure Handover where
  thread : Nat
  batch : List QueuedFrame
  deriving DecidableEq, Repr

/-- `calls` counts the calls so far. A call in progress is in `built` before its push, among
the pushes and drains of the queue, in `flushing` between them and in `handing` at its end. -/
structure SendPipeline where
  record : ConnectionRecord
  calls : Nat := 0
  built : List QueuedFrame := []
  queue : Queue QueuedFrame := {}
  flushing : List Nat := []
  handing : List Handover := []
  handed : List QueuedFrame := []

inductive PipelineStep where
  | build (thread : Nat) (msgType : UInt32) (payload : Bytes)
  | reserve (thread : Nat)
  | rollBack (thread : Nat)
  | append (thread : Nat)
  | take (thread : Nat)
  | settle (thread : Nat)
  | handOver (thread : Nat)
  deriving DecidableEq, Repr

/-- The threads that are inside `send_frame`. -/
def SendPipeline.active (p : SendPipeline) : List Nat :=
  p.built.map QueuedFrame.thread ++ (p.queue.pushing.map Push.thread ++
    (p.flushing ++ ((p.queue.leaving.map Drain.thread).toList ++ p.handing.map Handover.thread)))

/-- `drain_batch(64)`. -/
def flushBatch : Nat := 64

def SendPipeline.queueStep (p : SendPipeline) (a : ReservedQueue.Step QueuedFrame) :
    Queue QueuedFrame :=
  p.queue.act QueuedFrame.size perConnMaxBytes a

/-- A step that its thread cannot take leaves everything as it is. -/
def SendPipeline.act (S : Sodium) (Z : Zstd) (c : Compression) (p : SendPipeline) :
    PipelineStep → SendPipeline
  | .build thread msgType payload =>
    if thread ∈ p.active then p
    else
      { p with
        record := p.record.takePacketId,
        calls := p.calls+1,
        built := p.built ++ [⟨thread,p.calls,p.record.frame S Z c msgType payload⟩] }
  | .reserve thread =>
    match pick (fun f => f.thread == thread) p.built with
    | none => p
    | some (f,rest) => { p with built := rest, queue := p.queueStep (.reserve thread f) }
  | .rollBack thread => { p with queue := p.queueStep (.rollBack thread) }
  | .append thread =>
    match p.queue.leaving, pick (Push.of thread true) p.queue.pushing with
    | none, some _ =>
      { p with queue := p.queueStep (.append thread), flushing := thread :: p.flushing }
    | _, _ => p
  | .take thread =>
    match p.queue.leaving, pick (fun t => t == thread) p.flushing with
    | none, some (_,rest) =>
      { p with flushing := rest, queue := p.queueStep (.take thread flushBatch) }
    | _, _ => p
  | .settle thread =>
    match p.queue.leaving with
    | none => p
    | some d =>
      if d.thread = thread then
        { p with
          queue := p.queueStep (.settle thread),
          handing := if d.batch.isEmpty then p.handing else p.handing ++ [⟨thread,d.batch⟩] }
      else p
  | .handOver thread =>
    match pick (fun h => h.thread == thread) p.handing with
    | none => p
    | some (h,rest) => { p with handing := rest, handed := p.handed ++ h.batch }

def SendPipeline.run (S : Sodium) (Z : Zstd) (c : Compression) (p : SendPipeline)
    (steps : List PipelineStep) : SendPipeline :=
  Interleaving.run (SendPipeline.act S Z c) p steps

/-- All calls have returned. -/
def SendPipeline.atRest (p : SendPipeline) : Bool := p.active.isEmpty

/-- Everything a step can do. -/
inductive SendPipeline.Moves (S : Sodium) (Z : Zstd) (c : Compression) (p : SendPipeline) :
    PipelineStep → SendPipeline → Prop where
  | stay (a : PipelineStep) : Moves S Z c p a p
  | build {thread : Nat} (msgType : UInt32) (payload : Bytes) (ht : thread ∉ p.active) :
      Moves S Z c p (.build thread msgType payload)
        { p with
          record := p.record.takePacketId,
          calls := p.calls+1,
          built := p.built ++ [⟨thread,p.calls,p.record.frame S Z c msgType payload⟩] }
  | reserve {f : QueuedFrame} {l₁ l₂ : List QueuedFrame} (hb : p.built = l₁ ++ f :: l₂) :
      Moves S Z c p (.reserve f.thread)
        { p with
          built := l₁ ++ l₂,
          queue := p.queue.reserve QueuedFrame.size perConnMaxBytes f.thread f }
  | rollBack {w : Push QueuedFrame} {l₁ l₂ : List (Push QueuedFrame)}
      (hp : p.queue.pushing = l₁ ++ w :: l₂) :
      Moves S Z c p (.rollBack w.thread)
        { p with queue := { p.queue with
            counter := p.queue.counter-w.item.size, pushing := l₁ ++ l₂ } }
  | append {w : Push QueuedFrame} {l₁ l₂ : List (Push QueuedFrame)}
      (hl : p.queue.leaving = none) (hp : p.queue.pushing = l₁ ++ w :: l₂) :
      Moves S Z c p (.append w.thread)
        { p with
          queue := { p.queue with
            items := p.queue.items ++ [w.item], pushing := l₁ ++ l₂,
            accepted := p.queue.accepted ++ [w.item] },
          flushing := w.thread :: p.flushing }
  | take {thread : Nat} {l₁ l₂ : List Nat} (hl : p.queue.leaving = none)
      (hf : p.flushing = l₁ ++ thread :: l₂) :
      Moves S Z c p (.take thread)
        { p with
          flushing := l₁ ++ l₂,
          queue := { p.queue with
            items := p.queue.items.drop flushBatch,
            leaving := some ⟨thread,p.queue.items.take flushBatch⟩ } }
  | settleNothing {d : Drain QueuedFrame} (hl : p.queue.leaving = some d) (hd : d.batch = []) :
      Moves S Z c p (.settle d.thread)
        { p with queue := { p.queue with
            counter := p.queue.counter-total QueuedFrame.size d.batch, leaving := none,
            drained := p.queue.drained ++ [d.batch] } }
  | settle {d : Drain QueuedFrame} (hl : p.queue.leaving = some d) (hd : d.batch ≠ []) :
      Moves S Z c p (.settle d.thread)
        { p with
          queue := { p.queue with
            counter := p.queue.counter-total QueuedFrame.size d.batch, leaving := none,
            drained := p.queue.drained ++ [d.batch] },
          handing := p.handing ++ [⟨d.thread,d.batch⟩] }
  | handOver {h : Handover} {l₁ l₂ : List Handover} (hh : p.handing = l₁ ++ h :: l₂) :
      Moves S Z c p (.handOver h.thread)
        { p with handing := l₁ ++ l₂, handed := p.handed ++ h.batch }

/-- A thread is inside one call at a time. -/
def SendPipeline.Tidy (p : SendPipeline) : Prop := ∀ t, p.active.count t ≤ 1

section
variable {S : Sodium} {Z : Zstd} {c : Compression} {p p' : SendPipeline}

theorem SendPipeline.count_active (p : SendPipeline) (t : Nat) :
    p.active.count t = (p.built.map QueuedFrame.thread).count t+
      ((p.queue.pushing.map Push.thread).count t+(p.flushing.count t+
        (((p.queue.leaving.map Drain.thread).toList).count t+
          (p.handing.map Handover.thread).count t))) := by
  simp only [active,List.count_append]

/-- A thread that is elsewhere in its call is not at work on the queue. -/
theorem SendPipeline.not_busy {thread : Nat} (h : (p.queue.pushing.map Push.thread).count thread = 0)
    (hl : ((p.queue.leaving.map Drain.thread).toList).count thread = 0) :
    p.queue.busy thread = false := by
  rw [List.count_eq_zero] at h hl
  unfold Queue.busy
  rw [Bool.or_eq_false_iff]
  refine ⟨?_,?_⟩
  · rw [List.any_eq_false]
    intro w hw hc
    exact h (List.mem_map.mpr ⟨w,hw,by simpa using hc⟩)
  · cases hd : p.queue.leaving with
    | none => rfl
    | some d =>
      have hne : d.thread ≠ thread := by
        intro he
        exact hl (by simp [hd,he])
      simp [hne]

theorem SendPipeline.act_moves (h : p.Tidy) (a : PipelineStep) :
    SendPipeline.Moves S Z c p a (p.act S Z c a) := by
  cases a with
  | build thread msgType payload =>
    simp only [act]
    split
    · exact .stay _
    · rename_i ht
      exact .build msgType payload ht
  | reserve thread =>
    simp only [act]
    split
    · exact .stay _
    · rename_i f rest hpick
      obtain ⟨hf,l₁,l₂,hb,rfl⟩ := pick_some hpick
      have hf : f.thread = thread := by simpa using hf
      subst hf
      have hcount := h f.thread
      rw [count_active,hb] at hcount
      simp only [List.map_append,List.map_cons,List.count_append,List.count_cons_self] at hcount
      have hbusy : p.queue.busy f.thread = false := not_busy (by omega) (by omega)
      simp only [queueStep,Queue.act,hbusy,Bool.false_eq_true,ite_false]
      exact .reserve hb
  | rollBack thread =>
    simp only [act,queueStep,Queue.act]
    split
    · exact .stay _
    · rename_i w rest hpick
      obtain ⟨hw,l₁,l₂,hp,rfl⟩ := pick_some hpick
      simp only [Push.of,Bool.and_eq_true,beq_iff_eq] at hw
      obtain ⟨rfl,_⟩ := hw
      exact .rollBack hp
  | append thread =>
    simp only [act]
    split
    · rename_i found hl hpick
      obtain ⟨w,rest⟩ := found
      obtain ⟨hw,l₁,l₂,hp,rfl⟩ := pick_some hpick
      simp only [queueStep,Queue.act,hl,hpick]
      simp only [Push.of,Bool.and_eq_true,beq_iff_eq] at hw
      obtain ⟨rfl,_⟩ := hw
      have hmoves := SendPipeline.Moves.append (S := S) (Z := Z) (c := c) hl hp
      simpa only [hl] using hmoves
    · exact .stay _
  | take thread =>
    simp only [act]
    split
    · rename_i t rest hl hpick
      obtain ⟨ht,l₁,l₂,hf,rfl⟩ := pick_some hpick
      have ht : t = thread := by simpa using ht
      subst ht
      have hcount := h t
      rw [count_active,hf] at hcount
      simp only [List.count_append,List.count_cons_self] at hcount
      have hbusy : p.queue.busy t = false := not_busy (by omega) (by omega)
      simp only [queueStep,Queue.act,hl,hbusy,Bool.false_eq_true,ite_false]
      exact .take hl hf
    · exact .stay _
  | settle thread =>
    simp only [act]
    split
    · exact .stay _
    · rename_i d hl
      split
      · rename_i hd
        subst hd
        simp only [queueStep,Queue.act,hl,ite_true]
        cases hb : d.batch.isEmpty with
        | true => exact .settleNothing hl (List.isEmpty_iff.mp hb)
        | false => exact .settle hl (by simpa using hb)
      · exact .stay _
  | handOver thread =>
    simp only [act]
    split
    · exact .stay _
    · rename_i w rest hpick
      obtain ⟨hw,l₁,l₂,hh,rfl⟩ := pick_some hpick
      have hw : w.thread = thread := by simpa using hw
      subst hw
      exact .handOver hh

theorem SendPipeline.Moves.tidy {a : PipelineStep} (hm : SendPipeline.Moves S Z c p a p')
    (h : p.Tidy) : p'.Tidy := by
  intro t
  have hcount := h t
  rw [count_active] at hcount ⊢
  cases hm with
  | stay => exact hcount
  | @build thread msgType payload ht =>
    by_cases he : thread = t
    · subst he
      have hzero := List.count_eq_zero.mpr ht
      rw [count_active] at hzero
      simp only [List.map_append,List.map_cons,List.map_nil,List.count_append,
        List.count_cons_self,List.count_nil]
      omega
    · simp only [List.map_append,List.map_cons,List.map_nil,List.count_append,
        List.count_cons_of_ne he,List.count_nil]
      omega
  | @reserve f l₁ l₂ hb =>
    rw [hb] at hcount
    simp only [Queue.reserve,List.map_append,List.map_cons,List.count_append,
      List.count_cons] at hcount ⊢
    omega
  | rollBack hp =>
    rw [hp] at hcount
    simp only [List.map_append,List.map_cons,List.count_append,List.count_cons] at hcount ⊢
    omega
  | append hl hp =>
    rw [hp] at hcount
    simp only [List.map_append,List.map_cons,List.count_append,List.count_cons] at hcount ⊢
    omega
  | take hl hf =>
    rw [hf,hl] at hcount
    simp only [Option.map_none,Option.map_some,Option.toList_none,Option.toList_some,
      List.count_append,List.count_cons,List.count_nil] at hcount ⊢
    omega
  | settleNothing hl hd =>
    rw [hl] at hcount
    simp only [Option.map_none,Option.map_some,Option.toList_none,Option.toList_some,
      List.count_cons,List.count_nil] at hcount ⊢
    omega
  | settle hl hd =>
    rw [hl] at hcount
    simp only [Option.map_none,Option.map_some,Option.toList_none,Option.toList_some,
      List.map_append,List.map_cons,List.map_nil,List.count_append,List.count_cons,
      List.count_nil] at hcount ⊢
    omega
  | handOver hh =>
    rw [hh] at hcount
    simp only [List.map_append,List.map_cons,List.count_append,List.count_cons] at hcount ⊢
    omega

theorem SendPipeline.Tidy.act (h : p.Tidy) (a : PipelineStep) : (p.act S Z c a).Tidy :=
  (act_moves h a).tidy h

/-- Whatever a step does to the queue is a step of the queue. -/
theorem SendPipeline.act_queue (p : SendPipeline) (a : PipelineStep) :
    (p.act S Z c a).queue = p.queue ∨ ∃ b, (p.act S Z c a).queue = p.queueStep b := by
  cases a with
  | build thread msgType payload =>
    simp only [act]
    split
    · exact Or.inl rfl
    · exact Or.inl rfl
  | reserve thread =>
    simp only [act]
    split
    · exact Or.inl rfl
    · exact Or.inr ⟨.reserve thread _,rfl⟩
  | rollBack thread => exact Or.inr ⟨.rollBack thread,rfl⟩
  | append thread =>
    simp only [act]
    split
    · exact Or.inr ⟨.append thread,rfl⟩
    · exact Or.inl rfl
  | take thread =>
    simp only [act]
    split
    · exact Or.inr ⟨.take thread flushBatch,rfl⟩
    · exact Or.inl rfl
  | settle thread =>
    simp only [act]
    split
    · exact Or.inl rfl
    · split
      · exact Or.inr ⟨.settle thread,rfl⟩
      · exact Or.inl rfl
  | handOver thread =>
    simp only [act]
    split
    · exact Or.inl rfl
    · exact Or.inl rfl

theorem SendPipeline.atRest_parts (h : p.atRest = true) :
    p.built = [] ∧ p.queue.pushing = [] ∧ p.flushing = [] ∧ p.queue.leaving = none ∧
      p.handing = [] := by
  simp only [atRest,active,List.isEmpty_iff,List.append_eq_nil_iff,List.map_eq_nil_iff,
    Option.toList_eq_nil_iff,Option.map_eq_none_iff] at h
  exact h

/-- The object as the code stores it. -/
def SendPipeline.object (p : SendPipeline) : PerConnQueue :=
  { frames := p.queue.items.map QueuedFrame.bytes, pendingBytes := p.queue.counter }

theorem total_size (frames : List QueuedFrame) :
    total QueuedFrame.size frames = totalBytes (frames.map QueuedFrame.bytes) := by
  induction frames with
  | nil => rfl
  | cons f frames ih =>
    rw [total_cons,ih,totalBytes,totalBytes,List.map_cons,List.map_cons,List.sum_cons]
    rfl

/-- One call with nothing in between pushes and drains as `send_frame` does. -/
theorem SendPipeline.send_alone (h : p.atRest = true) (thread : Nat) (msgType : UInt32)
    (payload : Bytes) {pushed : PerConnQueue}
    (hfit : p.object.tryPush (p.record.frame S Z c msgType payload) = (pushed,true)) :
    ∃ p', p' = p.run S Z c [.build thread msgType payload,.reserve thread,.append thread,
        .take thread,.settle thread,.handOver thread] ∧
      p'.record = p.record.takePacketId ∧ p'.object = (pushed.drainBatch flushBatch).1 ∧
      p'.handed.map QueuedFrame.bytes =
        p.handed.map QueuedFrame.bytes ++ (pushed.drainBatch flushBatch).2 ∧ p'.atRest = true := by
  refine ⟨_,rfl,?_⟩
  obtain ⟨hbuilt,hpushing,hflushing,hleaving,hhanding⟩ := atRest_parts h
  unfold PerConnQueue.tryPush at hfit
  split at hfit
  · cases hfit
  · rename_i hover
    have hin : p.queue.counter+(p.record.frame S Z c msgType payload).length ≤ perConnMaxBytes :=
      Nat.le_of_not_lt hover
    cases hfit
    have hbatch : flushBatch ≠ 0 := by decide
    simp [run,Interleaving.run,act,queueStep,Queue.act,Queue.busy,Queue.reserve,pick,Push.of,active,
      hbuilt,hpushing,hflushing,hleaving,hhanding,QueuedFrame.size,hin,object,PerConnQueue.drainBatch,
      atRest,total_size,hbatch]

/-- The queue never holds more frames than there are threads about to drain it. -/
structure SendPipeline.Attended (p : SendPipeline) : Prop where
  tidy : p.Tidy
  sound : p.queue.Sound QueuedFrame.size perConnMaxBytes
  covered : p.queue.items.length ≤ p.flushing.length

theorem SendPipeline.Moves.covered {a : PipelineStep} (hm : SendPipeline.Moves S Z c p a p')
    (h : p.queue.items.length ≤ p.flushing.length) :
    p'.queue.items.length ≤ p'.flushing.length := by
  cases hm with
  | stay => exact h
  | build msgType payload ht => exact h
  | reserve hb => exact h
  | rollBack hp => exact h
  | append hl hp =>
    simp only [List.length_append,List.length_cons,List.length_nil]
    omega
  | take hl hf =>
    -- one thread fewer is about to drain, and at least one frame goes if there is one
    rw [hf] at h
    simp only [List.length_append,List.length_cons,List.length_drop,flushBatch] at h ⊢
    omega
  | settleNothing hl hd => exact h
  | settle hl hd => exact h
  | handOver hh => exact h

theorem SendPipeline.Attended.act (h : p.Attended) (a : PipelineStep) :
    (p.act S Z c a).Attended := by
  refine ⟨h.tidy.act a,?_,(act_moves h.tidy a).covered h.covered⟩
  rcases p.act_queue a with hq | ⟨b,hq⟩
  · rw [hq]
    exact h.sound
  · rw [hq]
    exact h.sound.act b

theorem SendPipeline.Attended.start (r : ConnectionRecord) :
    SendPipeline.Attended { record := r } :=
  ⟨fun t => by simp [active],Queue.Sound.start,Nat.le_refl 0⟩

end

/-- Once all calls on a live connection have returned, its queue is empty and nothing is
counted as pending. -/
theorem no_frame_stranded (S : Sodium) (Z : Zstd) (c : Compression) (r : ConnectionRecord)
    (steps : List PipelineStep)
    (h : (SendPipeline.run S Z c { record := r } steps).atRest = true) :
    (SendPipeline.run S Z c { record := r } steps).queue.items = [] ∧
      (SendPipeline.run S Z c { record := r } steps).queue.counter = 0 := by
  have hp : (SendPipeline.run S Z c { record := r } steps).Attended :=
    run_invariant (fun _ a h => h.act a) (SendPipeline.Attended.start r) steps
  generalize SendPipeline.run S Z c { record := r } steps = p at *
  obtain ⟨_,hpushing,hflushing,hleaving,_⟩ := SendPipeline.atRest_parts h
  have hitems : p.queue.items = [] := by
    have hle := hp.covered
    rw [hflushing] at hle
    exact List.length_eq_zero_iff.mp (Nat.le_zero.mp hle)
  refine ⟨hitems,?_⟩
  rw [hp.sound.counted,hitems,Queue.reserved,hpushing,Queue.taken,hleaving]
  rfl

/-- A connection to a remote peer whose session is up. -/
def establishedRecord : ConnectionRecord :=
  freshRecord.committed Sodium.sample
    (Noise.HandshakeState.init Sodium.sample false (sampleKey 1) (sampleKey 2))

/-- The steps of one call up to its push. -/
def pushes (thread : Nat) (payload : Bytes) : List PipelineStep :=
  [.build thread msgTypeChat payload,.reserve thread,.append thread]

/-- The rest of the call. -/
def flushes (thread : Nat) : List PipelineStep := [.take thread,.settle thread,.handOver thread]

/-- Two threads push; the second drains both frames, the first one finds nothing. -/
def sharedFlush : List PipelineStep :=
  pushes 1 [104] ++ pushes 2 [105] ++ flushes 2 ++ flushes 1

set_option maxRecDepth 10000 in
theorem no_frame_stranded_shared :
    (SendPipeline.run Sodium.sample Zstd.sample {} { record := establishedRecord }
      sharedFlush).queue.items = [] ∧
    (SendPipeline.run Sodium.sample Zstd.sample {} { record := establishedRecord }
      sharedFlush).queue.counter = 0 ∧
    (SendPipeline.run Sodium.sample Zstd.sample {} { record := establishedRecord }
      sharedFlush).handed.length = 2 := by
  obtain ⟨hitems,hcounter⟩ := no_frame_stranded Sodium.sample Zstd.sample {} establishedRecord
    sharedFlush (by decide +kernel)
  exact ⟨hitems,hcounter,by decide +kernel⟩

end GoodNet
