import GoodNet.HandoverOrder
set_option autoImplicit false

/-! `disconnect` on a TCP connection. A frame goes from the connection's queue into a batch,
with the batch into a task posted to the connector's threads, from there into `write_queue` and
then into a write on the socket. `do_close` posts a task of its own, which closes the socket
whatever is still on the way. -/

namespace GoodNet
open Codec Interleaving ReservedQueue

def PipelineStep.thread : PipelineStep → Nat
  | .build thread _ _ | .reserve thread | .rollBack thread | .append thread | .take thread
  | .settle thread | .handOver thread => thread

/-- The frame of a thread's latest call. -/
def latestOf (thread : Nat) (frames : List QueuedFrame) : Option QueuedFrame :=
  (frames.filter (fun f => f.thread == thread)).getLast?

/-- The calls of `send_frame` on a connection: the frames of all calls so far, and those of
the calls that have returned. -/
structure SendLedger where
  pipe : SendPipeline
  offered : List QueuedFrame := []
  returned : List QueuedFrame := []

def SendLedger.accepted (g : SendLedger) : List QueuedFrame := g.pipe.queue.accepted

/-- A thread has taken the pipeline a step further. -/
def SendLedger.advance (g : SendLedger) (thread : Nat) (p : SendPipeline) : SendLedger :=
  let offered := g.offered ++ p.built.drop g.pipe.built.length
  { pipe := p,
    offered := offered,
    returned :=
      if thread ∈ g.pipe.active ∧ thread ∉ p.active then
        g.returned ++ (latestOf thread offered).toList
      else g.returned }

inductive TcpTask where
  | send (frames : List QueuedFrame)
  | close
  | notify
  deriving DecidableEq, Repr

def TcpTask.frames : TcpTask → List QueuedFrame
  | .send frames => frames
  | .close | .notify => []

/-- `writing` is set in all states but `idle`. A write under way still has to transmit the
frames it is listed with. -/
inductive TcpWriter where
  | idle
  | starting
  | writing (frames : List QueuedFrame)
  deriving DecidableEq, Repr

def TcpWriter.frames : TcpWriter → List QueuedFrame
  | .writing frames => frames
  | .idle | .starting => []

/-- A connection with its record (`live`), its socket (`connected`) and, once `disconnect` has
been called, the frames of the calls that had returned and those that had been accepted by
then. -/
structure TcpLine where
  ledger : SendLedger
  live : Bool := true
  connected : Bool := true
  tasks : List TcpTask := []
  writeQueue : List QueuedFrame := []
  writer : TcpWriter := .idle
  written : List QueuedFrame := []
  disconnecting : Bool := false
  promised : List QueuedFrame := []
  acceptedThen : List QueuedFrame := []

inductive TcpStep where
  | send (a : PipelineStep)
  | disconnect
  | runTask (i : Nat)
  | startWrite
  | transmit
  | writeDone
  | writeAborted
  | writeFailed
  deriving DecidableEq, Repr

/-- `WRITE_BATCH_SIZE`. -/
def writeBatchSize : Nat := 64

/-- A step of `send_frame`. Without the record no frame is built, and none is drained: the
call returns. -/
def TcpLine.pipeStep (S : Sodium) (Z : Zstd) (c : Compression) (l : TcpLine) (a : PipelineStep) :
    SendPipeline :=
  match a, l.live with
  | .build .., false => l.ledger.pipe
  | .take thread, false =>
    { l.ledger.pipe with flushing := l.ledger.pipe.flushing.erase thread }
  | _, _ => l.ledger.pipe.act S Z c a

/-- A batch that has been handed over is posted as one task. -/
def postedBy (p p' : SendPipeline) : List TcpTask :=
  let batch := p'.handed.drop p.handed.length
  if batch.isEmpty then [] else [.send batch]

def TcpLine.perform (l : TcpLine) : TcpTask → TcpLine
  | .send frames =>
    if l.connected then
      { l with
        writeQueue := l.writeQueue ++ frames,
        writer := if l.writer = .idle then .starting else l.writer }
    else l
  | .close => { l with connected := false, tasks := l.tasks ++ [.notify] }
  | .notify => { l with live := false }

/-- The end of the handler that a write completes with. -/
def TcpLine.afterWrite (l : TcpLine) : TcpLine :=
  { l with writer := if l.writeQueue.isEmpty then .idle else .starting }

/-- The tasks are run by several threads, in any order. A write that the close has cut short
ends as one that has been done; one that starts on a closed socket drops the queue. -/
def TcpLine.act (S : Sodium) (Z : Zstd) (c : Compression) (l : TcpLine) : TcpStep → TcpLine
  | .send a =>
    { l with
      ledger := l.ledger.advance a.thread (l.pipeStep S Z c a),
      tasks := l.tasks ++ postedBy l.ledger.pipe (l.pipeStep S Z c a) }
  | .disconnect =>
    if l.disconnecting then l
    else
      { l with
        disconnecting := true,
        promised := l.ledger.returned,
        acceptedThen := l.ledger.accepted,
        tasks := if l.live then l.tasks ++ [.close] else l.tasks }
  | .runTask i =>
    match l.tasks[i]? with
    | none => l
    | some task => ({ l with tasks := l.tasks.eraseIdx i } : TcpLine).perform task
  | .startWrite =>
    if l.writer = .starting then
      if l.writeQueue.isEmpty then { l with writer := .idle }
      else
        { l with
          writer := .writing (l.writeQueue.take writeBatchSize),
          writeQueue := l.writeQueue.drop writeBatchSize }
    else l
  | .transmit =>
    match l.writer, l.connected with
    | .writing (f :: rest), true => { l with written := l.written ++ [f], writer := .writing rest }
    | _, _ => l
  | .writeDone => if l.writer = .writing [] then l.afterWrite else l
  | .writeAborted =>
    match l.writer, l.connected with
    | .writing _, false => l.afterWrite
    | _, _ => l
  | .writeFailed =>
    match l.writer, l.connected with
    | .writing _, false => { l with writeQueue := [], writer := .idle }
    | _, _ => l

def TcpLine.run (S : Sodium) (Z : Zstd) (c : Compression) (l : TcpLine) (steps : List TcpStep) :
    TcpLine :=
  Interleaving.run (TcpLine.act S Z c) l steps

/-- A connection with nothing sent on it yet. -/
def TcpLine.opened (r : ConnectionRecord) : TcpLine := { ledger := { pipe := { record := r } } }

/-- The frames that the connector has and has not written. -/
def TcpLine.unwritten (l : TcpLine) : List QueuedFrame :=
  l.tasks.flatMap TcpTask.frames ++ (l.writeQueue ++ l.writer.frames)

/-- The frames that are somewhere between `try_push` and the socket. -/
def TcpLine.underWay (l : TcpLine) : List QueuedFrame :=
  l.ledger.pipe.inHand.flatten ++ (l.ledger.pipe.queue.items ++ l.unwritten)

/-- When the socket is closed, what was sent before the call of `disconnect` has been written;
nothing has been accepted since that call. -/
structure TcpLine.Graceful (l : TcpLine) : Prop where
  drained : l.connected = false → ∀ f ∈ l.promised, f ∈ l.written
  shut : l.disconnecting = true → l.ledger.accepted = l.acceptedThen

/-- No push has a reservation within the limit. -/
def SendPipeline.Unreserved (p : SendPipeline) : Prop := ∀ w ∈ p.queue.pushing, w.granted = false

/-- The queue has no room for the frame that a thread is about to push. -/
def SendPipeline.NoRoom (p : SendPipeline) (thread : Nat) : Prop :=
  ∀ f ∈ p.built, f.thread = thread → perConnMaxBytes < p.queue.counter+f.size

/-- No call is refused before that of `disconnect`, which finds no push in progress; after it
the queue has no room for any. The socket is closed when nothing of what was sent before is
under way. -/
def TcpLine.Orderly (l : TcpLine) : TcpStep → Prop
  | .send (.rollBack _) => l.disconnecting = true
  | .send (.reserve thread) => l.disconnecting = true → l.ledger.pipe.NoRoom thread
  | .disconnect => l.ledger.pipe.Unreserved
  | .runTask i => l.tasks[i]? = some .close → ∀ f ∈ l.promised, f ∉ l.underWay
  | _ => True

instance (p : SendPipeline) : Decidable p.Unreserved :=
  inferInstanceAs (Decidable (∀ w ∈ p.queue.pushing, w.granted = false))

instance (p : SendPipeline) (thread : Nat) : Decidable (p.NoRoom thread) :=
  inferInstanceAs (Decidable
    (∀ f ∈ p.built, f.thread = thread → perConnMaxBytes < p.queue.counter+f.size))

instance (l : TcpLine) : (a : TcpStep) → Decidable (l.Orderly a)
  | .send (.rollBack _) => inferInstanceAs (Decidable (l.disconnecting = true))
  | .send (.reserve thread) =>
    inferInstanceAs (Decidable (l.disconnecting = true → l.ledger.pipe.NoRoom thread))
  | .disconnect => inferInstanceAs (Decidable l.ledger.pipe.Unreserved)
  | .runTask i =>
    inferInstanceAs (Decidable
      (l.tasks[i]? = some .close → ∀ f ∈ l.promised, f ∉ l.underWay))
  | .send (.build ..) | .send (.append _) | .send (.take _) | .send (.settle _)
  | .send (.handOver _) | .startWrite | .transmit | .writeDone | .writeAborted | .writeFailed =>
    inferInstanceAs (Decidable True)

/-- The threads that have pushed their frame and not returned. -/
def SendPipeline.afterPush (p : SendPipeline) : List Nat :=
  p.flushing ++ ((p.queue.leaving.map Drain.thread).toList ++ p.handing.map Handover.thread)

/-- A frame is the latest of its thread up to its push, has been accepted after it, and stays
in the pipeline once it is. -/
structure SendLedger.Sound (g : SendLedger) : Prop where
  tidy : g.pipe.Tidy
  built : ∀ f ∈ g.pipe.built, latestOf f.thread g.offered = some f
  pushing : ∀ w ∈ g.pipe.queue.pushing, latestOf w.thread g.offered = some w.item
  pushed : ∀ t ∈ g.pipe.afterPush, ∀ f, latestOf t g.offered = some f → f ∈ g.accepted
  line : ∀ f ∈ g.accepted, f ∈ g.pipe.line

/-- The frames of all calls that have returned were accepted. -/
def SendLedger.Unrefused (g : SendLedger) : Prop := ∀ f ∈ g.returned, f ∈ g.accepted

section
variable {S : Sodium} {Z : Zstd} {c : Compression} {g : SendLedger} {p : SendPipeline}
  {a : PipelineStep}

theorem latestOf_append_self (frames : List QueuedFrame) (f : QueuedFrame) :
    latestOf f.thread (frames ++ [f]) = some f := by
  simp [latestOf,List.filter_append]

theorem latestOf_append_ne (frames : List QueuedFrame) {f : QueuedFrame} {t : Nat}
    (h : f.thread ≠ t) : latestOf t (frames ++ [f]) = latestOf t frames := by
  simp [latestOf,List.filter_append,h]

/-- Most steps leave the frames of the calls alone. -/
theorem SendLedger.advance_offered (g : SendLedger) (thread : Nat)
    (h : p.built.length ≤ g.pipe.built.length) : (g.advance thread p).offered = g.offered := by
  simp [advance,List.drop_eq_nil_of_le h]

theorem SendPipeline.mem_active {p : SendPipeline} {t : Nat} :
    t ∈ p.active ↔ t ∈ p.built.map QueuedFrame.thread ∨ t ∈ p.queue.pushing.map Push.thread ∨
      t ∈ p.afterPush := by
  simp only [active,afterPush,List.mem_append]

/-- A step that builds no frame. -/
theorem SendLedger.Sound.carry (h : g.Sound) (thread : Nat) (ht : p.Tidy)
    (hlen : p.built.length ≤ g.pipe.built.length) (hb : ∀ f ∈ p.built, f ∈ g.pipe.built)
    (hp : ∀ w ∈ p.queue.pushing, latestOf w.thread g.offered = some w.item)
    (hd : ∀ t ∈ p.afterPush, ∀ f, latestOf t g.offered = some f → f ∈ p.queue.accepted)
    (hl : ∀ f ∈ p.queue.accepted, f ∈ p.line) : (g.advance thread p).Sound := by
  have ho := g.advance_offered thread hlen
  refine ⟨ht,?_,?_,?_,hl⟩
  · rw [ho]
    exact fun f hf => h.built f (hb f hf)
  · rw [ho]
    exact hp
  · rw [ho]
    exact hd

/-- A thread that was in no call has a new frame. -/
theorem SendLedger.Sound.build (h : g.Sound) (thread : Nat) {f : QueuedFrame} (ht : p.Tidy)
    (hidle : f.thread ∉ g.pipe.active) (hb : p.built = g.pipe.built ++ [f])
    (hq : p.queue = g.pipe.queue) (ha : p.afterPush = g.pipe.afterPush)
    (hl : p.line = g.pipe.line) : (g.advance thread p).Sound := by
  have ho : (g.advance thread p).offered = g.offered ++ [f] := by
    simp [SendLedger.advance,hb]
  rw [SendPipeline.mem_active,not_or,not_or] at hidle
  obtain ⟨hnb,hnp,hnd⟩ := hidle
  have hpipe : (g.advance thread p).pipe = p := rfl
  have hacc : (g.advance thread p).accepted = g.accepted := congrArg Queue.accepted hq
  refine ⟨ht,fun x hx => ?_,fun w hw => ?_,fun t htin x hlast => ?_,fun x hx => ?_⟩
  · rw [hpipe,hb] at hx
    rw [ho]
    rcases List.mem_append.mp hx with hx | hx
    · rw [latestOf_append_ne _ (fun he => hnb (he ▸ List.mem_map_of_mem hx))]
      exact h.built x hx
    · rw [List.mem_singleton.mp hx]
      exact latestOf_append_self _ _
  · rw [hpipe,hq] at hw
    rw [ho,latestOf_append_ne _ (fun he => hnp (he ▸ List.mem_map_of_mem hw))]
    exact h.pushing w hw
  · rw [hpipe,ha] at htin
    rw [ho,latestOf_append_ne _ (fun he => hnd (he ▸ htin))] at hlast
    rw [hacc]
    exact h.pushed t htin x hlast
  · rw [hacc] at hx
    rw [hpipe,hl]
    exact h.line x hx

/-- A frame that has been pushed stays in the line. -/
theorem SendPipeline.Moves.mem_line {p p' : SendPipeline} (hm : SendPipeline.Moves S Z c p a p')
    {f : QueuedFrame} (hf : f ∈ p.line) : f ∈ p'.line := by
  cases hm with
  | append hl hp =>
    simp only [line,List.mem_append] at hf ⊢
    tauto
  | take hl hflush =>
    rw [line,inHand,hl,← List.take_append_drop flushBatch p.queue.items] at hf
    simp only [line,inHand,Option.map_none,Option.map_some,Option.toList_none,Option.toList_some,
      List.flatten_append,List.flatten_cons,List.flatten_nil,List.append_nil,
      List.mem_append] at hf ⊢
    tauto
  | settleNothing hl hd =>
    simpa only [line,inHand,hl,hd,Option.map_none,Option.map_some,Option.toList_none,
      Option.toList_some,List.flatten_append,List.flatten_cons,List.flatten_nil,
      List.append_nil] using hf
  | settle hl hd =>
    simpa only [line,inHand,hl,Option.map_none,Option.map_some,Option.toList_none,
      Option.toList_some,List.map_append,List.map_cons,List.map_nil,List.append_nil] using hf
  | handOver hh =>
    simp only [line,inHand,hh,List.map_append,List.map_cons,List.flatten_append,
      List.flatten_cons,List.mem_append] at hf ⊢
    tauto
  | _ => exact hf

/-- Only a push takes a thread past its push. -/
theorem SendPipeline.Moves.mem_afterPush {p p' : SendPipeline}
    (hm : SendPipeline.Moves S Z c p a p') (ha : ∀ thread, a ≠ .append thread) {t : Nat}
    (ht : t ∈ p'.afterPush) : t ∈ p.afterPush := by
  cases hm with
  | append hl hp => exact absurd rfl (ha _)
  | take hl hf =>
    simp only [afterPush,hl,hf,Option.map_none,Option.map_some,Option.toList_none,
      Option.toList_some,List.mem_append,List.mem_cons] at ht ⊢
    tauto
  | settleNothing hl hd =>
    simp only [afterPush,hl,Option.map_none,Option.map_some,Option.toList_none,
      Option.toList_some,List.mem_append,List.mem_cons] at ht ⊢
    tauto
  | settle hl hd =>
    simp only [afterPush,hl,Option.map_none,Option.map_some,Option.toList_none,
      Option.toList_some,List.map_append,List.map_cons,List.map_nil,List.mem_append,
      List.mem_cons] at ht ⊢
    tauto
  | handOver hh =>
    simp only [afterPush,hh,List.map_append,List.map_cons,List.mem_append,List.mem_cons] at ht ⊢
    tauto
  | _ => exact ht

theorem SendLedger.Sound.advance (h : g.Sound) (hm : SendPipeline.Moves S Z c g.pipe a p) :
    (g.advance a.thread p).Sound := by
  have ht := hm.tidy h.tidy
  have hline : ∀ f ∈ g.accepted, f ∈ p.line := fun f hf => hm.mem_line (h.line f hf)
  have hafter : (∀ thread, a ≠ .append thread) →
      ∀ t ∈ p.afterPush, ∀ f, latestOf t g.offered = some f → f ∈ g.accepted :=
    fun ha t htin => h.pushed t (hm.mem_afterPush ha htin)
  cases hm with
  | build msgType payload hidle => exact h.build _ ht hidle rfl rfl rfl rfl
  | @reserve f l₁ l₂ hb =>
    refine h.carry _ ht ?_ (fun x hx => ?_) (fun w hw => ?_) h.pushed hline
    · rw [hb]
      simp
    · rw [hb]
      exact mem_of_mem_rest hx
    · rcases List.mem_cons.mp hw with rfl | hw
      · exact h.built f (by rw [hb]; simp)
      · exact h.pushing w hw
  | rollBack hp =>
    refine h.carry _ ht (Nat.le_refl _) (fun f hf => hf) (fun v hv => h.pushing v ?_) h.pushed hline
    rw [hp]
    exact mem_of_mem_rest hv
  | @append w l₁ l₂ hl hp =>
    refine h.carry _ ht (Nat.le_refl _) (fun f hf => hf) (fun v hv => h.pushing v ?_)
      (fun t htin f hlast => ?_) (fun f hf => ?_)
    · rw [hp]
      exact mem_of_mem_rest hv
    · rcases List.mem_cons.mp htin with rfl | htin
      · rw [h.pushing w (by rw [hp]; simp)] at hlast
        cases hlast
        exact List.mem_append_right _ (List.mem_singleton_self _)
      · exact List.mem_append_left _ (h.pushed t htin f hlast)
    · rcases List.mem_append.mp hf with hf | hf
      · exact hline f hf
      · simp only [SendPipeline.line,List.mem_append]
        exact Or.inr (Or.inr (Or.inr hf))
  | stay =>
    exact h.carry _ ht (Nat.le_refl _) (fun f hf => hf) h.pushing h.pushed h.line
  | _ =>
    exact h.carry _ ht (Nat.le_refl _) (fun f hf => hf) h.pushing
      (hafter (fun thread he => by cases he)) hline

/-- A thread that finds no record leaves the call. -/
theorem SendLedger.Sound.abandon (h : g.Sound) (thread : Nat) :
    (g.advance thread { g.pipe with flushing := g.pipe.flushing.erase thread }).Sound := by
  refine h.carry _ (fun t => ?_) (Nat.le_refl _) (fun f hf => hf) h.pushing
    (fun t htin => h.pushed t ?_) h.line
  · have hcount := h.tidy t
    have hless := List.Sublist.count_le t (List.erase_sublist (a := thread) (l := g.pipe.flushing))
    rw [SendPipeline.count_active] at hcount ⊢
    simp only
    omega
  · simp only [SendPipeline.afterPush,List.mem_append] at htin ⊢
    rcases htin with htin | htin
    · exact Or.inl (List.mem_of_mem_erase htin)
    · exact Or.inr htin

/-- A call that ends otherwise than by rolling back ends after its push. -/
theorem SendPipeline.Moves.ends_after_push {p p' : SendPipeline} (hm : SendPipeline.Moves S Z c p a p')
    (hr : ∀ thread, a ≠ .rollBack thread) (hin : a.thread ∈ p.active) (hout : a.thread ∉ p'.active) :
    a.thread ∈ p.afterPush ∧ p'.built = p.built := by
  rw [mem_active,not_or,not_or] at hout
  obtain ⟨hnb,hnp,hnd⟩ := hout
  cases hm with
  | stay =>
    rw [mem_active] at hin
    tauto
  | build msgType payload ht => exact absurd hin ht
  | reserve hb => exact absurd List.mem_cons_self hnp
  | rollBack hp => exact absurd rfl (hr _)
  | append hl hp => exact absurd List.mem_cons_self hnd
  | take hl hf => exact absurd (by simp [afterPush,PipelineStep.thread]) hnd
  | settleNothing hl hd =>
    refine ⟨?_,rfl⟩
    simp [afterPush,PipelineStep.thread,hl]
  | settle hl hd => exact absurd (by simp [afterPush,PipelineStep.thread]) hnd
  | handOver hh =>
    refine ⟨?_,rfl⟩
    simp [afterPush,PipelineStep.thread,hh]

/-- A call that ends has had its frame accepted, unless it ends by rolling back. -/
theorem SendLedger.Unrefused.advance (hu : g.Unrefused) (h : g.Sound)
    (hm : SendPipeline.Moves S Z c g.pipe a p) (hr : ∀ thread, a ≠ .rollBack thread) :
    (g.advance a.thread p).Unrefused := by
  have hgrow : ∀ f ∈ g.accepted, f ∈ p.queue.accepted := by
    cases hm with
    | append hl hp => exact fun f hf => List.mem_append_left _ hf
    | _ => exact fun f hf => hf
  intro f hf
  simp only [SendLedger.advance] at hf
  split at hf
  · rename_i hends
    rcases List.mem_append.mp hf with hf | hf
    · exact hgrow f (hu f hf)
    · obtain ⟨hafter,hb⟩ := hm.ends_after_push hr hends.1 hends.2
      rw [hb,List.drop_length,List.append_nil] at hf
      exact hgrow f (h.pushed _ hafter f (by simpa using hf))
  · exact hgrow f (hu f hf)

/-- With no reservation within the limit nothing is appended. -/
theorem SendPipeline.Unreserved.append (h : p.Unreserved) (thread : Nat) :
    p.act S Z c (.append thread) = p := by
  simp only [SendPipeline.act]
  split
  · rename_i found hl hpick
    obtain ⟨w,rest⟩ := found
    obtain ⟨hw,l₁,l₂,hp,rfl⟩ := pick_some hpick
    have hno := h w (by rw [hp]; simp)
    simp [Push.of,hno] at hw
  · rfl

/-- Without room for a frame no reservation is within the limit. -/
theorem SendPipeline.Unreserved.moves {p p' : SendPipeline} (h : p.Unreserved)
    (hm : SendPipeline.Moves S Z c p a p') (hr : ∀ thread, a = .reserve thread → p.NoRoom thread)
    (ha : ∀ thread, a ≠ .append thread) :
    p'.Unreserved ∧ p'.queue.accepted = p.queue.accepted := by
  cases hm with
  | @reserve f l₁ l₂ hb =>
    have hroom := hr _ rfl f (by rw [hb]; simp) rfl
    refine ⟨fun w hw => ?_,rfl⟩
    rcases List.mem_cons.mp hw with rfl | hw
    · simp only [decide_eq_false_iff_not]
      omega
    · exact h w hw
  | @rollBack w l₁ l₂ hp =>
    refine ⟨fun v hv => h v ?_,rfl⟩
    rw [hp]
    exact mem_of_mem_rest hv
  | append hl hp => exact absurd rfl (ha _)
  | _ => exact ⟨h,rfl⟩

theorem SendPipeline.Moves.handed {p p' : SendPipeline} (hm : SendPipeline.Moves S Z c p a p') :
    ∃ batch, p'.handed = p.handed ++ batch := by
  cases hm with
  | handOver hh => exact ⟨_,rfl⟩
  | _ => exact ⟨[],by simp⟩

/-- What is handed over is with the connector before or is posted. -/
theorem mem_posted {p p' : SendPipeline} {batch : List QueuedFrame}
    (h : p'.handed = p.handed ++ batch) {f : QueuedFrame} (hf : f ∈ p'.handed) :
    f ∈ p.handed ∨ f ∈ (postedBy p p').flatMap TcpTask.frames := by
  rw [h] at hf
  rcases List.mem_append.mp hf with hf | hf
  · exact Or.inl hf
  · refine Or.inr ?_
    have hne : batch.isEmpty = false := by
      cases batch with
      | nil => cases hf
      | cons x batch => rfl
    simp [postedBy,h,hne,TcpTask.frames,hf]

end

/-- Before the call of `disconnect` the connection is open and only sends are posted. What
was accepted is in the pipeline, and what left the pipeline for an open socket is written or
with the connector. -/
structure TcpLine.Kept (l : TcpLine) : Prop where
  sound : l.ledger.Sound
  unrefused : l.disconnecting = false → l.ledger.Unrefused
  live : l.disconnecting = false → l.live = true ∧ l.connected = true
  sends : l.disconnecting = false → ∀ task ∈ l.tasks, ∃ frames, task = .send frames
  unreserved : l.disconnecting = true → l.ledger.pipe.Unreserved
  owed : ∀ f ∈ l.promised, f ∈ l.ledger.accepted
  carried : l.connected = true → ∀ f ∈ l.ledger.pipe.handed, f ∈ l.unwritten ∨ f ∈ l.written
  graceful : l.Graceful

section
variable {S : Sodium} {Z : Zstd} {c : Compression} {l : TcpLine}

/-- While the record is there a call takes the steps of the pipeline. -/
theorem TcpLine.act_pipe (h : l.live = true) (a : PipelineStep) :
    (l.act S Z c (.send a)).ledger.pipe = l.ledger.pipe.act S Z c a := by
  cases a <;> simp [act,pipeStep,SendLedger.advance,h]

/-- What `disconnect` sets in the queue is not looked at by a push. -/
theorem PerConnQueue.tryPush_draining (q : PerConnQueue) (draining : Bool) (frame : Bytes) :
    ({ q with draining := draining }.tryPush frame).2 = (q.tryPush frame).2 := by
  unfold tryPush
  dsimp only
  split
  · rfl
  · rfl

/-- A step of the pipeline, or a thread that finds no record. -/
theorem TcpLine.pipeStep_cases (h : l.ledger.pipe.Tidy) (a : PipelineStep) :
    SendPipeline.Moves S Z c l.ledger.pipe a (l.pipeStep S Z c a) ∨
      l.live = false ∧ ∃ thread, a = .take thread ∧ l.pipeStep S Z c a =
        { l.ledger.pipe with flushing := l.ledger.pipe.flushing.erase thread } := by
  unfold pipeStep
  split
  · exact Or.inl (.stay _)
  · exact Or.inr ⟨by assumption,_,rfl,rfl⟩
  · exact Or.inl (SendPipeline.act_moves h _)

theorem TcpLine.Kept.opened (r : ConnectionRecord) : (TcpLine.opened r).Kept where
  sound := by
    refine ⟨(SendPipeline.Attended.start r).tidy,?_,?_,?_,?_⟩ <;>
      simp [TcpLine.opened,SendPipeline.afterPush,SendLedger.accepted]
  unrefused := fun _ f hf => (by cases hf)
  live := fun _ => ⟨rfl,rfl⟩
  sends := fun _ task htask => (by cases htask)
  unreserved := fun h => (by cases h)
  owed := fun f hf => (by cases hf)
  carried := fun _ f hf => (by cases hf)
  graceful := ⟨fun h => (by cases h),fun h => (by cases h)⟩

theorem SendPipeline.Moves.accepted {a : PipelineStep} {p p' : SendPipeline}
    (hm : SendPipeline.Moves S Z c p a p') {f : QueuedFrame} (hf : f ∈ p.queue.accepted) :
    f ∈ p'.queue.accepted := by
  cases hm with
  | append hl hp => exact List.mem_append_left _ hf
  | _ => exact hf

/-- After the call of `disconnect` nothing more is let in. -/
theorem TcpLine.Kept.pipeStep_unreserved (h : l.Kept) (a : PipelineStep) (ho : l.Orderly (.send a))
    (hd : l.disconnecting = true) :
    (l.pipeStep S Z c a).Unreserved ∧ (l.pipeStep S Z c a).queue.accepted = l.ledger.accepted := by
  have hb := h.unreserved hd
  rcases l.pipeStep_cases (S := S) (Z := Z) (c := c) h.sound.tidy a with hm | ⟨_,thread,_,hp⟩
  · by_cases ha : ∃ thread, a = .append thread
    · obtain ⟨thread,rfl⟩ := ha
      have hp : l.pipeStep S Z c (.append thread) = l.ledger.pipe := by
        simp only [pipeStep,hb.append thread]
      rw [hp]
      exact ⟨hb,rfl⟩
    · refine hb.moves hm (fun thread he => ?_) (fun thread he => ha ⟨thread,he⟩)
      subst he
      exact ho hd
  · rw [hp]
    exact ⟨hb,rfl⟩

theorem TcpLine.Kept.send (h : l.Kept) (a : PipelineStep) (ho : l.Orderly (.send a)) :
    (l.act S Z c (.send a)).Kept := by
  have hcases := l.pipeStep_cases (S := S) (Z := Z) (c := c) h.sound.tidy a
  have hunreserved := h.pipeStep_unreserved (S := S) (Z := Z) (c := c) a ho
  simp only [TcpLine.act]
  generalize l.pipeStep S Z c a = p at *
  have hsound : (l.ledger.advance a.thread p).Sound := by
    rcases hcases with hm | ⟨_,thread,rfl,rfl⟩
    · exact h.sound.advance hm
    · exact h.sound.abandon thread
  have hgrow : ∀ f ∈ l.ledger.accepted, f ∈ p.queue.accepted := by
    rcases hcases with hm | ⟨_,thread,rfl,rfl⟩
    · exact fun f hf => hm.accepted hf
    · exact fun f hf => hf
  have hhanded : ∃ batch, p.handed = l.ledger.pipe.handed ++ batch := by
    rcases hcases with hm | ⟨_,thread,rfl,rfl⟩
    · exact hm.handed
    · exact ⟨[],by simp⟩
  obtain ⟨batch,hbatch⟩ := hhanded
  refine ⟨hsound,fun hd => ?_,h.live,fun hd task htask => ?_,fun hd => (hunreserved hd).1,
    fun f hf => hgrow f (h.owed f hf),fun hc f hf => ?_,⟨h.graceful.drained,fun hd => ?_⟩⟩
  · rcases hcases with hm | ⟨hdead,_⟩
    · refine (h.unrefused hd).advance h.sound hm (fun thread he => ?_)
      subst he
      exact absurd (hd.symm.trans ho) (by decide)
    · exact absurd ((h.live hd).1.symm.trans hdead) (by decide)
  · rcases List.mem_append.mp htask with htask | htask
    · exact h.sends hd task htask
    · simp only [postedBy] at htask
      split at htask
      · cases htask
      · exact ⟨_,List.mem_singleton.mp htask⟩
  · simp only [unwritten,List.flatMap_append,List.mem_append]
    rcases mem_posted hbatch hf with hf | hf
    · have hold := h.carried hc f hf
      simp only [unwritten,List.mem_append] at hold
      tauto
    · exact Or.inl (Or.inl (Or.inr hf))
  · exact (hunreserved hd).2.trans (h.graceful.shut hd)

/-- The connector takes what was posted. -/
theorem TcpLine.mem_unwritten_of_task {task : TcpTask} {i : Nat} (htask : l.tasks[i]? = some task)
    {f : QueuedFrame} (hf : f ∈ l.unwritten) :
    f ∈ task.frames ∨ f ∈ ({ l with tasks := l.tasks.eraseIdx i } : TcpLine).unwritten := by
  simp only [unwritten,List.mem_append,List.mem_flatMap] at hf ⊢
  rcases hf with ⟨other,hin,hf⟩ | hf
  · obtain ⟨hi,rfl⟩ := List.getElem?_eq_some_iff.mp htask
    by_cases he : other = l.tasks[i]
    · subst he
      exact Or.inl hf
    · refine Or.inr (Or.inl ⟨other,?_,hf⟩)
      obtain ⟨j,hj,rfl⟩ := List.getElem_of_mem hin
      refine List.mem_eraseIdx_iff_getElem.mpr ⟨j,hj,fun hij => he ?_,rfl⟩
      subst hij
      rfl
  · exact Or.inr (Or.inr hf)

/-- The connector goes on with its frames and the socket stays as it is. -/
theorem TcpLine.Kept.goOn (h : l.Kept) {l' : TcpLine} (hl : l'.ledger = l.ledger)
    (hd : l'.disconnecting = l.disconnecting ∧ l'.promised = l.promised ∧
      l'.acceptedThen = l.acceptedThen ∧ l'.connected = l.connected)
    (hlive : l.disconnecting = false → l'.live = true) (ht : ∀ t ∈ l'.tasks, t ∈ l.tasks)
    (hc : l.connected = true → ∀ f ∈ l.unwritten, f ∈ l'.unwritten ∨ f ∈ l'.written)
    (hw : ∀ f ∈ l.written, f ∈ l'.written) : l'.Kept := by
  obtain ⟨hdis,hprom,hthen,hconn⟩ := hd
  refine ⟨hl ▸ h.sound,?_,?_,?_,?_,?_,?_,?_,?_⟩
  · rw [hdis,hl]
    exact h.unrefused
  · rw [hdis,hconn]
    exact fun hno => ⟨hlive hno,(h.live hno).2⟩
  · rw [hdis]
    exact fun hno t hin => h.sends hno t (ht t hin)
  · rw [hdis,hl]
    exact h.unreserved
  · rw [hprom,hl]
    exact h.owed
  · rw [hconn,hl]
    intro hopen f hf
    rcases h.carried hopen f hf with hf | hf
    · exact hc hopen f hf
    · exact Or.inr (hw f hf)
  · rw [hconn,hprom]
    exact fun hshut f hf => hw f (h.graceful.drained hshut f hf)
  · rw [hdis,hl,hthen]
    exact h.graceful.shut

/-- Only `disconnect` posts anything but a send. -/
theorem TcpLine.Kept.disconnecting_of_task (h : l.Kept) {task : TcpTask} (hin : task ∈ l.tasks)
    (hne : ∀ frames, task ≠ .send frames) : l.disconnecting = true := by
  by_contra hno
  obtain ⟨frames,hsend⟩ := h.sends (by simpa using hno) task hin
  exact hne frames hsend

theorem TcpLine.Kept.close (h : l.Kept) {i : Nat} (htask : l.tasks[i]? = some .close)
    (hgone : ∀ f ∈ l.promised, f ∉ l.underWay) :
    TcpLine.Kept
      { l with connected := false, tasks := l.tasks.eraseIdx i ++ [.notify] } := by
  have hd := h.disconnecting_of_task (List.mem_of_getElem? htask) (fun frames he => (by cases he))
  refine ⟨h.sound,h.unrefused,fun hno => absurd (hd.symm.trans hno) (by decide),
    fun hno => absurd (hd.symm.trans hno) (by decide),h.unreserved,h.owed,fun hc => (by cases hc),
    ⟨fun _ f hf => ?_,h.graceful.shut⟩⟩
  -- what was promised was accepted, so it is in the pipeline or has left it
  have hline := h.sound.line f (h.owed f hf)
  have hgone := hgone f hf
  simp only [underWay,List.mem_append,not_or] at hgone
  obtain ⟨hhand,hitem,hunwritten⟩ := hgone
  simp only [SendPipeline.line,List.mem_append] at hline
  cases hc : l.connected with
  | false => exact h.graceful.drained hc f hf
  | true =>
    rcases hline with hline | hline | hline
    · exact (h.carried hc f hline).resolve_left hunwritten
    · exact absurd hline hhand
    · exact absurd hline hitem

theorem TcpLine.Kept.runTask (h : l.Kept) (i : Nat) (ho : l.Orderly (.runTask i)) :
    (l.act S Z c (.runTask i)).Kept := by
  simp only [TcpLine.act]
  split
  · exact h
  · rename_i task htask
    have hrest : ∀ t ∈ l.tasks.eraseIdx i, t ∈ l.tasks := fun t ht => List.mem_of_mem_eraseIdx ht
    cases task with
    | send frames =>
      simp only [perform]
      split
      · rename_i hopen
        refine h.goOn rfl ⟨rfl,rfl,rfl,rfl⟩ (fun hd => (h.live hd).1) hrest (fun _ f hf => Or.inl ?_)
          (fun f hf => hf)
        have hplace := mem_unwritten_of_task htask hf
        have hwriter : f ∈ l.writer.frames →
            f ∈ TcpWriter.frames (if l.writer = .idle then .starting else l.writer) := by
          split
          · rename_i hidle
            rw [hidle]
            exact fun hf => hf
          · exact fun hf => hf
        simp only [unwritten,List.mem_append,TcpTask.frames] at hplace ⊢
        tauto
      · rename_i hshut
        exact h.goOn rfl ⟨rfl,rfl,rfl,rfl⟩ (fun hd => (h.live hd).1) hrest
          (fun hc => absurd hc hshut) (fun f hf => hf)
    | close => exact h.close htask (ho htask)
    | notify =>
      have hd := h.disconnecting_of_task (List.mem_of_getElem? htask)
        (fun frames he => (by cases he))
      refine h.goOn rfl ⟨rfl,rfl,rfl,rfl⟩ (fun hno => absurd (hd.symm.trans hno) (by decide)) hrest
        (fun _ f hf => Or.inl ?_) (fun f hf => hf)
      exact (mem_unwritten_of_task htask hf).resolve_left (by simp [TcpTask.frames])

theorem TcpLine.Kept.disconnect (h : l.Kept) (ho : l.ledger.pipe.Unreserved) :
    (l.act S Z c .disconnect).Kept := by
  simp only [TcpLine.act]
  split
  · exact h
  · rename_i hno
    have hno : l.disconnecting = false := by simpa using hno
    refine ⟨h.sound,fun hd => (by cases hd),fun hd => (by cases hd),fun hd => (by cases hd),fun _ => ho,
      h.unrefused hno,fun hc f hf => ?_,⟨fun hc => ?_,fun _ => rfl⟩⟩
    · rcases h.carried hc f hf with hf | hf
      · refine Or.inl ?_
        simp only [unwritten,List.mem_append,(h.live hno).1,ite_true,List.flatMap_append] at hf ⊢
        tauto
      · exact Or.inr hf
    · exact absurd ((h.live hno).2.symm.trans hc) (by decide)

theorem TcpLine.Kept.afterWrite (h : l.Kept)
    (hw : l.connected = true → l.writer.frames = []) : l.afterWrite.Kept := by
  refine h.goOn rfl ⟨rfl,rfl,rfl,rfl⟩ (fun hd => (h.live hd).1) (fun t ht => ht) (fun hc f hf => ?_)
    (fun f hf => hf)
  simp only [unwritten,hw hc,List.append_nil,List.mem_append] at hf
  simp only [unwritten,TcpLine.afterWrite,List.mem_append]
  tauto

theorem TcpLine.Kept.act (h : l.Kept) (a : TcpStep) (ho : l.Orderly a) : (l.act S Z c a).Kept := by
  cases a with
  | send a => exact h.send a ho
  | disconnect => exact h.disconnect ho
  | runTask i => exact h.runTask i ho
  | startWrite =>
    simp only [TcpLine.act]
    split
    · rename_i hstart
      split
      · rename_i hempty
        refine h.goOn rfl ⟨rfl,rfl,rfl,rfl⟩ (fun hd => (h.live hd).1) (fun t ht => ht)
          (fun _ f hf => Or.inl ?_) (fun f hf => hf)
        simpa only [unwritten,hstart,TcpWriter.frames] using hf
      · refine h.goOn rfl ⟨rfl,rfl,rfl,rfl⟩ (fun hd => (h.live hd).1) (fun t ht => ht)
          (fun _ f hf => Or.inl ?_) (fun f hf => hf)
        rw [unwritten,← List.take_append_drop writeBatchSize l.writeQueue] at hf
        simp only [unwritten,hstart,TcpWriter.frames,List.mem_append] at hf ⊢
        tauto
    · exact h
  | transmit =>
    simp only [TcpLine.act]
    split
    · rename_i f rest hw _
      refine h.goOn rfl ⟨rfl,rfl,rfl,rfl⟩ (fun hd => (h.live hd).1) (fun t ht => ht)
        (fun _ g hg => ?_) (fun g hg => List.mem_append_left _ hg)
      simp only [unwritten,hw,TcpWriter.frames,List.mem_append,List.mem_cons] at hg ⊢
      tauto
    · exact h
  | writeDone =>
    simp only [TcpLine.act]
    split
    · rename_i hw
      exact h.afterWrite (fun _ => by rw [hw]; rfl)
    · exact h
  | writeAborted =>
    simp only [TcpLine.act]
    split
    · rename_i hshut
      exact h.afterWrite (fun hc => absurd (hc.symm.trans hshut) (by decide))
    · exact h
  | writeFailed =>
    simp only [TcpLine.act]
    split
    · rename_i hshut
      exact h.goOn rfl ⟨rfl,rfl,rfl,rfl⟩ (fun hd => (h.live hd).1) (fun t ht => ht)
        (fun hc => absurd (hc.symm.trans hshut) (by decide)) (fun f hf => hf)
    · exact h

end

/-- In every run in which no call is refused before that of `disconnect`, no push is let in
after it and the socket is closed when nothing of what was sent before is under way, a graceful
disconnect loses nothing and admits nothing. -/
theorem disconnect_graceful (S : Sodium) (Z : Zstd) (c : Compression) (r : ConnectionRecord)
    (steps : List TcpStep)
    (h : Along (TcpLine.act S Z c) TcpLine.Orderly (.opened r) steps) :
    (TcpLine.run S Z c (.opened r) steps).Graceful :=
  (h.invariant (fun _ a hk ho => hk.act a ho) (TcpLine.Kept.opened r)).graceful

/-- A frame is sent and its task posted. -/
def sentOnce : List TcpStep := (pushes 1 [104] ++ flushes 1).map .send

/-- The connector's threads are done with the frame before the connection is closed. -/
def closedAfterWrite : List TcpStep :=
  sentOnce ++ [.runTask 0,.startWrite,.transmit,.writeDone,.disconnect,.runTask 0,.runTask 0]

set_option maxRecDepth 10000 in
theorem disconnect_graceful_after_write :
    (TcpLine.run Sodium.sample Zstd.sample {} (.opened establishedRecord)
      closedAfterWrite).Graceful ∧
    (TcpLine.run Sodium.sample Zstd.sample {} (.opened establishedRecord)
      closedAfterWrite).connected = false ∧
    (TcpLine.run Sodium.sample Zstd.sample {} (.opened establishedRecord)
      closedAfterWrite).promised.length = 1 := by
  refine ⟨?_,by decide +kernel,by decide +kernel⟩
  exact disconnect_graceful Sodium.sample Zstd.sample {} establishedRecord closedAfterWrite
    (by decide +kernel)

/-- `disconnect` is called while the frame is still a posted task, and another frame is sent
before the close runs, which is before both of them. -/
def closedBeforeWrite : List TcpStep :=
  sentOnce ++ [.disconnect] ++ (pushes 2 [105] ++ flushes 2).map .send ++
    [.runTask 1,.runTask 0,.runTask 0,.runTask 0]

set_option maxRecDepth 10000 in
/-- The first frame is never written, and the second is accepted after `disconnect`. -/
theorem close_overtakes_frames :
    (TcpLine.run Sodium.sample Zstd.sample {} (.opened establishedRecord)
      closedBeforeWrite).promised.map QueuedFrame.number = [0] ∧
    (TcpLine.run Sodium.sample Zstd.sample {} (.opened establishedRecord)
      closedBeforeWrite).connected = false ∧
    (TcpLine.run Sodium.sample Zstd.sample {} (.opened establishedRecord)
      closedBeforeWrite).written = [] ∧
    (TcpLine.run Sodium.sample Zstd.sample {} (.opened establishedRecord)
      closedBeforeWrite).ledger.accepted.map QueuedFrame.number = [0,1] ∧
    (TcpLine.run Sodium.sample Zstd.sample {} (.opened establishedRecord)
      closedBeforeWrite).acceptedThen.map QueuedFrame.number = [0] ∧
    ¬ (TcpLine.run Sodium.sample Zstd.sample {} (.opened establishedRecord)
      closedBeforeWrite).Graceful := by
  refine ⟨by decide +kernel,by decide +kernel,by decide +kernel,by decide +kernel,by decide +kernel,
    fun h => ?_⟩
  have hnumbers := congrArg (List.map QueuedFrame.number) (h.shut (by decide +kernel))
  exact absurd hnumbers (by decide +kernel)

end GoodNet
