import GoodNet.GracefulClose
set_option autoImplicit false

/-! The sending side of `plugins/connectors/tcp/tcp.cpp`. `do_send` and `do_send_gather` post
a task that puts frames into `write_queue`; `start_write` and the handler an `async_write`
completes with take them out again. Every step under `write_mu` is one step here, and what a
thread does after it has left the lock is a step of its own. -/

namespace GoodNet
open Codec Interleaving

/-- An `async_write`: its frames, and the bytes that are not on the socket yet. -/
structure AsyncWrite where
  frames : List Bytes
  rest : Bytes
  deriving DecidableEq, Repr

/-- The write state of a connection. `starting` counts the threads that have left the lock on
their way to `start_write`; `socket`, `enqueued` and `completed` are the history. -/
structure TcpConnection where
  writeQueue : List Bytes := []
  writing : Bool := false
  starting : Nat := 0
  outstanding : List AsyncWrite := []
  socket : Bytes := []
  enqueued : List Bytes := []
  completed : List (List Bytes) := []
  deriving DecidableEq, Repr

/-- What the task of a send does under the lock. -/
def TcpConnection.enqueue (c : TcpConnection) (frames : List Bytes) : TcpConnection :=
  { c with
    writeQueue := c.writeQueue ++ frames,
    writing := true,
    starting := if c.writing then c.starting else c.starting+1,
    enqueued := c.enqueued ++ frames }

def TcpConnection.startWrite (c : TcpConnection) : TcpConnection :=
  if c.starting = 0 then c
  else if c.writeQueue.isEmpty then { c with starting := c.starting-1, writing := false }
  else
    let frames := c.writeQueue.take writeBatchSize
    { c with
      starting := c.starting-1,
      writeQueue := c.writeQueue.drop writeBatchSize,
      outstanding := c.outstanding ++ [⟨frames,frames.flatten⟩] }

/-- The socket takes up to `n` more bytes of a write. -/
def TcpConnection.transmit (c : TcpConnection) (i n : Nat) : TcpConnection :=
  match c.outstanding[i]? with
  | none => c
  | some w =>
    { c with
      outstanding := c.outstanding.set i { w with rest := w.rest.drop n },
      socket := c.socket ++ w.rest.take n }

/-- The completion handler of a write that has put all its bytes on the socket. -/
def TcpConnection.complete (c : TcpConnection) (i : Nat) : TcpConnection :=
  match c.outstanding[i]? with
  | none => c
  | some w =>
    if w.rest.isEmpty then
      { c with
        outstanding := c.outstanding.eraseIdx i,
        completed := c.completed ++ [w.frames],
        writing := if c.writeQueue.isEmpty then false else c.writing,
        starting := if c.writeQueue.isEmpty then c.starting else c.starting+1 }
    else c

inductive WriteStep where
  | enqueue (frames : List Bytes)
  | startWrite
  | transmit (i n : Nat)
  | complete (i : Nat)
  deriving DecidableEq, Repr

def TcpConnection.act (c : TcpConnection) : WriteStep → TcpConnection
  | .enqueue frames => c.enqueue frames
  | .startWrite => c.startWrite
  | .transmit i n => c.transmit i n
  | .complete i => c.complete i

/-- The frames that a step brings. -/
def WriteStep.enqueued : WriteStep → List Bytes
  | .enqueue frames => frames
  | .startWrite | .transmit .. | .complete _ => []

/-- The frames of the enqueue tasks of a run, in the order the tasks ran in. -/
def enqueuedFrames (steps : List WriteStep) : List Bytes := steps.flatMap WriteStep.enqueued

/-- One write at a time, the flag says whether there is one, and what was enqueued is on the
socket, under way or in the queue, in this order. -/
structure TcpConnection.Serial (c : TcpConnection) : Prop where
  single : c.outstanding.length ≤ 1
  flag : c.writing = true ↔ c.outstanding ≠ [] ∨ 0 < c.starting
  queued : c.writeQueue ≠ [] → c.writing = true
  frames : c.completed.flatten ++ (c.outstanding.flatMap AsyncWrite.frames ++ c.writeQueue) =
    c.enqueued
  bytes : c.socket ++ ((c.outstanding.flatMap AsyncWrite.rest) ++ c.writeQueue.flatten) =
    c.enqueued.flatten
  batches : ∀ b ∈ c.completed ++ c.outstanding.map AsyncWrite.frames, b.length ≤ writeBatchSize

/-- The three phases of a connection: at rest, about to start a write, writing. -/
inductive TcpConnection.Phase (c : TcpConnection) : Prop where
  | idle (hw : c.writing = false) (hs : c.starting = 0) (ho : c.outstanding = [])
      (hq : c.writeQueue = [])
  | starting (hw : c.writing = true) (hs : c.starting = 1) (ho : c.outstanding = [])
  | writing (w : AsyncWrite) (hw : c.writing = true) (hs : c.starting = 0)
      (ho : c.outstanding = [w])

/-- The phase and the two accounts that go with it. -/
structure TcpConnection.Paced (c : TcpConnection) : Prop where
  phase : c.Phase
  frames : c.completed.flatten ++ (c.outstanding.flatMap AsyncWrite.frames ++ c.writeQueue) =
    c.enqueued
  bytes : c.socket ++ ((c.outstanding.flatMap AsyncWrite.rest) ++ c.writeQueue.flatten) =
    c.enqueued.flatten
  batches : ∀ b ∈ c.completed ++ c.outstanding.map AsyncWrite.frames, b.length ≤ writeBatchSize

section
variable {c : TcpConnection}

theorem TcpConnection.paced_new : ({} : TcpConnection).Paced :=
  ⟨.idle rfl rfl rfl rfl,rfl,rfl,by simp⟩

theorem TcpConnection.Paced.enqueue (h : c.Paced) (frames : List Bytes) :
    (c.enqueue frames).Paced := by
  refine ⟨?_,?_,?_,h.batches⟩
  · cases h.phase with
    | idle hw hs ho hq => exact .starting rfl (by simp [TcpConnection.enqueue,hw,hs]) ho
    | starting hw hs ho => exact .starting rfl (by simp [TcpConnection.enqueue,hw,hs]) ho
    | writing w hw hs ho => exact .writing w rfl (by simp [TcpConnection.enqueue,hw,hs]) ho
  · simp [TcpConnection.enqueue,← h.frames]
  · simp [TcpConnection.enqueue,← h.bytes]

theorem TcpConnection.Paced.startWrite (h : c.Paced) : c.startWrite.Paced := by
  unfold TcpConnection.startWrite
  cases h.phase with
  | idle hw hs ho hq =>
    rw [if_pos hs]
    exact h
  | writing w hw hs ho =>
    rw [if_pos hs]
    exact h
  | starting hw hs ho =>
    rw [if_neg (by omega)]
    by_cases hq : c.writeQueue = []
    · rw [if_pos (by simp [hq])]
      exact ⟨.idle rfl (by simp [hs]) ho hq,h.frames,h.bytes,h.batches⟩
    · rw [if_neg (by simp [hq])]
      have hcut := List.take_append_drop writeBatchSize c.writeQueue
      have hframes := h.frames
      have hbytes := h.bytes
      have hbatches := h.batches
      rw [ho] at hframes hbytes hbatches
      refine ⟨.writing _ hw (by simp [hs]) (by simp [ho]; rfl),?_,?_,?_⟩
      · simpa [ho,hcut] using hframes
      · simpa [ho,← List.flatten_append,hcut] using hbytes
      · intro b hb
        simp only [ho,List.nil_append,List.map_cons,List.map_nil,List.mem_append,
          List.mem_singleton] at hb
        rcases hb with hb | rfl
        · exact hbatches b (List.mem_append_left _ hb)
        · exact List.length_take_le _ _

theorem TcpConnection.transmit_single {w : AsyncWrite} (ho : c.outstanding = [w]) (n : Nat) :
    c.transmit 0 n = { c with
      outstanding := [{ w with rest := w.rest.drop n }], socket := c.socket ++ w.rest.take n } := by
  simp [TcpConnection.transmit,ho]

theorem TcpConnection.Paced.transmit (h : c.Paced) (i n : Nat) : (c.transmit i n).Paced := by
  cases h.phase with
  | idle hw hs ho hq => simpa [TcpConnection.transmit,ho] using h
  | starting hw hs ho => simpa [TcpConnection.transmit,ho] using h
  | writing w hw hs ho =>
    cases i with
    | succ i => simpa [TcpConnection.transmit,ho] using h
    | zero =>
      have hframes := h.frames
      have hbytes := h.bytes
      have hbatches := h.batches
      rw [ho] at hframes hbytes hbatches
      rw [TcpConnection.transmit_single ho]
      refine ⟨.writing _ hw hs rfl,?_,?_,?_⟩
      · simpa using hframes
      · simpa [← List.append_assoc (w.rest.take n)] using hbytes
      · simpa using hbatches

theorem TcpConnection.Paced.complete (h : c.Paced) (i : Nat) : (c.complete i).Paced := by
  unfold TcpConnection.complete
  cases h.phase with
  | idle hw hs ho hq => simpa [ho] using h
  | starting hw hs ho => simpa [ho] using h
  | writing w hw hs ho =>
    cases i with
    | succ i => simpa [ho] using h
    | zero =>
      rw [ho]
      by_cases hr : w.rest = []
      · have hframes := h.frames
        have hbytes := h.bytes
        have hbatches := h.batches
        rw [ho] at hframes hbytes hbatches
        refine ⟨?_,?_,?_,?_⟩
        · by_cases hq : c.writeQueue = []
          · exact .idle (by simp [hr,hq]) (by simp [hr,hq,hs]) (by simp [hr]) (by simp [hr,hq])
          · exact .starting (by simp [hr,hq,hw]) (by simp [hr,hq,hs]) (by simp [hr])
        · simpa [hr] using hframes
        · simpa [hr] using hbytes
        · simpa [hr] using hbatches
      · simpa [hr] using h

theorem TcpConnection.Paced.act (h : c.Paced) (a : WriteStep) : (c.act a).Paced := by
  cases a with
  | enqueue frames => exact h.enqueue frames
  | startWrite => exact h.startWrite
  | transmit i n => exact h.transmit i n
  | complete i => exact h.complete i

theorem TcpConnection.startWrite_enqueued (c : TcpConnection) :
    c.startWrite.enqueued = c.enqueued := by
  unfold startWrite
  split
  · rfl
  · split <;> rfl

theorem TcpConnection.transmit_enqueued (c : TcpConnection) (i n : Nat) :
    (c.transmit i n).enqueued = c.enqueued := by
  unfold transmit
  split <;> rfl

theorem TcpConnection.complete_enqueued (c : TcpConnection) (i : Nat) :
    (c.complete i).enqueued = c.enqueued := by
  unfold complete
  split
  · rfl
  · split <;> rfl

theorem TcpConnection.act_enqueued (c : TcpConnection) (a : WriteStep) :
    (c.act a).enqueued = c.enqueued ++ a.enqueued := by
  cases a with
  | enqueue frames => rfl
  | startWrite => simp [act,WriteStep.enqueued,startWrite_enqueued]
  | transmit i n => simp [act,WriteStep.enqueued,transmit_enqueued]
  | complete i => simp [act,WriteStep.enqueued,complete_enqueued]

theorem TcpConnection.run_enqueued (c : TcpConnection) (steps : List WriteStep) :
    (Interleaving.run TcpConnection.act c steps).enqueued = c.enqueued ++ enqueuedFrames steps := by
  induction steps generalizing c with
  | nil => simp [Interleaving.run,enqueuedFrames]
  | cons a steps ih =>
    have hrest := ih (c.act a)
    rw [act_enqueued,List.append_assoc] at hrest
    exact hrest

theorem TcpConnection.Paced.serial (h : c.Paced) : c.Serial := by
  refine ⟨?_,?_,?_,h.frames,h.bytes,h.batches⟩
  · cases h.phase with
    | idle hw hs ho hq => simp [ho]
    | starting hw hs ho => simp [ho]
    | writing w hw hs ho => simp [ho]
  · cases h.phase with
    | idle hw hs ho hq => simp [hw,hs,ho]
    | starting hw hs ho => simp [hw,hs]
    | writing w hw hs ho => simp [hw,ho]
  · cases h.phase with
    | idle hw hs ho hq => simp [hq]
    | starting hw hs ho => simp [hw]
    | writing w hw hs ho => simp [hw]

end

/-- Whatever the order of enqueuing, starting, writing and completing: what has been enqueued are
the frames of the tasks that have run, in their order. -/
theorem writes_serial (steps : List WriteStep) :
    let c := Interleaving.run TcpConnection.act {} steps
    c.enqueued = enqueuedFrames steps ∧ c.Serial := by
  intro c
  have hc : c.Paced :=
    run_invariant (I := TcpConnection.Paced) (fun _ a h => h.act a) TcpConnection.paced_new steps
  exact ⟨TcpConnection.run_enqueued {} steps,hc.serial⟩

/-- A second task comes while the frames of the first one are being written. -/
def lateEnqueue : List WriteStep :=
  [.enqueue [[1],[2]],.startWrite,.transmit 0 1,.enqueue [[3],[4,5]],.transmit 0 5,.complete 0,
    .startWrite,.transmit 0 3,.complete 0]

theorem writes_serial_late :
    let c := Interleaving.run TcpConnection.act {} lateEnqueue
    c.completed = [[[1],[2]],[[3],[4,5]]] ∧ c.socket = [1,2,3,4,5] ∧ c.writing = false ∧
      c.enqueued = enqueuedFrames lateEnqueue ∧ c.Serial := by
  obtain ⟨henqueued,hserial⟩ := writes_serial lateEnqueue
  exact ⟨by decide,by decide,by decide,henqueued,hserial⟩

/-- The sends on one connection: the frames of all calls in call order, and those of the tasks
that have been posted and have not run. -/
structure TcpSends where
  conn : TcpConnection := {}
  posted : List (List Bytes) := []
  called : List (List Bytes) := []
  deriving DecidableEq, Repr

inductive TcpSendStep where
  | doSend (data : Bytes)
  | doSendGather (iov : List Bytes)
  | runTask (i : Nat)
  | startWrite
  | transmit (i n : Nat)
  | complete (i : Nat)
  deriving DecidableEq, Repr

/-- `asio::post` of the frames of one call. -/
def TcpSends.post (s : TcpSends) (frames : List Bytes) : TcpSends :=
  { s with posted := s.posted ++ [frames], called := s.called ++ [frames] }

/-- The threads of the `io_context` may run any task next. -/
def TcpSends.act (s : TcpSends) : TcpSendStep → TcpSends
  | .doSend data => s.post [data]
  | .doSendGather iov => s.post iov
  | .runTask i =>
    match s.posted[i]? with
    | none => s
    | some frames => { s with posted := s.posted.eraseIdx i, conn := s.conn.enqueue frames }
  | .startWrite => { s with conn := s.conn.startWrite }
  | .transmit i n => { s with conn := s.conn.transmit i n }
  | .complete i => { s with conn := s.conn.complete i }

/-- The bytes of all calls, in call order. -/
def TcpSends.calledBytes (s : TcpSends) : Bytes := s.called.flatten.flatten

/-- The socket has the bytes of the calls in call order, and all of them once nothing is
waiting. -/
structure TcpSends.InCallOrder (s : TcpSends) : Prop where
  soFar : s.conn.socket <+: s.calledBytes
  atRest : s.posted = [] → s.conn.writing = false → s.conn.socket = s.calledBytes

/-- A task is run when none that was posted before it is waiting. -/
def TcpSends.Fifo (_ : TcpSends) : TcpSendStep → Prop
  | .runTask i => i = 0
  | _ => True

instance (s : TcpSends) : (a : TcpSendStep) → Decidable (s.Fifo a)
  | .runTask i => inferInstanceAs (Decidable (i = 0))
  | .doSend _ | .doSendGather _ | .startWrite | .transmit .. | .complete _ =>
    inferInstanceAs (Decidable True)

/-- What has been enqueued and what is posted are the calls, in call order. -/
structure TcpSends.Lined (s : TcpSends) : Prop where
  paced : s.conn.Paced
  calls : s.conn.enqueued ++ s.posted.flatten = s.called.flatten

section
variable {s : TcpSends}

theorem TcpSends.Lined.post (h : s.Lined) (frames : List Bytes) : (s.post frames).Lined := by
  refine ⟨h.paced,?_⟩
  simp [TcpSends.post,← h.calls]

/-- The oldest task runs. -/
theorem TcpSends.Lined.runFirst (h : s.Lined) : (s.act (.runTask 0)).Lined := by
  cases hp : s.posted with
  | nil => simpa [act,hp] using h
  | cons frames rest =>
    have hcalls := h.calls
    rw [hp] at hcalls
    simp only [act,hp,List.getElem?_cons_zero,List.eraseIdx_cons_zero]
    refine ⟨h.paced.enqueue frames,?_⟩
    simpa [TcpConnection.enqueue] using hcalls

/-- A step of the writer enqueues nothing. -/
theorem TcpSends.Lined.write (h : s.Lined) {c : TcpConnection} (hc : c.Paced)
    (he : c.enqueued = s.conn.enqueued) : ({ s with conn := c } : TcpSends).Lined :=
  ⟨hc,by rw [he]; exact h.calls⟩

theorem TcpSends.Lined.act (h : s.Lined) {a : TcpSendStep} (ha : s.Fifo a) : (s.act a).Lined := by
  cases a with
  | doSend data => exact h.post [data]
  | doSendGather iov => exact h.post iov
  | runTask i =>
    cases ha
    exact h.runFirst
  | startWrite => exact h.write h.paced.startWrite s.conn.startWrite_enqueued
  | transmit i n => exact h.write (h.paced.transmit i n) (s.conn.transmit_enqueued i n)
  | complete i => exact h.write (h.paced.complete i) (s.conn.complete_enqueued i)

theorem TcpSends.Lined.inCallOrder (h : s.Lined) : s.InCallOrder := by
  have hbytes : s.conn.socket ++ ((s.conn.outstanding.flatMap AsyncWrite.rest ++
      s.conn.writeQueue.flatten) ++ s.posted.flatten.flatten) = s.calledBytes := by
    rw [calledBytes,← h.calls,List.flatten_append,← h.paced.bytes]
    simp only [List.append_assoc]
  refine ⟨⟨_,hbytes⟩,fun hp hw => ?_⟩
  cases h.paced.phase with
  | idle _ hs ho hq => simpa [ho,hq,hp] using hbytes
  | starting hw' hs ho => simp [hw] at hw'
  | writing w hw' hs ho => simp [hw] at hw'

end

/-- As long as the tasks run in the order they were posted in. -/
theorem sent_in_call_order (steps : List TcpSendStep)
    (h : Along TcpSends.act TcpSends.Fifo {} steps) :
    (Interleaving.run TcpSends.act {} steps).InCallOrder :=
  (h.invariant (I := TcpSends.Lined) (fun _ _ hs ha => hs.act ha)
    ⟨TcpConnection.paced_new,rfl⟩).inCallOrder

theorem sent_in_call_order_two :
    (Interleaving.run TcpSends.act {} [.doSend [1],.doSendGather [[2],[3]],.runTask 0,.startWrite,
      .runTask 0,.transmit 0 1,.complete 0,.startWrite,.transmit 0 2]).InCallOrder :=
  sent_in_call_order _ (by decide)

/-- Two sends, the second of which is run first. -/
theorem later_send_written_first : ¬ (Interleaving.run TcpSends.act {} [.doSend [1],.doSend [2],
    .runTask 1,.startWrite,.transmit 0 1,.complete 0,.runTask 0,.startWrite,.transmit 0 1,
    .complete 0]).InCallOrder := by
  intro h
  exact absurd (h.atRest rfl rfl) (by decide)

end GoodNet
