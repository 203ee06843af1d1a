import GoodNet.SendVerdict
import GoodNet.Lib.Interleaving
set_option autoImplicit false

/-! `shutdown` against the connector threads. `handle_data` looks at `shutting_down_` once, at
its start, and raises `in_flight_dispatches_` later, once for each frame; `shutdown` sets the
flag, waits until it reads the counter as 0 and closes the connections one by one. A connector
that only posts the closing, as `do_close` of the TCP connector does, reports the disconnect from a
thread of its own; `handle_disconnect` looks neither at the flag nor at the counter. -/

namespace GoodNet
open Codec Interleaving

/-- Where a thread inside `handle_data` is: between two frames, in `dispatch_packet` with the
counter raised, in a handler, or back from it. -/
inductive DataPhase where
  | reading
  | counted (hdr : Header) (payload : Bytes)
  | calling
  | called
  deriving DecidableEq, Repr

structure DataThread where
  thread : Nat
  peer : Nat
  phase : DataPhase := .reading
  deriving DecidableEq, Repr

/-- Whether the thread's guard holds the counter up. -/
def DataThread.guarded (t : DataThread) : Bool := t.phase != .reading

/-- `closing` has the connections that are left of the map that `shutdown` has read. -/
inductive ShutdownPhase where
  | running | waiting | drained
  | closing (ids : List Nat)
  | returned
  deriving DecidableEq, Repr

/-- `shutdown` has left its loop. -/
def ShutdownPhase.isPast : ShutdownPhase → Bool
  | .drained | .closing _ | .returned => true
  | .running | .waiting => false

/-- `telling` are the threads inside `handle_disconnect` that call `handle_conn_state` of the
handlers. -/
structure Stopping where
  st : Impl
  inFlightDispatches : Nat := 0
  threads : List DataThread := []
  telling : List Nat := []
  phase : ShutdownPhase := .running

inductive StopStep where
  | enter (thread id : Nat)
  | begin (thread : Nat) (hdr : Header) (payload : Bytes)
  | call (thread : Nat)
  | handlerReturns (thread : Nat)
  | finish (thread : Nat)
  | leave (thread : Nat)
  | report (thread id : Nat)
  | told (thread : Nat)
  | setFlag
  | readCounter
  | readMap
  | closeNext
  deriving DecidableEq, Repr

/-- `handle_disconnect` gets as far as the handlers: the id has a record of its own. -/
def Impl.tells (st : Impl) (id : Nat) : Bool :=
  (st.transportIndex.lookup id).isNone && (st.find id).isSome

/-- The thread is inside the manager. -/
def Stopping.isInside (s : Stopping) (thread : Nat) : Bool :=
  s.threads.any (fun t => t.thread == thread) || s.telling.contains thread

/-- The frames that a call of `handle_data` cuts out of its bytes may be any, and any number.
A step that its thread cannot take leaves everything as it is. -/
def Stopping.act (env : Env) (s : Stopping) : StopStep → Stopping
  | .enter thread id =>
    if s.st.shuttingDown || s.isInside thread then s
    else { s with threads := ⟨thread,s.st.resolveTransport id,.reading⟩ :: s.threads }
  | .begin thread hdr payload =>
    match pick (fun t => t.thread == thread && t.phase == .reading) s.threads with
    | none => s
    | some (t,rest) =>
      { s with
        inFlightDispatches := s.inFlightDispatches+1,
        threads := { t with phase := .counted hdr payload } :: rest }
  | .call thread =>
    match pick (fun t => t.thread == thread) s.threads with
    | some (⟨_,peer,.counted hdr payload⟩,rest) =>
      { s with
        st := s.st.dispatchPacket env peer hdr payload,
        threads := ⟨thread,peer,.calling⟩ :: rest }
    | _ => s
  | .handlerReturns thread =>
    match pick (fun t => t.thread == thread && t.phase == .calling) s.threads with
    | none => s
    | some (t,rest) => { s with threads := { t with phase := .called } :: rest }
  | .finish thread =>
    match pick (fun t => t.thread == thread && t.phase == .called) s.threads with
    | none => s
    | some (t,rest) =>
      { s with
        inFlightDispatches := s.inFlightDispatches-1,
        threads := { t with phase := .reading } :: rest }
  | .leave thread =>
    match pick (fun t => t.thread == thread && t.phase == .reading) s.threads with
    | none => s
    | some (_,rest) => { s with threads := rest }
  | .report thread id =>
    if s.isInside thread then s
    else
      { s with
        st := s.st.handleDisconnect id,
        telling := if s.st.tells id then thread :: s.telling else s.telling }
  | .told thread => { s with telling := s.telling.erase thread }
  | .setFlag =>
    if s.phase = .running then
      { s with st := { s.st with shuttingDown := true }, phase := .waiting }
    else s
  | .readCounter =>
    if s.phase = .waiting ∧ s.inFlightDispatches = 0 then { s with phase := .drained } else s
  | .readMap => if s.phase = .drained then { s with phase := .closing s.st.ids } else s
  | .closeNext =>
    match s.phase with
    | .closing (id :: ids) => { s with st := s.st.closeNow env id, phase := .closing ids }
    | .closing [] => { s with phase := .returned }
    | _ => s

def Stopping.run (env : Env) (s : Stopping) (steps : List StopStep) : Stopping :=
  Interleaving.run (Stopping.act env) s steps

/-- Once `shutdown` has returned no handler is at work. -/
def Stopping.Safe (s : Stopping) : Prop :=
  s.phase = .returned → (∀ t ∈ s.threads, t.phase ≠ .calling) ∧ s.telling = []

/-- No frame is dispatched any more once `shutdown` has read the counter as 0; no handler is being
told of a disconnect when it returns, and there is none to be told of afterwards. -/
def Stopping.Barred (s : Stopping) : StopStep → Prop
  | .begin .. => s.phase.isPast = false
  | .report _ id => s.phase = .returned → s.st.tells id = false
  | .closeNext => s.phase = .closing [] → s.telling = []
  | _ => True

instance (s : Stopping) : (a : StopStep) → Decidable (s.Barred a)
  | .begin .. => inferInstanceAs (Decidable (s.phase.isPast = false))
  | .report _ id => inferInstanceAs (Decidable (s.phase = .returned → s.st.tells id = false))
  | .closeNext => inferInstanceAs (Decidable (s.phase = .closing [] → s.telling = []))
  | .enter .. | .call _ | .handlerReturns _ | .finish _ | .leave _ | .told _ | .setFlag
  | .readCounter | .readMap => inferInstanceAs (Decidable True)

/-- The counter is the number of guards, and there is none past the barrier; nobody is told of a
disconnect after the end. -/
structure Stopping.Counted (s : Stopping) : Prop where
  counter : s.inFlightDispatches = s.threads.countP DataThread.guarded
  empty : s.phase.isPast = true → s.inFlightDispatches = 0
  silent : s.phase = .returned → s.telling = []

section
variable {env : Env} {s s' : Stopping}

/-- One thread moves from one phase to the next, and the counter with its guard. -/
theorem Stopping.Counted.move (h : s.Counted) {l₁ l₂ : List DataThread} {t t' : DataThread}
    (hl : s.threads = l₁ ++ t :: l₂) (hl' : s'.threads = t' :: (l₁ ++ l₂))
    (hc : s'.inFlightDispatches+t.guarded.toNat = s.inFlightDispatches+t'.guarded.toNat)
    (hp : s'.phase = s.phase) (ht : s'.telling = s.telling)
    (hbar : t'.guarded = true → t.guarded = true ∨ s.phase.isPast = false) : s'.Counted := by
  have hif : ∀ b : Bool, (if b = true then 1 else 0) = b.toNat := by decide
  have hcounter := h.counter
  rw [hl,List.countP_append,List.countP_cons,hif] at hcounter
  refine ⟨?_,fun hpast => ?_,by rw [hp,ht]; exact h.silent⟩
  · rw [hl',List.countP_cons,List.countP_append,hif]
    omega
  · rw [hp] at hpast
    have hzero := h.empty hpast
    have hg : t.guarded = false := by
      cases hg : t.guarded with
      | false => rfl
      | true =>
        rw [hg,Bool.toNat_true] at hcounter
        omega
    have hg' : t'.guarded = false := by
      cases hg' : t'.guarded with
      | false => rfl
      | true =>
        rcases hbar hg' with hfalse | hfalse
        · rw [hg] at hfalse
          cases hfalse
        · rw [hpast] at hfalse
          cases hfalse
    rw [hg,hg'] at hc
    omega

theorem Stopping.Counted.act (h : s.Counted) (a : StopStep) (ha : s.Barred a) :
    (s.act env a).Counted := by
  cases a with
  | enter thread id =>
    simp only [Stopping.act]
    split
    · exact h
    · refine ⟨?_,h.empty,h.silent⟩
      rw [List.countP_cons]
      exact h.counter
  | begin thread hdr payload =>
    simp only [Stopping.act]
    split
    · exact h
    · rename_i t rest hpick
      obtain ⟨ht,l₁,l₂,hl,rfl⟩ := pick_some hpick
      have hg : t.guarded = false := by simp_all [DataThread.guarded]
      exact h.move hl rfl (by rw [hg]; rfl) rfl rfl (fun _ => Or.inr ha)
  | call thread =>
    simp only [Stopping.act]
    split
    · rename_i n peer hdr payload rest hpick
      obtain ⟨_,l₁,l₂,hl,rfl⟩ := pick_some hpick
      exact h.move hl rfl rfl rfl rfl (fun _ => Or.inl rfl)
    · exact h
  | handlerReturns thread =>
    simp only [Stopping.act]
    split
    · exact h
    · rename_i t rest hpick
      obtain ⟨ht,l₁,l₂,hl,rfl⟩ := pick_some hpick
      have hg : t.guarded = true := by simp_all [DataThread.guarded]
      exact h.move hl rfl (by rw [hg]; rfl) rfl rfl (fun _ => Or.inl hg)
  | finish thread =>
    simp only [Stopping.act]
    split
    · exact h
    · rename_i t rest hpick
      obtain ⟨ht,l₁,l₂,hl,rfl⟩ := pick_some hpick
      have hg : t.guarded = true := by simp_all [DataThread.guarded]
      have hpos : 0 < s.inFlightDispatches := by
        rw [h.counter,hl,List.countP_append,List.countP_cons,hg]
        simp
      refine h.move hl rfl ?_ rfl rfl (fun hfalse => by cases hfalse)
      rw [hg]
      exact Nat.sub_add_cancel hpos
  | leave thread =>
    simp only [Stopping.act]
    split
    · exact h
    · rename_i t rest hpick
      obtain ⟨ht,l₁,l₂,hl,rfl⟩ := pick_some hpick
      have hg : t.guarded = false := by simp_all [DataThread.guarded]
      refine ⟨?_,h.empty,h.silent⟩
      have hcounter := h.counter
      rw [hl,List.countP_append,List.countP_cons,hg] at hcounter
      rw [List.countP_append]
      simpa using hcounter
  | report thread id =>
    simp only [Stopping.act]
    split
    · exact h
    · refine ⟨h.counter,h.empty,fun hp => ?_⟩
      have htells : s.st.tells id = false := ha hp
      simp [htells,h.silent hp]
  | told thread => exact ⟨h.counter,h.empty,fun hp => by simp [Stopping.act,h.silent hp]⟩
  | setFlag =>
    simp only [Stopping.act]
    split
    · exact ⟨h.counter,fun hpast => (by cases hpast),fun hp => (by cases hp)⟩
    · exact h
  | readCounter =>
    simp only [Stopping.act]
    split
    · rename_i hz
      exact ⟨h.counter,fun _ => hz.2,fun hp => by cases hp⟩
    · exact h
  | readMap =>
    simp only [Stopping.act]
    split
    · rename_i hp
      exact ⟨h.counter,fun _ => h.empty (by rw [hp]; rfl),fun hp => by cases hp⟩
    · exact h
  | closeNext =>
    simp only [Stopping.act]
    split
    · rename_i id ids hp
      exact ⟨h.counter,fun _ => h.empty (by rw [hp]; rfl),fun hp => by cases hp⟩
    · rename_i hp
      exact ⟨h.counter,fun _ => h.empty (by rw [hp]; rfl),fun _ => ha hp⟩
    · exact h

/-- One frame with nothing in between is a dispatch of the manager. -/
theorem Stopping.dispatch_alone (s : Stopping) {thread peer : Nat} {rest : List DataThread}
    (ht : s.threads = ⟨thread,peer,.reading⟩ :: rest) (hdr : Header) (payload : Bytes) :
    Stopping.run env s [.begin thread hdr payload,.call thread,.handlerReturns thread,
      .finish thread] = { s with st := s.st.dispatchPacket env peer hdr payload } := by
  simp [run,Interleaving.run,Stopping.act,ht,pick]

/-- One report with nothing in between is a disconnect of the manager. -/
theorem Stopping.report_alone (s : Stopping) {thread : Nat} (h : s.isInside thread = false)
    (id : Nat) : Stopping.run env s [.report thread id,.told thread] =
      { s with st := s.st.handleDisconnect id } := by
  have hout : thread ∉ s.telling := by
    simp only [isInside,Bool.or_eq_false_iff] at h
    simpa using h.2
  cases ht : s.st.tells id with
  | true => simp [run,Interleaving.run,Stopping.act,h,ht]
  | false => simp [run,Interleaving.run,Stopping.act,h,ht,List.erase_of_not_mem hout]

/-- The handlers are called exactly when the record is there. -/
theorem Impl.handleDisconnect_tells (st : Impl) (id : Nat) :
    (∃ uri rest, (st.handleDisconnect id).log = .notify uri .closed :: rest) ↔
      st.tells id = true := by
  unfold Impl.handleDisconnect Impl.tells
  have hindex : (st.emit (.disconnecting id st.toRegistry)).transportIndex.lookup id =
      st.transportIndex.lookup id := rfl
  dsimp only
  rw [hindex]
  cases ht : st.transportIndex.lookup id with
  | none =>
    unfold Impl.dropPeer
    rw [Impl.find_emit]
    cases hr : st.find id with
    | none => simp
    | some r => simp
  | some peer =>
    simp only [Impl.dropTransport,Option.isNone_some,Bool.false_and,Bool.false_eq_true,iff_false]
    rintro ⟨uri,rest,hlog⟩
    split at hlog
    · simp [Impl.eraseTransport] at hlog
    · split at hlog
      · simp [Impl.eraseTransport] at hlog
      · split at hlog
        · simp [Impl.eraseTransport,Impl.eraseUri] at hlog
        · simp at hlog

theorem Stopping.close_run (s : Stopping) {ids : List Nat} (h : s.phase = .closing ids) :
    Stopping.run env s (List.replicate (ids.length+1) .closeNext) =
      { s with st := s.st.closeAll env ids, phase := .returned } := by
  induction ids generalizing s with
  | nil => simp [run,Interleaving.run,Stopping.act,h,Impl.closeAll]
  | cons id ids ih =>
    have hnext : s.act env .closeNext =
        { s with st := s.st.closeNow env id, phase := .closing ids } := by
      simp [Stopping.act,h]
    have hrest := ih (s.act env .closeNext) (by rw [hnext])
    rw [List.length_cons,List.replicate_succ]
    refine Eq.trans hrest ?_
    rw [hnext]
    rfl

/-- A shutdown with nobody else at work is that of the manager. -/
theorem Stopping.shutdown_alone (st : Impl) :
    Stopping.run env { st := st } ([.setFlag,.readCounter,.readMap] ++
      List.replicate (st.ids.length+1) .closeNext) =
        { st := st.shutdown env, phase := .returned } :=
  Stopping.close_run { st := { st with shuttingDown := true }, phase := .closing st.ids } rfl

end

end GoodNet
