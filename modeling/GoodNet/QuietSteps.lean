import GoodNet.ManagerTransport
import Mathlib.Tactic.Common
set_option autoImplicit false

/-! What the send paths leave alone. Framing, queueing and handing frames to connectors
changes counters, path health and the trace, and nothing that decides who a connection
belongs to, how it is keyed or where it is indexed. -/

namespace GoodNet
open Codec

def TransportPath.core (p : TransportPath) : TransportPath :=
  { p with active := true, lastRttUs := 0, consecutiveErrors := 0 }

/-- A record with its counters and the health of its paths blanked out. -/
def ConnectionRecord.core (r : ConnectionRecord) : ConnectionRecord :=
  { r with
    peerTransportInfo := [], affinityPlugin := "", sendPacketId := 0, lastHeartbeatRecv := 0,
    heartbeatSeq := 0, missedHeartbeats := 0,
    transportPaths := r.transportPaths.map TransportPath.core }

/-- Records with one core agree on every field that survives the blanking. -/
theorem ConnectionRecord.core_field {α : Type} (f : ConnectionRecord → α)
    (hf : ∀ r : ConnectionRecord, f r.core = f r) {a b : ConnectionRecord}
    (h : a.core = b.core) : f a = f b := by
  rw [← hf a,h,hf b]

/-- A frame handed to a connector. -/
def Effect.isWire : Effect → Bool
  | .sendTo .. => true
  | .sendGather .. => true
  | _ => false

/-- Reports and connector calls that carry no protocol content. No connection is reported
closed on the bus. -/
def Effect.isReport : Effect → Bool
  | .connect .. => true
  | .close .. => true
  | .closeNow .. => true
  | .stat .. => true
  | .drop .. => true
  | .connState _ state => state != .closing && state != .closed
  | .notify .. => true
  | .transportChange .. => true
  | _ => false

/-- A report, or frames that all satisfy `P` handed to a connector for `owner`. -/
def Effect.carries (owner : ConnectionRecord) (P : Bytes → Prop) : Effect → Prop
  | .sendTo o _ _ f _ => o = owner ∧ P f
  | .sendGather o _ _ fs _ => o = owner ∧ ∀ f ∈ fs, P f
  | e => e.isReport = true

theorem Effect.carries_report {owner : ConnectionRecord} {P : Bytes → Prop} {e : Effect}
    (h : e.isReport = true) : e.carries owner P := by
  cases e <;> first | exact h | cases h

def Effect.Outward (e : Effect) : Prop := e.isReport = true ∨ e.isWire = true

theorem Effect.carries_outward {owner : ConnectionRecord} {P : Bytes → Prop} {e : Effect}
    (h : e.carries owner P) : e.Outward := by
  cases e <;> first | exact Or.inl h | exact Or.inr rfl

/-- No frame waits in a queue: every accepted frame is handed on in the same call. -/
def Impl.NoBacklog (st : Impl) : Prop :=
  ∀ id q, st.sendQueues.lookup id = some q → q.frames = []

structure Quiet (allowed : Effect → Prop) (st st' : Impl) : Prop where
  nextId : st'.nextId = st.nextId
  find : ∀ id, (st'.find id).map ConnectionRecord.core = (st.find id).map ConnectionRecord.core
  uri : st'.uriIndex = st.uriIndex
  pk : st'.pkIndex = st.pkIndex
  transport : st'.transportIndex = st.transportIndex
  backlog : st.NoBacklog → st'.NoBacklog
  log : ∃ new, st'.log = new ++ st.log ∧ ∀ e ∈ new, allowed e

section
variable {allowed : Effect → Prop} {st st' st'' : Impl}

theorem Quiet.refl (st : Impl) : Quiet allowed st st :=
  ⟨rfl,fun _ => rfl,rfl,rfl,rfl,id,[],rfl,by simp⟩

theorem Quiet.trans (h : Quiet allowed st st') (h' : Quiet allowed st' st'') :
    Quiet allowed st st'' := by
  obtain ⟨new,hl,ha⟩ := h.log
  obtain ⟨new',hl',ha'⟩ := h'.log
  refine ⟨h'.nextId.trans h.nextId,fun id => (h'.find id).trans (h.find id),h'.uri.trans h.uri,
    h'.pk.trans h.pk,h'.transport.trans h.transport,fun hb => h'.backlog (h.backlog hb),
    new' ++ new,?_,?_⟩
  · rw [hl',hl,List.append_assoc]
  · intro e he
    rcases List.mem_append.mp he with he | he
    · exact ha' e he
    · exact ha e he

theorem Quiet.mono {looser : Effect → Prop} (h : Quiet allowed st st')
    (hm : ∀ e, allowed e → looser e) : Quiet looser st st' := by
  obtain ⟨new,hl,ha⟩ := h.log
  exact { h with log := ⟨new,hl,fun e he => hm e (ha e he)⟩ }

theorem Quiet.emit (st : Impl) {e : Effect} (he : allowed e) :
    Quiet allowed st (st.emit e) :=
  ⟨rfl,fun _ => rfl,rfl,rfl,rfl,id,[e],rfl,by simpa using he⟩

theorem Quiet.report (st : Impl) {e : Effect} {owner : ConnectionRecord} {P : Bytes → Prop}
    (he : e.isReport = true) : Quiet (Effect.carries owner P) st (st.emit e) :=
  Quiet.emit st (Effect.carries_report he)

theorem Quiet.ask (st : Impl) : Quiet allowed st st.ask :=
  ⟨rfl,fun _ => rfl,rfl,rfl,rfl,id,[],rfl,by simp⟩

theorem Quiet.modify (st : Impl) (id : Nat) {f : ConnectionRecord → ConnectionRecord}
    (hf : ∀ r, (f r).core = r.core) : Quiet allowed st (st.modify id f) := by
  refine ⟨rfl,fun j => ?_,rfl,rfl,rfl,fun hb => hb,[],rfl,by simp⟩
  rw [Impl.find_modify]
  split
  · rename_i hj
    subst hj
    cases st.find j with
    | none => rfl
    | some r => simp [hf]
  · rfl

/-- Steps that only touch the queues, the pending messages or the configuration. -/
theorem Quiet.of_registry (hr : st'.toRegistry = st.toRegistry) (hn : st'.nextId = st.nextId)
    (hb : st.NoBacklog → st'.NoBacklog) (hl : st'.log = st.log) : Quiet allowed st st' := by
  refine ⟨hn,fun id => ?_,?_,?_,?_,hb,[],by simpa using hl,by simp⟩
  · simp [Impl.find,hr]
  · rw [hr]
  · rw [hr]
  · rw [hr]

theorem Quiet.find_some (h : Quiet allowed st st') {id : Nat} {r : ConnectionRecord}
    (hr : st'.find id = some r) : ∃ r₀, st.find id = some r₀ ∧ r₀.core = r.core := by
  have hf := h.find id
  rw [hr] at hf
  cases h0 : st.find id with
  | none => simp [h0] at hf
  | some r₀ => exact ⟨r₀,rfl,by simpa [h0] using hf.symm⟩

end

theorem TransportPath.core_succeed (p : TransportPath) : p.succeed.core = p.core := rfl

theorem TransportPath.core_fail (p : TransportPath) : p.fail.core = p.core := rfl

/-- What the change of a path keeps, it keeps of all paths. -/
theorem map_modifyPath {β : Type} {g : TransportPath → β} {f : TransportPath → TransportPath}
    (hf : ∀ p, g (f p) = g p) (paths : List TransportPath) (via : Nat) :
    (modifyPath paths via f).map g = paths.map g := by
  unfold modifyPath
  rw [List.map_map]
  apply List.map_congr_left
  intro p _
  by_cases hp : p.transportConnId = via
  · simp [hp,hf]
  · simp [hp]

section
variable {env : Env}

theorem Impl.modifyPath_quiet {allowed : Effect → Prop} (st : Impl) (id via : Nat)
    {f : TransportPath → TransportPath} (hf : ∀ p, (f p).core = p.core) :
    Quiet allowed st (st.modifyPath id via f) := by
  apply Quiet.modify
  intro r
  simp [ConnectionRecord.core,map_modifyPath (g := TransportPath.core) hf]

theorem Impl.sendEach_quiet {P : Bytes → Prop} (st : Impl) (owner : ConnectionRecord) (via : Nat)
    (scheme : String) {frames : List Bytes} (hP : ∀ f ∈ frames, P f) :
    Quiet (Effect.carries owner P) st (st.sendEach env owner via scheme frames).1 := by
  induction frames generalizing st with
  | nil => exact Quiet.refl st
  | cons f fs ih =>
    unfold sendEach
    have hrest := fun st => ih st (fun g hg => hP g (List.mem_cons_of_mem f hg))
    have hsent : Quiet (Effect.carries owner P) st
        (st.ask.emit (.sendTo owner via scheme f (env.sends st.asked))) :=
      (Quiet.ask st).trans (Quiet.emit _ ⟨rfl,hP f List.mem_cons_self⟩)
    cases hok : env.sends st.asked with
    | true =>
      rw [hok] at hsent
      exact (hsent.trans ((Quiet.report _ rfl).trans (Quiet.report _ rfl))).trans (hrest _)
    | false =>
      rw [hok] at hsent
      exact hsent.trans (hrest _)

theorem Impl.flushFrames_quiet {P : Bytes → Prop} (env : Env) (st : Impl) (owner : ConnectionRecord)
    (via : Nat) (scheme : String) (ops : ConnectorOps) {frames : List Bytes}
    (hP : ∀ f ∈ frames, P f) :
    Quiet (Effect.carries owner P) st
      (st.flushFramesToConnector env owner via scheme ops frames).1 := by
  unfold flushFramesToConnector
  split
  · exact Quiet.refl st
  · split
    · have hsent : Quiet (Effect.carries owner P) st
          (st.ask.emit (.sendGather owner via scheme frames (env.sends st.asked))) :=
        (Quiet.ask st).trans (Quiet.emit _ ⟨rfl,hP⟩)
      cases hok : env.sends st.asked with
      | true =>
        rw [hok] at hsent
        exact hsent.trans ((Quiet.report _ rfl).trans (Quiet.report _ rfl))
      | false =>
        rw [hok] at hsent
        exact hsent
    · exact st.sendEach_quiet owner via scheme hP

theorem Impl.tryPaths_quiet {P : Bytes → Prop} (env : Env) (st : Impl) (id : Nat)
    (owner : ConnectionRecord)
    {batch : List Bytes} (hP : ∀ f ∈ batch, P f) (paths : List TransportPath) :
    Quiet (Effect.carries owner P) st (st.tryPaths env id owner batch paths).1 := by
  induction paths generalizing st with
  | nil => exact Quiet.refl st
  | cons p ps ih =>
    unfold tryPaths
    split
    · exact ih st
    · rename_i ops _
      have hsent := st.flushFrames_quiet env owner p.transportConnId p.scheme ops hP
      dsimp only
      split
      · exact hsent.trans (modifyPath_quiet _ _ _ TransportPath.core_succeed)
      · exact (hsent.trans (modifyPath_quiet _ _ _ TransportPath.core_fail)).trans (ih _)

theorem noBacklog_insert {st : Impl} (hb : st.NoBacklog) {id : Nat} {q : PerConnQueue}
    (hq : q.frames = []) :
    (st.setQueue id q).NoBacklog := by
  intro j p hp
  unfold Impl.setQueue at hp
  by_cases hj : j = id
  · subst hj
    simp only [AList.lookup_insert,Option.some.injEq] at hp
    subst hp
    exact hq
  · rw [AList.lookup_insert_ne hj] at hp
    exact hb j p hp

theorem noBacklog_erase {st : Impl} (hb : st.NoBacklog) (id : Nat) :
    ({ st with sendQueues := st.sendQueues.erase id } : Impl).NoBacklog := by
  intro j p hp
  by_cases hj : j = id
  · subst hj
    simp at hp
  · rw [AList.lookup_erase_ne hj] at hp
    exact hb j p hp

theorem Impl.getOrCreateQueue_quiet {allowed : Effect → Prop} (st : Impl) (id : Nat) :
    Quiet allowed st (st.getOrCreateQueue id).1 := by
  unfold getOrCreateQueue
  cases st.sendQueues.lookup id with
  | some q => exact Quiet.refl st
  | none => exact Quiet.of_registry rfl rfl (fun hb => noBacklog_insert hb rfl) rfl

theorem Impl.getOrCreateQueue_lookup (st : Impl) (id : Nat) :
    (st.getOrCreateQueue id).1.sendQueues.lookup id = some (st.getOrCreateQueue id).2 := by
  unfold getOrCreateQueue
  cases h : st.sendQueues.lookup id with
  | some q => exact h
  | none => simp [setQueue]

theorem Impl.getOrCreateQueue_same (st : Impl) (id j : Nat) :
    (st.getOrCreateQueue id).1.find j = st.find j ∧
      (st.getOrCreateQueue id).1.shuttingDown = st.shuttingDown := by
  unfold getOrCreateQueue
  cases st.sendQueues.lookup id with
  | some q => exact ⟨rfl,rfl⟩
  | none => exact ⟨rfl,rfl⟩

theorem PerConnQueue.tryPush_frames {q : PerConnQueue} {f : Bytes} (h : (q.tryPush f).2 = true) :
    (q.tryPush f).1.frames = q.frames ++ [f] := by
  unfold tryPush at h ⊢
  split
  · rename_i hbig
    simp [hbig] at h
  · rfl

theorem PerConnQueue.drainBatch_pushed {q : PerConnQueue} {f : Bytes}
    (h : (q.tryPush f).2 = true) :
    ((q.tryPush f).1.drainBatch 64).2 ≠ [] ∧
      (q.frames = [] → ((q.tryPush f).1.drainBatch 64).1.frames = [] ∧
        ((q.tryPush f).1.drainBatch 64).2 = [f]) := by
  have hf := tryPush_frames h
  unfold drainBatch
  rw [hf]
  refine ⟨?_,fun hq => by simp [hq]⟩
  cases q.frames with
  | nil => simp
  | cons g gs => simp

/-- Pushing a frame and taking the batch out again leaves an empty queue empty. -/
theorem Impl.pushDrain_quiet {allowed : Effect → Prop} {st : Impl} {id : Nat} {q : PerConnQueue}
    {f : Bytes} (hq : st.sendQueues.lookup id = some q) (h : (q.tryPush f).2 = true) :
    Quiet allowed st ((st.setQueue id (q.tryPush f).1).setQueue id
      ((q.tryPush f).1.drainBatch 64).1) := by
  refine Quiet.of_registry rfl rfl (fun hb => ?_) rfl
  have hempty := ((PerConnQueue.drainBatch_pushed h).2 (hb id q hq)).1
  intro j p hp
  by_cases hj : j = id
  · subst hj
    simp only [setQueue,AList.lookup_insert,Option.some.injEq] at hp
    subst hp
    exact hempty
  · simp only [setQueue,AList.lookup_insert_ne hj] at hp
    exact hb j p hp

theorem Impl.flushQueue_quiet {P : Bytes → Prop} {st : Impl} {id : Nat} {q : PerConnQueue}
    {r : ConnectionRecord} (hs : st.shuttingDown = false) (hr : st.find id = some r)
    (hq : st.sendQueues.lookup id = some q) (hne : (q.drainBatch 64).2 ≠ [])
    (hP : ∀ f ∈ (q.drainBatch 64).2, P f) :
    Quiet (Effect.carries r P) (st.setQueue id (q.drainBatch 64).1) (st.flushQueue env id) := by
  have htried := (st.setQueue id (q.drainBatch 64).1).tryPaths_quiet env id r hP
    r.activePaths
  have hbatch : (q.drainBatch 64).2.isEmpty = false := by
    cases h : (q.drainBatch 64).2 with
    | nil => exact absurd h hne
    | cons f fs => rfl
  unfold flushQueue
  simp only [hs,hr,hq,hbatch,Bool.false_eq_true,ite_false]
  split
  · exact htried
  · split
    · exact htried.trans (flushFrames_quiet _ _ _ _ _ _ hP)
    · exact htried.trans (Quiet.report _ rfl)

theorem Impl.pushAndFlush_quiet {st : Impl} {id : Nat} {r : ConnectionRecord}
    (hs : st.shuttingDown = false) (hr : st.find id = some r) (frame : Bytes) :
    Quiet (Effect.carries r (fun f => st.NoBacklog → f = frame)) st
      (st.pushAndFlush env id frame) := by
  unfold pushAndFlush
  have hqueue : Quiet (Effect.carries r (fun f => st.NoBacklog → f = frame)) st
      (st.getOrCreateQueue id).1 := st.getOrCreateQueue_quiet id
  have hlookup := st.getOrCreateQueue_lookup id
  obtain ⟨hfind,hdown⟩ := st.getOrCreateQueue_same id id
  dsimp only
  split
  · rename_i hpush
    obtain ⟨hne,hsingle⟩ := PerConnQueue.drainBatch_pushed hpush
    refine (hqueue.trans (pushDrain_quiet hlookup hpush)).trans ?_
    refine flushQueue_quiet (hdown.trans hs) (hfind.trans hr) (by simp [setQueue]) hne ?_
    intro f hf hb
    have hempty := hqueue.backlog hb id _ hlookup
    rw [(hsingle hempty).2] at hf
    exact List.mem_singleton.mp hf
  · exact hqueue.trans (Quiet.report _ rfl)

/-- The frame a call of `send_frame` builds and, when nothing was queued before, the only
one it hands on; the record has its packet counter raised by then. -/
theorem Impl.sendFrame_quiet (env : Env) (st : Impl) (id : Nat) (msgType : UInt32) (payload : Bytes) :
    Quiet (fun e => e.isReport = true ∨ ∃ r, st.find id = some r ∧
        e.carries r.takePacketId (fun f => st.NoBacklog →
          f = r.frame env.sodium env.zstd st.compression msgType payload))
      st (st.sendFrame env id msgType payload) := by
  unfold sendFrame
  cases hs : st.shuttingDown with
  | true => exact Quiet.refl st
  | false =>
    cases hr : st.find id with
    | none =>
      have hb : st.buildFrame env id msgType payload = (st,[]) := by simp [buildFrame,hr]
      rw [hb]
      exact Quiet.refl st
    | some r =>
      have hb : st.buildFrame env id msgType payload =
          (st.modify id ConnectionRecord.takePacketId,
            r.frame env.sodium env.zstd st.compression msgType payload) := by
        simp [buildFrame,hr]
      have hr' : (st.modify id ConnectionRecord.takePacketId).find id =
          some r.takePacketId := by
        rw [find_modify_self,hr,Option.map_some]
      have hraised : ∀ {allowed : Effect → Prop}, Quiet allowed st
          (st.modify id ConnectionRecord.takePacketId) :=
        Quiet.modify st id (fun r => rfl)
      rw [hb]
      simp only [Bool.false_eq_true,ite_false]
      split
      · exact hraised
      · have hs' : (st.modify id ConnectionRecord.takePacketId).shuttingDown = false := hs
        refine hraised.trans ((pushAndFlush_quiet hs' hr' _).mono (fun e he => ?_))
        exact Or.inr ⟨r,rfl,he⟩

theorem Impl.sendFrame_outward (env : Env) (st : Impl) (id : Nat) (msgType : UInt32)
    (payload : Bytes) :
    Quiet Effect.Outward st (st.sendFrame env id msgType payload) := by
  refine (st.sendFrame_quiet env id msgType payload).mono (fun e he => ?_)
  rcases he with he | ⟨r,_,he⟩
  · exact Or.inl he
  · exact Effect.carries_outward he

end

end GoodNet
