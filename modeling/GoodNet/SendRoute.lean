import GoodNet.HonestNode
import GoodNet.SendVerdict
set_option autoImplicit false

/-! Which connector the frames of a connection are handed to, and in which calls: while it takes
what it is given, every frame goes out as it is pushed, alone and over the same path. -/

namespace GoodNet
open Codec

/-- The frames of a call to `send_to` or `send_gather` about one transport. -/
def Effect.framesVia (scheme : String) (via : Nat) : Effect → Option (List Bytes)
  | .sendTo _ v s frame _ => if v = via ∧ s = scheme then some [frame] else none
  | .sendGather _ v s frames _ => if v = via ∧ s = scheme then some frames else none
  | _ => none

/-- The calls so far, oldest first. -/
def Impl.callsVia (scheme : String) (via : Nat) (st : Impl) : List (List Bytes) :=
  (st.log.filterMap (Effect.framesVia scheme via)).reverse

/-- Scheme and transport that `flush_queue` turns to first: the best active path with a connector,
or the connection itself when no path is active. -/
def Impl.outlet (st : Impl) (id : Nat) (r : ConnectionRecord) : Option (String × Nat) :=
  if r.activePaths.isEmpty then
    (st.findConnector r.fallbackScheme).map (fun _ => (r.fallbackScheme,id))
  else
    (r.activePaths.find? (fun p => (st.findConnector p.scheme).isSome)).map
      (fun p => (p.scheme,p.transportConnId))

/-- Nothing waits in the queue of the connection, and its frames have a way out. -/
structure Impl.Clear (id : Nat) (scheme : String) (via : Nat) (st : Impl) : Prop where
  running : st.shuttingDown = false
  queue : ∀ q, st.sendQueues.lookup id = some q → q.frames = [] ∧ q.pendingBytes = 0
  outlet : ∀ r, st.find id = some r → st.outlet id r = some (scheme,via)

/-- One frame has been handed over and counted. -/
def Impl.sentOne (st : Impl) (owner : ConnectionRecord) (via : Nat) (scheme : String)
    (frame : Bytes) : Impl :=
  ((st.ask.emit (.sendTo owner via scheme frame true)).emit (.stat .txBytes frame.length via)).emit
    (.stat .txPacket 1 via)

section
variable {env : Env} {st : Impl} {id via : Nat} {scheme : String} {r : ConnectionRecord}
  {frame : Bytes}

theorem Impl.callsVia_sentOne (st : Impl) (owner : ConnectionRecord) (via : Nat) (scheme : String)
    (frame : Bytes) :
    (st.sentOne owner via scheme frame).callsVia scheme via =
      st.callsVia scheme via ++ [[frame]] := by
  simp [sentOne,callsVia,List.filterMap_cons,Effect.framesVia,Impl.emit,Impl.ask]

theorem Impl.flushFrame_one (hs : ∀ n, env.sends n = true) (st : Impl) (owner : ConnectionRecord)
    (via : Nat) (scheme : String) (ops : ConnectorOps) (frame : Bytes) :
    st.flushFramesToConnector env owner via scheme ops [frame] =
      (st.sentOne owner via scheme frame,true) := by
  simp [flushFramesToConnector,sendEach,sentOne,hs]

/-- The first path with a connector takes the frame. -/
theorem Impl.tryPaths_one (hs : ∀ n, env.sends n = true) (st : Impl) (id : Nat)
    (owner : ConnectionRecord) (frame : Bytes) (paths : List TransportPath) :
    st.tryPaths env id owner [frame] paths =
      match paths.find? (fun p => (st.findConnector p.scheme).isSome) with
      | none => (st,false)
      | some p =>
        ((st.sentOne owner p.transportConnId p.scheme frame).modifyPath id p.transportConnId
          TransportPath.succeed,true) := by
  induction paths with
  | nil => rfl
  | cons p ps ih =>
    cases hops : st.findConnector p.scheme with
    | none => simp [tryPaths,hops,ih]
    | some ops => simp [tryPaths,hops,flushFrame_one hs]

theorem TransportPath.succeed_same (via : Nat) (p : TransportPath) :
    (if p.transportConnId = via then p.succeed else p).priority = p.priority ∧
      (if p.transportConnId = via then p.succeed else p).active = p.active ∧
      (if p.transportConnId = via then p.succeed else p).scheme = p.scheme ∧
      (if p.transportConnId = via then p.succeed else p).transportConnId = p.transportConnId := by
  split
  · exact ⟨rfl,rfl,rfl,rfl⟩
  · exact ⟨rfl,rfl,rfl,rfl⟩

theorem ConnectionRecord.activePaths_flushed (via : Nat) (r : ConnectionRecord) :
    (r.flushed via).activePaths = modifyPath r.activePaths via TransportPath.succeed := by
  have hfilter : (modifyPath r.transportPaths via TransportPath.succeed).filter
      (fun p => p.active) =
      modifyPath (r.transportPaths.filter (fun p => p.active)) via TransportPath.succeed := by
    unfold modifyPath
    rw [List.filter_map]
    simp only [Function.comp_def,TransportPath.succeed_same]
  unfold activePaths flushed
  rw [hfilter]
  exact (List.map_insertionSort (fun a b : TransportPath => a.priority ≤ b.priority)
    (fun a b : TransportPath => a.priority ≤ b.priority) _ _ (fun a _ b _ => by
      simp only [TransportPath.succeed_same])).symm

/-- A path that has taken a frame stays where it is in the order. -/
theorem Impl.outlet_flushed (st : Impl) (id via : Nat) (r : ConnectionRecord) :
    st.outlet id (r.flushed via) = st.outlet id r := by
  unfold outlet
  rw [r.activePaths_flushed via]
  unfold GoodNet.modifyPath
  rw [List.find?_map,Option.map_map]
  simp only [List.isEmpty_map,Function.comp_def,TransportPath.succeed_same]
  rfl

/-- A queue with one frame is emptied into one call. -/
theorem Impl.flushQueue_route (hs : ∀ n, env.sends n = true) (hrun : st.shuttingDown = false)
    (hr : st.find id = some r) (q : PerConnQueue) (ho : st.outlet id r = some (scheme,via))
    (frame : Bytes) :
    ((st.setQueue id (q.holding [frame])).flushQueue env id =
      (st.setQueue id (q.holding [])).sentOne r via scheme frame) ∨
    ((st.setQueue id (q.holding [frame])).flushQueue env id =
      ((st.setQueue id (q.holding [])).sentOne r via scheme frame).modifyPath id via
        TransportPath.succeed) := by
  have hfind : (st.setQueue id (q.holding [frame])).find id = some r := hr
  have hlook : (st.setQueue id (q.holding [frame])).sendQueues.lookup id =
      some (q.holding [frame]) := AList.lookup_insert _
  have hset : (st.setQueue id (q.holding [frame])).setQueue id (q.holding []) =
      st.setQueue id (q.holding []) := by simp [setQueue,AList.insert_insert]
  have hrun' : (st.setQueue id (q.holding [frame])).shuttingDown = false := hrun
  have hconn : ∀ s, (st.setQueue id (q.holding [])).findConnector s = st.findConnector s :=
    fun _ => rfl
  unfold outlet at ho
  unfold flushQueue
  simp only [hrun',Bool.false_eq_true,ite_false,hfind,hlook,PerConnQueue.drain_one,
    List.isEmpty_cons,hset,tryPaths_one hs,hconn]
  cases hp : r.activePaths with
  | nil =>
    left
    rw [hp] at ho
    simp only [List.isEmpty_nil,ite_true,Option.map_eq_some_iff,Prod.mk.injEq] at ho
    obtain ⟨ops,hops,rfl,rfl⟩ := ho
    simp [hops,hconn,flushFrame_one hs]
  | cons p ps =>
    right
    rw [hp] at ho
    simp only [List.isEmpty_cons,Bool.false_eq_true,ite_false,Option.map_eq_some_iff,
      Prod.mk.injEq] at ho
    obtain ⟨p',hfirst,rfl,rfl⟩ := ho
    simp [hfirst]

/-- The queue that a frame has gone through is clear again. -/
theorem Impl.Clear.sentOne (hrun : st.shuttingDown = false) (hr : st.find id = some r)
    (ho : st.outlet id r = some (scheme,via)) (q : PerConnQueue) (owner : ConnectionRecord)
    (frame : Bytes) :
    ((st.setQueue id (q.holding [])).sentOne owner via scheme frame).Clear id scheme via ∧
      (((st.setQueue id (q.holding [])).sentOne owner via scheme frame).modifyPath id via
        TransportPath.succeed).Clear id scheme via := by
  have hqueue : ∀ q', (st.setQueue id (q.holding [])).sendQueues.lookup id = some q' →
      q'.frames = [] ∧ q'.pendingBytes = 0 := by
    intro q' hq'
    simp only [setQueue,AList.lookup_insert,Option.some.injEq] at hq'
    subst hq'
    exact ⟨rfl,rfl⟩
  have hfind : ((st.setQueue id (q.holding [])).sentOne owner via scheme frame).find id = some r :=
    hr
  refine ⟨⟨hrun,hqueue,fun r' hr' => ?_⟩,⟨hrun,hqueue,fun r' hr' => ?_⟩⟩
  · cases hfind.symm.trans hr'
    exact ho
  · rw [modifyPath,find_modify_self,hfind,Option.map_some,Option.some.injEq] at hr'
    subst hr'
    exact (st.outlet_flushed id via r).trans ho

/-- One frame, pushed to an empty queue, goes out at once and alone. -/
theorem Impl.Clear.pushAndFlush (hs : ∀ n, env.sends n = true) (h : st.Clear id scheme via)
    (hr : st.find id = some r) (hl : frame.length ≤ perConnMaxBytes) :
    (st.pushAndFlush env id frame).Clear id scheme via ∧
      (st.pushAndFlush env id frame).callsVia scheme via = st.callsVia scheme via ++ [[frame]] := by
  obtain ⟨q,hq⟩ : ∃ q : PerConnQueue, st.pushAndFlush env id frame =
      (st.setQueue id (q.holding [frame])).flushQueue env id := by
    unfold Impl.pushAndFlush getOrCreateQueue
    cases hq : st.sendQueues.lookup id with
    | none =>
      refine ⟨{},?_⟩
      simp [PerConnQueue.push_one (q := {}) rfl rfl hl,setQueue,AList.insert_insert]
    | some q =>
      obtain ⟨hempty,hzero⟩ := h.queue q hq
      exact ⟨q,by simp [PerConnQueue.push_one hempty hzero hl]⟩
  have ho := h.outlet r hr
  obtain ⟨hone,hpath⟩ := Clear.sentOne h.running hr ho q r frame
  have hcalls := (st.setQueue id (q.holding [])).callsVia_sentOne r via scheme frame
  rw [hq]
  rcases flushQueue_route hs h.running hr q ho frame with heq | heq
  · rw [heq]
    exact ⟨hone,hcalls⟩
  · rw [heq]
    exact ⟨hpath,hcalls⟩

theorem Impl.Clear.sendFrame (hs : ∀ n, env.sends n = true) (h : st.Clear id scheme via)
    (hr : st.find id = some r) (msgType : UInt32) (payload : Bytes)
    (hl : (r.frame env.sodium env.zstd st.compression msgType payload).length ≤ perConnMaxBytes) :
    (st.sendFrame env id msgType payload).Clear id scheme via ∧
      (st.sendFrame env id msgType payload).callsVia scheme via =
        st.callsVia scheme via ++
          [[r.frame env.sodium env.zstd st.compression msgType payload]] := by
  have hnext : (st.modify id ConnectionRecord.takePacketId).find id = some r.takePacketId := by
    rw [find_modify_self,hr,Option.map_some]
  have hbuilt : (st.modify id ConnectionRecord.takePacketId).Clear id scheme via := by
    refine ⟨h.running,h.queue,fun r' hr' => ?_⟩
    cases hnext.symm.trans hr'
    exact h.outlet r hr
  have hsend : st.sendFrame env id msgType payload =
      (st.modify id ConnectionRecord.takePacketId).pushAndFlush env id
        (r.frame env.sodium env.zstd st.compression msgType payload) := by
    unfold Impl.sendFrame buildFrame
    simp only [h.running,Bool.false_eq_true,ite_false,hr]
    rw [if_neg]
    simpa using r.frame_ne_nil env.sodium env.zstd st.compression
  rw [hsend]
  exact hbuilt.pushAndFlush hs hnext hl

end

end GoodNet
