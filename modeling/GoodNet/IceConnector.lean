import GoodNet.IceFace
import GoodNet.IceSignal
import GoodNet.ManagerState
import Mathlib.Logic.Function.Basic
set_option autoImplicit false

/-! `plugins/connectors/ice/ice.cpp`: the sessions of a connector, one for each peer, and the
signals by which two connectors tell each other about theirs. What is left out are the connection
ids that the core gives to connected sessions. -/

namespace GoodNet.Ice
open Codec

/-- What is posted to the `io_context`: the call of `create_session` for a dialled peer, and the
handling of a signal. -/
inductive ConnectorTask where
  | connect (peer : String)
  | signal (peer : String) (kind : IceSignalKind) (data : Bytes)
  deriving DecidableEq, Repr

def ConnectorTask.peer : ConnectorTask → String
  | .connect peer => peer
  | .signal peer _ _ => peer

/-- What the constructor of a session draws. -/
structure SessionDraw where
  ufrag : Bytes := []
  pwd : Bytes := []
  tieBreaker : UInt64 := 0
  deriving DecidableEq, Repr

/-- `outbox` holds the packets that have been handed to the core, each with the peer it is for. -/
structure IceConnector where
  config : IceConfig
  sessions : String → Option IceSession
  tasks : List ConnectorTask
  outbox : List (String × Bytes)

def IceConnector.init (config : IceConfig) : IceConnector := ⟨config,fun _ => none,[],[]⟩

/-- The callbacks a session has made between two of its states, in their order. -/
def calledBack (before after : IceSession) : List IceEffect :=
  (after.callbacks.take (after.callbacks.length-before.callbacks.length)).reverse

def IceConnector.sendSignal (c : IceConnector) (peer : String) (kind : IceSignalKind)
    (data : Bytes) : IceConnector :=
  { c with outbox := c.outbox ++ [(peer,signalPacket kind data)] }

def IceSession.signalKind (s : IceSession) : IceSignalKind :=
  if s.controlling then .offer else .answer

def IceConnector.onSessionGathered (c : IceConnector) (peer : String) (s : IceSession) :
    IceConnector :=
  c.sendSignal peer s.signalKind s.serializeSignal

def IceConnector.onSessionFailed (c : IceConnector) (peer : String) : IceConnector :=
  { c with sessions := Function.update c.sessions peer none }

def IceConnector.callback (c : IceConnector) (peer : String) (s : IceSession) :
    IceEffect → IceConnector
  | .onGathered => c.onSessionGathered peer s
  | .onFailed => c.onSessionFailed peer
  | _ => c

/-- A function of the session for `peer` has run. Its callbacks touch nothing it uses, so they are
answered after it; one that has been erased from the table is not put back. -/
def IceConnector.update (c : IceConnector) (peer : String) (before after : IceSession) :
    IceConnector :=
  (calledBack before after).foldl (fun c e => c.callback peer after e)
    { c with sessions := Function.update c.sessions peer ((c.sessions peer).map fun _ => after) }

def IceConnector.createSession (w : IceWorld) (draw : SessionDraw) (c : IceConnector)
    (peer : String) (controlling : Bool) : Option (IceConnector × IceSession) :=
  match c.sessions peer with
  | some _ => none
  | none =>
    let s := IceSession.create controlling c.config draw.ufrag draw.pwd draw.tieBreaker
    let c := { c with sessions := Function.update c.sessions peer (some s) }
    some (c.update peer s (s.gather w),s.gather w)

def IceConnector.runTask (w : IceWorld) (draw : SessionDraw) (c : IceConnector) :
    ConnectorTask → IceConnector
  | .connect peer =>
    match c.createSession w draw peer true with
    | some (c,_) => c
    | none => c
  | .signal peer kind data =>
    match parseSignal data with
    | none => c
    | some (remote,candidates) =>
      if kind = .offer then
        match c.createSession w draw peer false with
        | none => c
        | some (c,s) => c.update peer s (s.setRemote w remote candidates)
      else
        match c.sessions peer with
        | none => c
        | some s => c.update peer s (s.setRemote w remote candidates)

def IceConnector.doConnect (c : IceConnector) (uri : String) : IceConnector :=
  let target := (splitUri uri).2
  if target.utf8ByteSize ≠ 64 then c else { c with tasks := c.tasks ++ [.connect target] }

def IceConnector.onIceSignal (c : IceConnector) (peer : String) (pl : Bytes) : IceConnector :=
  match readSignal pl with
  | none => c
  | some (kind,data) => { c with tasks := c.tasks ++ [.signal peer kind data] }

/-- Two connectors; `key i` is the key of connector `i` as a hexadecimal string. -/
abbrev SignalNet := Bool → IceConnector

/-- `run` takes the task at a place of the queue, `deliver` the packet at a place of the outbox:
the threads of the `io_context` take tasks in any order, and nothing is said about the order of
the signals. -/
inductive SignalEvent where
  | connect (i : Bool) (uri : String)
  | run (i : Bool) (k : Nat) (draw : SessionDraw) (w : IceWorld)
  | deliver (i : Bool) (k : Nat)
  | gather (i : Bool) (peer : String) (e : IceEvent) (w : IceWorld)

/-- The channel between the two reports the sender's key; packets for others leave the net. -/
def SignalNet.act (key : Bool → String) (n : SignalNet) : SignalEvent → SignalNet
  | .connect i uri => Function.update n i ((n i).doConnect uri)
  | .run i k draw w =>
    match (n i).tasks[k]? with
    | none => n
    | some task =>
      Function.update n i
        (({ n i with tasks := (n i).tasks.eraseIdx k } : IceConnector).runTask w draw task)
  | .deliver i k =>
    match (n i).outbox[k]? with
    | none => n
    | some (peer,pl) =>
      let n := Function.update n i { n i with outbox := (n i).outbox.eraseIdx k }
      if peer = key (!i) then Function.update n (!i) ((n (!i)).onIceSignal (key i) pl) else n
  | .gather i peer e w =>
    match (n i).sessions peer with
    | none => n
    | some s =>
      if s.state = .gathering ∧ s.asksServers e = true then
        Function.update n i ((n i).update peer s (s.act w e))
      else n

/-- What a piece of work for one peer has done: the entry of that peer, and the signals to it. -/
structure Turn (peer : String) (c c' : IceConnector) (entry : Option IceSession)
    (sent : List (IceSignalKind × Bytes)) : Prop where
  config : c'.config = c.config
  sessions : c'.sessions = Function.update c.sessions peer entry
  tasks : c'.tasks = c.tasks
  outbox : c'.outbox = c.outbox ++ sent.map (fun k => (peer,signalPacket k.1 k.2))

section
variable {w : IceWorld} {draw : SessionDraw} {peer : String} {c c' c'' : IceConnector}

theorem Turn.refl (c : IceConnector) (peer : String) : Turn peer c c (c.sessions peer) [] :=
  ⟨rfl,(Function.update_eq_self peer c.sessions).symm,rfl,(List.append_nil _).symm⟩

theorem Turn.trans {entry entry' : Option IceSession} {sent sent' : List (IceSignalKind × Bytes)}
    (h : Turn peer c c' entry sent) (h' : Turn peer c' c'' entry' sent') :
    Turn peer c c'' entry' (sent ++ sent') where
  config := h'.config.trans h.config
  sessions := by rw [h'.sessions,h.sessions,Function.update_idem]
  tasks := h'.tasks.trans h.tasks
  outbox := by rw [h'.outbox,h.outbox,List.map_append,List.append_assoc]

/-- The signals among some callbacks, and the entry they leave. -/
def signalsOf (s : IceSession) (called : List IceEffect) : List (IceSignalKind × Bytes) :=
  (called.filter (fun e => e == .onGathered)).map (fun _ => (s.signalKind,s.serializeSignal))

def entryAfter (entry : Option IceSession) (called : List IceEffect) : Option IceSession :=
  if .onFailed ∈ called then none else entry

theorem Turn.entry {entry : Option IceSession} {sent : List (IceSignalKind × Bytes)}
    (h : Turn peer c c' entry sent) : c'.sessions peer = entry := by
  rw [h.sessions,Function.update_self]

theorem callback_turn (peer : String) (s : IceSession) (e : IceEffect) (c : IceConnector) :
    Turn peer c (c.callback peer s e) (entryAfter (c.sessions peer) [e]) (signalsOf s [e]) := by
  cases e with
  | onGathered =>
    refine ⟨rfl,?_,rfl,rfl⟩
    exact (Function.update_eq_self peer c.sessions).symm
  | onFailed => exact ⟨rfl,rfl,rfl,(List.append_nil _).symm⟩
  | _ => exact Turn.refl c peer

theorem callbacks_turn (s : IceSession) (called : List IceEffect) (c : IceConnector) :
    Turn peer c (called.foldl (fun c e => c.callback peer s e) c)
      (entryAfter (c.sessions peer) called) (signalsOf s called) := by
  induction called generalizing c with
  | nil => exact Turn.refl c peer
  | cons e rest ih =>
    have hone := callback_turn peer s e c
    have hall := hone.trans (ih (c.callback peer s e))
    rw [hone.entry] at hall
    have hentry : entryAfter (entryAfter (c.sessions peer) [e]) rest =
        entryAfter (c.sessions peer) (e :: rest) := by
      simp only [entryAfter,List.mem_cons,List.not_mem_nil,or_false]
      split <;> split <;> simp_all
    have hsent : signalsOf s [e] ++ signalsOf s rest = signalsOf s (e :: rest) := by
      simp only [signalsOf,← List.map_append,← List.filter_append,List.singleton_append]
    rw [hentry,hsent] at hall
    exact hall

theorem update_turn (c : IceConnector) (peer : String) (before after : IceSession) :
    Turn peer c (c.update peer before after)
      (entryAfter ((c.sessions peer).map fun _ => after) (calledBack before after))
      (signalsOf after (calledBack before after)) := by
  have hput : Turn peer c { c with
      sessions := Function.update c.sessions peer ((c.sessions peer).map fun _ => after) }
      ((c.sessions peer).map fun _ => after) [] := ⟨rfl,rfl,rfl,(List.append_nil _).symm⟩
  have hall := hput.trans (callbacks_turn after (calledBack before after) _)
  rw [hput.entry,List.nil_append] at hall
  exact hall

/-- A session is created where there is none, and only there. -/
theorem createSession_none (h : c.sessions peer ≠ none) (controlling : Bool) :
    c.createSession w draw peer controlling = none := by
  obtain ⟨s,hs⟩ := Option.ne_none_iff_exists'.1 h
  simp [IceConnector.createSession,hs]

theorem createSession_turn (w : IceWorld) (draw : SessionDraw) (h : c.sessions peer = none)
    (controlling : Bool) :
    let s := IceSession.create controlling c.config draw.ufrag draw.pwd draw.tieBreaker
    ∃ c', c.createSession w draw peer controlling = some (c',s.gather w) ∧
      Turn peer c c' (entryAfter (some (s.gather w)) (calledBack s (s.gather w)))
        (signalsOf (s.gather w) (calledBack s (s.gather w))) := by
  intro s
  have hput : Turn peer c { c with sessions := Function.update c.sessions peer (some s) }
      (some s) [] := ⟨rfl,rfl,rfl,(List.append_nil _).symm⟩
  refine ⟨_,by simp only [IceConnector.createSession,h]; rfl,?_⟩
  have hall := hput.trans (update_turn _ peer s (s.gather w))
  rw [hput.entry,List.nil_append] at hall
  exact hall

/-- Whatever a task does, it does it for its peer. -/
theorem runTask_turn (w : IceWorld) (draw : SessionDraw) (c : IceConnector) (task : ConnectorTask) :
    ∃ entry sent, Turn task.peer c (c.runTask w draw task) entry sent := by
  have hsame : ∃ entry sent, Turn task.peer c c entry sent := ⟨_,_,Turn.refl c task.peer⟩
  cases task with
  | connect peer =>
    simp only [IceConnector.runTask,ConnectorTask.peer] at hsame ⊢
    by_cases h : c.sessions peer = none
    · obtain ⟨c',heq,hturn⟩ := createSession_turn w draw h true
      rw [heq]
      exact ⟨_,_,hturn⟩
    · rw [createSession_none h]
      exact hsame
  | signal peer kind data =>
    simp only [IceConnector.runTask,ConnectorTask.peer] at hsame ⊢
    split
    · exact hsame
    · rename_i remote candidates _
      split
      · by_cases h : c.sessions peer = none
        · obtain ⟨c',heq,hturn⟩ := createSession_turn w draw h false
          rw [heq]
          exact ⟨_,_,hturn.trans (update_turn c' peer _ _)⟩
        · rw [createSession_none h]
          exact hsame
      · split
        · exact hsame
        · rename_i s _
          exact ⟨_,_,update_turn c peer s _⟩

end

end GoodNet.Ice
