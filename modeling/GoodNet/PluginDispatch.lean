import GoodNet.PluginManager
import GoodNet.PipelineSignal
set_option autoImplicit false

/-! `core/cm/registration.cpp`: the connection manager and its signal bus keep pointers of their
own to the handlers and connectors they are given, and nothing takes them back. A pointer is the
number of the init call with the table it returned. -/

namespace GoodNet
open Codec Interleaving

abbrev HandlerPtr := Nat × HandlerT
abbrev ConnectorPtr := Nat × ConnectorOpsT

inductive HandlerSource where
  | plugin | connector
  deriving DecidableEq, Repr

structure HandlerEntry where
  name : String
  handler : HandlerPtr
  source : HandlerSource
  subscribedTypes : List UInt32 := []
  deriving DecidableEq, Repr

structure PluginNode where
  pm : PluginManager := {}
  bus : SignalBus HandlerPtr := {}
  handlerEntries : Table String HandlerEntry := ∅
  connectors : Table String ConnectorPtr := ∅

def isConnectorBlockedType (msgType : UInt32) : Bool :=
  msgType ≤ 9 || (0x0100 ≤ msgType && msgType ≤ 0x0FFF)

def HandlerT.busPriority (h : HandlerT) : UInt8 :=
  match h.priority with
  | none => 128
  | some p => if p = 0 then 128 else p

def PluginNode.registerHandlerInternal (n : PluginNode) (h : HandlerPtr)
    (source : HandlerSource) : PluginNode :=
  match h.2.name with
  | none => n
  | some name =>
    let priority := h.2.busPriority
    if source = .connector ∧ h.2.supportedTypes = [] then n
    else if h.2.supportedTypes = [] then
      { n with
        bus := n.bus.subscribeWildcard name h priority,
        handlerEntries := n.handlerEntries.insert name ⟨name,h,source,[]⟩ }
    else
      let allowed := h.2.supportedTypes.filter (fun t =>
        !(source == .connector && isConnectorBlockedType t))
      let bus := allowed.foldl (fun bus t => (bus.subscribe t name h priority).1) n.bus
      if allowed = [] then { n with bus := bus }
      else
        { n with
          bus := bus,
          handlerEntries := n.handlerEntries.insert name ⟨name,h,source,allowed⟩ }

def PluginNode.registerHandler (n : PluginNode) (h : HandlerPtr) : PluginNode :=
  n.registerHandlerInternal h .plugin

def PluginNode.registerHandlerFromConnector (n : PluginNode) (h : HandlerPtr) : PluginNode :=
  n.registerHandlerInternal h .connector

def PluginNode.registerConnector (n : PluginNode) (scheme : String) (ops : ConnectorPtr) :
    PluginNode :=
  { n with connectors := n.connectors.insert scheme ops }

def PluginNode.findConnector (n : PluginNode) (scheme : String) : Option ConnectorPtr :=
  n.connectors.lookup (if scheme = "" then "tcp" else scheme)

/-- The code of one init call. -/
inductive PluginCode where
  | handler (slot : Nat)
  | connector (slot : Nat)
  deriving DecidableEq, Repr

/-- What the callback in a chain returns. `reply` is what `on_message_result` answers. -/
def callback (reply : Nat → Propagation) (n : Nat) (e : ChainEntry HandlerPtr) : Propagation :=
  if e.fn.2.onMessageResult then reply n else .carryOn

/-- The handlers that run for a packet. -/
def PluginNode.dispatch (n : PluginNode) (reply : Nat → Propagation) (msgType : UInt32) :
    List PluginCode :=
  ((n.bus.dispatchPacket (callback reply) msgType).1.filter
    (fun e => e.fn.2.handleMessage || e.fn.2.onMessageResult)).map (fun e => .handler e.fn.1)

/-- The handlers that are told of a connection's new state. -/
def PluginNode.notify (n : PluginNode) : List PluginCode :=
  (n.handlerEntries.entries.filter (fun e => e.2.handler.2.handleConnState)).map
    (fun e => .handler e.2.handler.1)

/-- The connector whose table a call goes through. -/
def PluginNode.through (n : PluginNode) (scheme : String) : List PluginCode :=
  match n.findConnector scheme with
  | none => []
  | some ops => [.connector ops.1]

/-- The plugins that run when the connection manager does what it logs. -/
def PluginNode.enters (n : PluginNode) (reply : Nat → Propagation) : Effect → List PluginCode
  | .deliver _ sink hdr _ _ _ => if sink = .bus then n.dispatch reply hdr.type else []
  | .notify _ _ => n.notify
  | .sendTo _ _ scheme _ _ => n.through scheme
  | .sendGather _ _ scheme _ _ => n.through scheme
  | .connect scheme _ => n.through scheme
  | .close scheme _ => n.through scheme
  | .closeNow scheme _ => n.through scheme
  | _ => []

/-- Calls to the plugin manager, registrations, and what the connection manager does. -/
inductive NodeCall where
  | plugin (call : PluginCall)
  | registerHandler (h : HandlerPtr) (source : HandlerSource)
  | registerConnector (scheme : String) (ops : ConnectorPtr)
  | effect (e : Effect) (reply : Nat → Propagation)

def PluginNode.act (n : PluginNode) : NodeCall → PluginNode
  | .plugin call => { n with pm := n.pm.act call }
  | .registerHandler h .plugin => n.registerHandler h
  | .registerHandler h .connector => n.registerHandlerFromConnector h
  | .registerConnector scheme ops => n.registerConnector scheme ops
  | .effect _ _ => n

def PluginNode.calls (n : PluginNode) : NodeCall → List PluginCode
  | .effect e reply => n.enters reply e
  | _ => []

/-- A node, and the plugins that have been unloaded or disabled and not enabled since. A reload is
another init call. -/
structure Watch where
  node : PluginNode := {}
  barred : List PluginCode := []

def PluginManager.handlerCode (pm : PluginManager) (name : String) : Option PluginCode :=
  (pm.handlers.lookup name).map (fun info => .handler info.slot)

def PluginManager.connectorCode (pm : PluginManager) (scheme : String) : Option PluginCode :=
  (pm.connectors.lookup scheme).map (fun info => .connector info.slot)

def Watch.bars (w : Watch) : NodeCall → List PluginCode
  | .plugin (.unloadHandler name) => (w.node.pm.handlerCode name).toList ++ w.barred
  | .plugin (.disableHandler name) => (w.node.pm.handlerCode name).toList ++ w.barred
  | .plugin (.unloadConnector scheme) => (w.node.pm.connectorCode scheme).toList ++ w.barred
  | .plugin (.enableHandler name) =>
    w.barred.filter (fun c => w.node.pm.handlerCode name ≠ some c)
  | _ => w.barred

def Watch.act (w : Watch) (call : NodeCall) : Watch := ⟨w.node.act call,w.bars call⟩

/-- A pointer to the plugin is kept outside the plugin manager. -/
def PluginNode.Holds (n : PluginNode) : PluginCode → Prop
  | .handler slot =>
    (∃ t, ∃ e ∈ n.bus.chain t ++ n.bus.wildcards.handlers, e.fn.1 = slot) ∨
      ∃ e ∈ n.handlerEntries.entries, e.2.handler.1 = slot
  | .connector slot => ∃ scheme ops, n.connectors.lookup scheme = some ops ∧ ops.1 = slot

/-- Only a plugin that no pointer leads to is unloaded or disabled, and none that is gets
registered. -/
def Watch.Clear (w : Watch) : NodeCall → Prop
  | .plugin (.unloadHandler name) => ∀ c, w.node.pm.handlerCode name = some c → ¬ w.node.Holds c
  | .plugin (.disableHandler name) => ∀ c, w.node.pm.handlerCode name = some c → ¬ w.node.Holds c
  | .plugin (.unloadConnector scheme) =>
    ∀ c, w.node.pm.connectorCode scheme = some c → ¬ w.node.Holds c
  | .registerHandler h _ => .handler h.1 ∉ w.barred
  | .registerConnector _ ops => .connector ops.1 ∉ w.barred
  | _ => True

section
variable {n : PluginNode} {w : Watch}

/-- The handlers the bus knows. -/
def SignalBus.Knows {F : Type} (b : SignalBus F) (fn : F) : Prop :=
  ∃ t, ∃ e ∈ b.chain t ++ b.wildcards.handlers, e.fn = fn

theorem SignalBus.knows_subscribe {F : Type} {b : SignalBus F} {t : UInt32} {name : String}
    {cb fn : F} {prio : UInt8} (h : (b.subscribe t name cb prio).1.Knows fn) :
    b.Knows fn ∨ fn = cb := by
  obtain ⟨t',e,he,rfl⟩ := h
  rcases List.mem_append.1 he with he | he
  · rw [subscribe_chain] at he
    split at he
    · rcases List.mem_append.1 ((List.mem_insertionSort _).1 he) with he | he
      · exact .inl ⟨t',e,List.mem_append_left _ he,rfl⟩
      · rw [List.mem_singleton.1 he]
        exact .inr rfl
    · exact .inl ⟨t',e,List.mem_append_left _ he,rfl⟩
  · exact .inl ⟨t',e,List.mem_append_right _ he,rfl⟩

theorem SignalBus.knows_subscribeWildcard {F : Type} {b : SignalBus F} {name : String}
    {cb fn : F} {prio : UInt8} (h : (b.subscribeWildcard name cb prio).Knows fn) :
    b.Knows fn ∨ fn = cb := by
  obtain ⟨t,e,he,rfl⟩ := h
  rcases List.mem_append.1 he with he | he
  · exact .inl ⟨t,e,List.mem_append_left _ he,rfl⟩
  · rcases List.mem_append.1 ((List.mem_insertionSort _).1 he) with he | he
    · exact .inl ⟨t,e,List.mem_append_right _ he,rfl⟩
    · rw [List.mem_singleton.1 he]
      exact .inr rfl

theorem SignalBus.knows_subscribeAll {F : Type} {b : SignalBus F} {types : List UInt32}
    {name : String} {cb fn : F} {prio : UInt8}
    (h : (types.foldl (fun bus t => (bus.subscribe t name cb prio).1) b).Knows fn) :
    b.Knows fn ∨ fn = cb := by
  induction types generalizing b with
  | nil => exact .inl h
  | cons t types ih =>
    rcases ih h with h | h
    · exact knows_subscribe h
    · exact .inr h

theorem PluginNode.holds_of_knows {h : HandlerPtr} (hk : n.bus.Knows h) :
    n.Holds (.handler h.1) := by
  obtain ⟨t,e,he,rfl⟩ := hk
  exact .inl ⟨t,e,he,rfl⟩

theorem PluginNode.act_registerHandler (h : HandlerPtr) (source : HandlerSource) :
    n.act (.registerHandler h source) = n.registerHandlerInternal h source := by
  cases source <;> rfl

/-- A handler that is registered is the only one that comes in. -/
theorem PluginNode.holds_registerHandler {h : HandlerPtr} {source : HandlerSource}
    {c : PluginCode} (hc : (n.registerHandlerInternal h source).Holds c) :
    n.Holds c ∨ c = .handler h.1 := by
  -- what a new bus and new entries may lead to
  have hput : ∀ (bus : SignalBus HandlerPtr) (entries : Table String HandlerEntry),
      (∀ fn, bus.Knows fn → n.bus.Knows fn ∨ fn = h) →
      (∀ e ∈ entries.entries, e ∈ n.handlerEntries.entries ∨ e.2.handler = h) →
      PluginNode.Holds { n with bus := bus, handlerEntries := entries } c →
        n.Holds c ∨ c = .handler h.1 := by
    intro bus entries hbus hentries hholds
    cases c with
    | handler slot =>
      rcases hholds with ⟨t,e,he,hslot⟩ | ⟨e,he,hslot⟩
      · rcases hbus e.fn ⟨t,e,he,rfl⟩ with hknown | hknown
        · rw [← hslot]
          exact .inl (holds_of_knows hknown)
        · rw [← hslot,hknown]
          exact .inr rfl
      · rcases hentries e he with he | he
        · exact .inl (.inr ⟨e,he,hslot⟩)
        · rw [← hslot,he]
          exact .inr rfl
    | connector slot => exact .inl hholds
  have hinsert : ∀ (name : String) (types : List UInt32),
      ∀ e ∈ (n.handlerEntries.insert name ⟨name,h,source,types⟩).entries,
        e ∈ n.handlerEntries.entries ∨ e.2.handler = h := by
    intro name types e he
    rw [AList.entries_insert] at he
    rcases List.mem_cons.1 he with rfl | he
    · exact .inr rfl
    · exact .inl ((List.kerase_sublist _ _).subset he)
  unfold registerHandlerInternal at hc
  split at hc
  · exact .inl hc
  · rename_i name _
    dsimp only at hc
    split at hc
    · exact .inl hc
    · split at hc
      · exact hput _ _ (fun fn hfn => SignalBus.knows_subscribeWildcard hfn) (hinsert name _) hc
      · split at hc
        · exact hput _ _ (fun fn hfn => SignalBus.knows_subscribeAll hfn)
            (fun e he => .inl he) hc
        · exact hput _ _ (fun fn hfn => SignalBus.knows_subscribeAll hfn) (hinsert name _) hc

theorem PluginNode.holds_registerConnector {scheme : String} {ops : ConnectorPtr}
    {c : PluginCode} (hc : (n.registerConnector scheme ops).Holds c) :
    n.Holds c ∨ c = .connector ops.1 := by
  cases c with
  | handler slot => exact .inl hc
  | connector slot =>
    obtain ⟨scheme',ops',hlookup,hslot⟩ := hc
    unfold registerConnector at hlookup
    by_cases hs : scheme' = scheme
    · subst hs
      rw [AList.lookup_insert] at hlookup
      cases hlookup
      rw [← hslot]
      exact .inr rfl
    · rw [AList.lookup_insert_ne hs] at hlookup
      exact .inl ⟨scheme',ops',hlookup,hslot⟩

/-- Whatever runs is held. -/
theorem PluginNode.holds_of_calls {call : NodeCall} {c : PluginCode} (hc : c ∈ n.calls call) :
    n.Holds c := by
  have hthrough : ∀ scheme, c ∈ n.through scheme → n.Holds c := by
    intro scheme hm
    unfold through findConnector at hm
    split at hm
    · cases hm
    · rename_i ops hops
      rw [List.mem_singleton.1 hm]
      exact ⟨_,ops,hops,rfl⟩
  cases call with
  | plugin _ => cases hc
  | registerHandler _ _ => cases hc
  | registerConnector _ _ => cases hc
  | effect e reply =>
    change c ∈ n.enters reply e at hc
    unfold enters at hc
    split at hc
    · rename_i sink hdr _ _ _
      rw [List.mem_ite_nil_right] at hc
      obtain ⟨entry,he,rfl⟩ := List.mem_map.1 hc.2
      have hcalled := (List.mem_filter.1 he).1
      rw [SignalBus.dispatchPacket_eq] at hcalled
      obtain ⟨rest,hsplit,_⟩ := emitFrom_spec (callback reply) 0
        (n.bus.chain hdr.type ++ n.bus.wildcards.handlers)
      refine .inl ⟨hdr.type,entry,?_,rfl⟩
      rw [hsplit]
      exact List.mem_append_left _ hcalled
    · obtain ⟨entry,he,rfl⟩ := List.mem_map.1 hc
      exact .inr ⟨entry,(List.mem_filter.1 he).1,rfl⟩
    · exact hthrough _ hc
    · exact hthrough _ hc
    · exact hthrough _ hc
    · exact hthrough _ hc
    · exact hthrough _ hc
    · cases hc

/-- No pointer leads to a plugin that is unloaded or disabled. -/
def Watch.Safe (w : Watch) : Prop := ∀ c ∈ w.barred, ¬ w.node.Holds c

theorem Watch.Safe.act (h : w.Safe) {call : NodeCall} (hclear : w.Clear call) :
    (w.act call).Safe := by
  -- a call to the plugin manager touches no pointer
  have hmore : ∀ code : Option PluginCode, (∀ c, code = some c → ¬ w.node.Holds c) →
      ∀ c ∈ code.toList ++ w.barred, ¬ w.node.Holds c := by
    intro code hcode c hc
    rcases List.mem_append.1 hc with hc | hc
    · exact hcode c (Option.mem_toList.1 hc)
    · exact h c hc
  intro c hc hholds
  cases call with
  | plugin call =>
    cases call with
    | load f => exact h c hc hholds
    | loadStatic registry => exact h c hc hholds
    | unloadHandler name => exact hmore _ hclear c hc hholds
    | unloadConnector scheme => exact hmore _ hclear c hc hholds
    | enableHandler name => exact h c (List.mem_filter.1 hc).1 hholds
    | disableHandler name => exact hmore _ hclear c hc hholds
    | unloadAll => exact h c hc hholds
  | registerHandler p source =>
    rw [Watch.act,PluginNode.act_registerHandler] at hholds
    rcases PluginNode.holds_registerHandler hholds with hold | rfl
    · exact h c hc hold
    · exact hclear hc
  | registerConnector scheme ops =>
    rcases PluginNode.holds_registerConnector hholds with hold | rfl
    · exact h c hc hold
    · exact hclear hc
  | effect e reply => exact h c hc hholds

/-- In every run in which only plugins that no pointer leads to are unloaded or disabled, and in
which such a plugin is not registered: nothing the connection manager does runs one of them. -/
theorem barred_not_called (calls : List NodeCall) (h : Along Watch.act Watch.Clear {} calls)
    (before rest : List NodeCall) (call : NodeCall) (hsplit : calls = before ++ call :: rest)
    (c : PluginCode) (hc : c ∈ (run Watch.act {} before).node.calls call) :
    c ∉ (run Watch.act {} before).barred := by
  rw [hsplit] at h
  have hsafe : (run Watch.act {} before).Safe :=
    h.front.invariant (fun _ _ hs hclear => Watch.Safe.act hs hclear) (by
      intro c hc
      cases hc)
  intro hbarred
  exact hsafe c hbarred (PluginNode.holds_of_calls hc)

end

/-- A handler that takes in every packet. -/
def echoHandler : HandlerT := { name := some "echo" }

def echoFile : PluginFile where
  path := "echo.so"
  filename := "echo.so"
  stem := "echo"
  handlerInit := some (0,some echoHandler)

/-- A packet on the connection with number 1. -/
def somePacket : Effect :=
  .deliver { id := 1, remote := ⟨"10.0.0.1",7000,Block.zero 32,0,0⟩ } .bus
    ⟨0,0,0,100,0,0⟩ ⟨"10.0.0.1",7000,Block.zero 32,1,0⟩ [] []

def carriesOn (_ : Nat) : Propagation := .carryOn

/-- The handler is disabled before it is registered, and enabled again. -/
theorem barred_not_called_runs :
    .handler 0 ∉ (run Watch.act {} [.plugin (.load echoFile),.plugin (.disableHandler "echo"),
      .plugin (.enableHandler "echo"),.registerHandler (0,echoHandler) .plugin]).barred := by
  obtain ⟨hcode,hbarred,hcalled⟩ :
      (run Watch.act {} [.plugin (.load echoFile)]).node.pm.handlerCode "echo" =
        some (.handler 0) ∧
      PluginCode.handler 0 ∉ (run Watch.act {} [.plugin (.load echoFile),
        .plugin (.disableHandler "echo"),.plugin (.enableHandler "echo")]).barred ∧
      PluginCode.handler 0 ∈ (run Watch.act {} [.plugin (.load echoFile),
        .plugin (.disableHandler "echo"),.plugin (.enableHandler "echo"),
        .registerHandler (0,echoHandler) .plugin]).node.calls (.effect somePacket carriesOn) := by
    decide +kernel
  have hunknown : ∀ c, (run Watch.act {} [.plugin (.load echoFile)]).node.pm.handlerCode "echo" =
      some c → ¬ (run Watch.act {} [.plugin (.load echoFile)]).node.Holds c := by
    intro c hc
    rw [hcode] at hc
    cases hc
    rintro (⟨_,_,he,_⟩ | ⟨_,he,_⟩)
    · cases he
    · cases he
  exact barred_not_called [.plugin (.load echoFile),.plugin (.disableHandler "echo"),
    .plugin (.enableHandler "echo"),.registerHandler (0,echoHandler) .plugin,
    .effect somePacket carriesOn] ⟨trivial,hunknown,trivial,hbarred,trivial,trivial⟩ _ []
    (.effect somePacket carriesOn) rfl (.handler 0) hcalled

/-- Unloaded once it is registered, the handler still gets packets. -/
theorem unloaded_called :
    ¬ ∀ (before : List NodeCall) (call : NodeCall) (c : PluginCode),
      c ∈ (run Watch.act {} before).node.calls call → c ∉ (run Watch.act {} before).barred := by
  intro hall
  have hcalled : PluginCode.handler 0 ∈
        (run Watch.act {} [.plugin (.load echoFile),.registerHandler (0,echoHandler) .plugin,
          .plugin (.unloadHandler "echo")]).node.calls (.effect somePacket carriesOn) ∧
      PluginCode.handler 0 ∈
        (run Watch.act {} [.plugin (.load echoFile),.registerHandler (0,echoHandler) .plugin,
          .plugin (.unloadHandler "echo")]).barred := by
    decide +kernel
  exact hall _ _ _ hcalled.1 hcalled.2

end GoodNet
