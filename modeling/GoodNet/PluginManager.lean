import GoodNet.ManagerState
import GoodNet.Lib.Interleaving
set_option autoImplicit false

/-! `core/pm`: loading plugins, from files and from the static registry, and taking them out again.
A plugin answers its init call with a table of functions. Every init call is given a number, which
stands for the address of the table and of the code behind it. -/

namespace GoodNet

/-- `handler_t`, as the core reads it. A function is there or NULL. -/
structure HandlerT where
  name : Option String
  handleMessage : Bool := true
  onMessageResult : Bool := true
  handleConnState : Bool := true
  shutdown : Bool := true
  supportedTypes : List UInt32 := []
  priority : Option UInt8 := none
  deriving DecidableEq, Repr

/-- `connector_ops_t`: what `get_scheme` and `get_name` write, where they are not NULL. -/
structure ConnectorOpsT where
  getScheme : Option String
  getName : Option String := none
  shutdown : Bool := true
  deriving DecidableEq, Repr

/-- What an init function returns and the pointer it leaves. -/
abbrev InitResult (α : Type) := Int × Option α

/-- A file that `load_plugin` is given: what the file system, the manifest check and the dynamic
loader say of it, and the init functions it exports. -/
structure PluginFile where
  path : String
  filename : String
  stem : String
  present : Bool := true
  metadata : Except String Unit := .ok ()
  dlopen : Except String Unit := .ok ()
  handlerInit : Option (InitResult HandlerT) := none
  connectorInit : Option (InitResult ConnectorOpsT) := none

structure StaticPluginEntry where
  name : String
  handlerInit : Option (InitResult HandlerT) := none
  connectorInit : Option (InitResult ConnectorOpsT) := none

/-- The destructor shuts a handler down only where `handler` is set. -/
structure HandlerInfo where
  slot : Nat
  lib : Bool
  handler : Option HandlerT := none
  path : String := ""
  name : String := ""
  enabled : Bool := true
  deriving DecidableEq, Repr

structure ConnectorInfo where
  slot : Nat
  lib : Bool
  ops : Option ConnectorOpsT := none
  path : String := ""
  name : String := ""
  scheme : String := ""
  enabled : Bool := true
  deriving DecidableEq, Repr

/-- What is done to a plugin. `initialised` says whether its table has a shutdown function. -/
inductive PluginAct where
  | opened
  | initialised (shutdown : Bool)
  | shutdown
  | closed
  deriving DecidableEq, Repr

structure PluginManager where
  handlers : Table String HandlerInfo := ∅
  connectors : Table String ConnectorInfo := ∅
  slots : Nat := 0
  trace : List (Nat × PluginAct) := []

/-- The end of an info object: shutdown, then its library is closed. -/
def lastActs (lib shutdown : Bool) : List PluginAct :=
  (if shutdown then [.shutdown] else []) ++ if lib then [.closed] else []

def HandlerInfo.shutsDown (i : HandlerInfo) : Bool := i.handler.any HandlerT.shutdown

def ConnectorInfo.shutsDown (i : ConnectorInfo) : Bool := i.ops.any ConnectorOpsT.shutdown

def PluginManager.does (pm : PluginManager) (slot : Nat) (acts : List PluginAct) :
    PluginManager :=
  { pm with trace := pm.trace ++ acts.map (fun a => (slot,a)) }

def HandlerInfo.destroy (pm : PluginManager) (i : HandlerInfo) : PluginManager :=
  pm.does i.slot (lastActs i.lib i.shutsDown)

def ConnectorInfo.destroy (pm : PluginManager) (i : ConnectorInfo) : PluginManager :=
  pm.does i.slot (lastActs i.lib i.shutsDown)

/-- Why a plugin is not taken in. -/
inductive Refusal where
  | initFailed
  | emptyScheme
  | taken (key : String)
  deriving DecidableEq, Repr

def HandlerT.key (h : HandlerT) (fallback : String) : String :=
  match h.name with
  | none => fallback
  | some n => if n = "" then fallback else n

def ConnectorOpsT.scheme (ops : ConnectorOpsT) : String := ops.getScheme.getD ""

def ConnectorOpsT.label (ops : ConnectorOpsT) (fallback : String) : String :=
  let n := ops.getName.getD ""
  if n = "" then fallback else n

/-- The part of `load_plugin` and of `load_static_plugins` that begins with the info object of a
handler. -/
def PluginManager.admitHandler (pm : PluginManager) (lib : Bool) (path fallback : String)
    (init : InitResult HandlerT) : PluginManager × Option Refusal :=
  let info : HandlerInfo := { slot := pm.slots, lib := lib }
  let pm := { pm with slots := pm.slots+1 }
  match init with
  | (0,some h) =>
    let pm := pm.does info.slot [.initialised h.shutdown]
    let name := h.key fallback
    if (pm.handlers.lookup name).isSome then (info.destroy pm,some (.taken name))
    else
      let info := { info with handler := some h, path := path, name := name }
      ({ pm with handlers := pm.handlers.insert name info },none)
  | _ => (info.destroy pm,some .initFailed)

def PluginManager.admitConnector (pm : PluginManager) (lib : Bool) (path fallback : String)
    (init : InitResult ConnectorOpsT) : PluginManager × Option Refusal :=
  let info : ConnectorInfo := { slot := pm.slots, lib := lib }
  let pm := { pm with slots := pm.slots+1 }
  match init with
  | (0,some ops) =>
    let pm := pm.does info.slot [.initialised ops.shutdown]
    let scheme := ops.scheme
    if scheme = "" then (info.destroy pm,some .emptyScheme)
    else if (pm.connectors.lookup scheme).isSome then (info.destroy pm,some (.taken scheme))
    else
      let info := { info with
        ops := some ops, path := path, name := ops.label fallback, scheme := scheme }
      ({ pm with connectors := pm.connectors.insert scheme info },none)
  | _ => (info.destroy pm,some .initFailed)

def PluginFile.handlerError (f : PluginFile) : Refusal → String
  | .taken name => "handler '" ++ name ++ "' already loaded"
  | _ => "handler_init() failed: " ++ f.filename

def PluginFile.connectorError (f : PluginFile) : Refusal → String
  | .initFailed => "connector_init() failed: " ++ f.filename
  | .emptyScheme => "connector '" ++ f.filename ++ "': get_scheme() empty"
  | .taken scheme => "connector scheme '" ++ scheme ++ "' already loaded"

def refused (error : Refusal → String) (r : PluginManager × Option Refusal) :
    PluginManager × Except String Unit :=
  match r.2 with
  | none => (r.1,.ok ())
  | some why => (r.1,.error (error why))

def PluginManager.loadPlugin (pm : PluginManager) (f : PluginFile) :
    PluginManager × Except String Unit :=
  if f.present = false then (pm,.error ("not found: " ++ f.path))
  else
    match f.metadata with
    | .error e => (pm,.error e)
    | .ok () =>
      match f.dlopen with
      | .error e => (pm,.error ("dlopen '" ++ f.filename ++ "': " ++ e))
      | .ok () =>
        let opened := pm.does pm.slots [.opened]
        match f.handlerInit with
        | some init => refused f.handlerError (opened.admitHandler true f.path f.stem init)
        | none =>
          match f.connectorInit with
          | some init =>
            refused f.connectorError (opened.admitConnector true f.path f.stem init)
          | none =>
            ({ opened.does pm.slots [.closed] with slots := pm.slots+1 },
              .error ("'" ++ f.filename ++ "' exports neither handler_init nor connector_init"))

/-- One round of `load_static_plugins`. -/
def PluginManager.loadStaticPlugin (pm : PluginManager) (entry : StaticPluginEntry) :
    PluginManager :=
  match entry.handlerInit with
  | some init => (pm.admitHandler false "" entry.name init).1
  | none =>
    match entry.connectorInit with
    | some init => (pm.admitConnector false "" entry.name init).1
    | none => pm

def PluginManager.loadStaticPlugins (pm : PluginManager) (registry : List StaticPluginEntry) :
    PluginManager :=
  registry.foldl PluginManager.loadStaticPlugin pm

def PluginManager.unloadHandler (pm : PluginManager) (name : String) : PluginManager × Bool :=
  match pm.handlers.lookup name with
  | none => (pm,false)
  | some info => (info.destroy { pm with handlers := pm.handlers.erase name },true)

def PluginManager.unloadConnector (pm : PluginManager) (scheme : String) :
    PluginManager × Bool :=
  match pm.connectors.lookup scheme with
  | none => (pm,false)
  | some info => (info.destroy { pm with connectors := pm.connectors.erase scheme },true)

/-- The flag that `enable_handler` and `disable_handler` set. -/
def PluginManager.setEnabled (pm : PluginManager) (name : String) (enabled : Bool) :
    PluginManager × Bool :=
  match pm.handlers.lookup name with
  | none => (pm,false)
  | some info =>
    ({ pm with handlers := pm.handlers.insert name { info with enabled := enabled } },true)

def PluginManager.enableHandler (pm : PluginManager) (name : String) : PluginManager × Bool :=
  pm.setEnabled name true

def PluginManager.disableHandler (pm : PluginManager) (name : String) : PluginManager × Bool :=
  pm.setEnabled name false

/-- Also what the destructor does. -/
def PluginManager.unloadAll (pm : PluginManager) : PluginManager :=
  let pm := pm.handlers.entries.foldl (fun pm e => e.2.destroy pm) { pm with handlers := ∅ }
  pm.connectors.entries.foldl (fun pm e => e.2.destroy pm) { pm with connectors := ∅ }

/-- The calls that change what is loaded. -/
inductive PluginCall where
  | load (f : PluginFile)
  | loadStatic (registry : List StaticPluginEntry)
  | unloadHandler (name : String)
  | unloadConnector (scheme : String)
  | enableHandler (name : String)
  | disableHandler (name : String)
  | unloadAll

def PluginManager.act (pm : PluginManager) : PluginCall → PluginManager
  | .load f => (pm.loadPlugin f).1
  | .loadStatic registry => pm.loadStaticPlugins registry
  | .unloadHandler name => (pm.unloadHandler name).1
  | .unloadConnector scheme => (pm.unloadConnector scheme).1
  | .enableHandler name => (pm.enableHandler name).1
  | .disableHandler name => (pm.disableHandler name).1
  | .unloadAll => pm.unloadAll

end GoodNet
