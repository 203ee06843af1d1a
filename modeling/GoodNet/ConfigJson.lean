import GoodNet.HandshakePayload
import GoodNet.Lib.Assignments
set_option autoImplicit false

/-! `config.hpp` and `config.cpp`: the configuration, its reader `parse_json` and its writer
`to_json`. The JSON library is a parameter. Its numbers without a fraction are one kind here:
`is_number_integer` holds of both that it has, and a positive one changes between them on its
way through a text. -/

namespace GoodNet
open Codec Assignments

inductive Json where
  | null
  | boolean (b : Bool)
  | integer (v : Int)
  | float (bits : UInt64)
  | string (s : Bytes)
  | array (elements : List Json)
  | object (members : List (String × Json))

/-- `nlohmann::json::parse` and `dump(2)`; where they throw there is no result. -/
structure JsonLib where
  parse : Bytes → Option Json
  dump : Json → Option Bytes

/-- `contains`, which is false of anything but an object. -/
def Json.contains : Json → String → Bool
  | .object members,key => (members.lookup key).isSome
  | _,_ => false

/-- `operator[]` of a constant value; it throws where there is nothing to refer to. -/
def Json.at : Json → String → Option Json
  | .object members,key => members.lookup key
  | _,_ => none

def Json.isString : Json → Bool
  | .string _ => true
  | _ => false

def Json.isNumberInteger : Json → Bool
  | .integer _ => true
  | _ => false

def Json.isBoolean : Json → Bool
  | .boolean _ => true
  | _ => false

/-- `get<std::string>`. -/
def Json.getString : Json → Option Bytes
  | .string s => some s
  | _ => none

/-- `get<int>` of a number without a fraction, cut to the bits of an `int`. -/
def Json.getInt : Json → Option Int32
  | .integer v => some (Int32.ofInt v)
  | _ => none

/-- `get<bool>`. -/
def Json.getBool : Json → Option Bool
  | .boolean b => some b
  | _ => none

structure Config.Core where
  listenAddress : Bytes := bytesOfString "0.0.0.0"
  listenPort : Int32 := 25565
  ioThreads : Int32 := 0
  maxConnections : Int32 := 1000
  deriving DecidableEq

structure Config.Log where
  level : Bytes := bytesOfString "info"
  file : Bytes := []
  maxSize : Int32 := 10485760
  maxFiles : Int32 := 5
  deriving DecidableEq

structure Config.Security where
  keyExchangeTimeout : Int32 := 30
  maxAuthAttempts : Int32 := 3
  sessionTimeout : Int32 := 3600
  deriving DecidableEq

structure Config.Compression where
  enabled : Bool := true
  threshold : Int32 := 512
  level : Int32 := 1
  deriving DecidableEq

structure Config.Plugins where
  baseDir : Bytes := []
  autoLoad : Bool := true
  scanInterval : Int32 := 300
  extraDirs : Bytes := []
  deriving DecidableEq

structure Config.Identity where
  dir : Bytes := bytesOfString "~/.goodnet"
  sshKeyPath : Bytes := []
  useMachineId : Bool := true
  skipSshFallback : Bool := false
  deriving DecidableEq

structure Config.Ice where
  stunServers : Bytes := bytesOfString
    "stun.l.google.com:19302,stun1.l.google.com:19302,stun2.l.google.com:19302"
  sessionTimeout : Int32 := 10
  keepaliveInterval : Int32 := 20
  consentMaxFailures : Int32 := 3
  deriving DecidableEq

structure Config where
  core : Config.Core := {}
  logging : Config.Log := {}
  security : Config.Security := {}
  compression : Config.Compression := {}
  plugins : Config.Plugins := {}
  identity : Config.Identity := {}
  ice : Config.Ice := {}
  lastFile : Bytes := []
  deriving DecidableEq

/-- `if (c.contains(key) && c[key].is_…()) field = c[key];`. -/
def readMember {α : Type} (isType : Json → Bool) (get : Json → Option α) (c : Json)
    (key : String) (assign : α → Config → Config) : Stmt Config := fun d =>
  if c.contains key then
    match c.at key with
    | none => (false,d)
    | some x =>
      if isType x then
        match get x with
        | none => (false,d)
        | some v => (true,assign v d)
      else (true,d)
  else (true,d)

def readString (c : Json) (key : String) (assign : Bytes → Config → Config) : Stmt Config :=
  readMember Json.isString Json.getString c key assign

def readInt (c : Json) (key : String) (assign : Int32 → Config → Config) : Stmt Config :=
  readMember Json.isNumberInteger Json.getInt c key assign

def readBool (c : Json) (key : String) (assign : Bool → Config → Config) : Stmt Config :=
  readMember Json.isBoolean Json.getBool c key assign

def readCore (c : Json) : List (Stmt Config) :=
  [readString c "listen_address" (fun v d => { d with core.listenAddress := v }),
    readInt c "listen_port" (fun v d => { d with core.listenPort := v }),
    readInt c "io_threads" (fun v d => { d with core.ioThreads := v }),
    readInt c "max_connections" (fun v d => { d with core.maxConnections := v })]

def readLogging (l : Json) : List (Stmt Config) :=
  [readString l "level" (fun v d => { d with logging.level := v }),
    readString l "file" (fun v d => { d with logging.file := v }),
    readInt l "max_size" (fun v d => { d with logging.maxSize := v }),
    readInt l "max_files" (fun v d => { d with logging.maxFiles := v })]

def readSecurity (s : Json) : List (Stmt Config) :=
  [readInt s "key_exchange_timeout" (fun v d => { d with security.keyExchangeTimeout := v }),
    readInt s "max_auth_attempts" (fun v d => { d with security.maxAuthAttempts := v }),
    readInt s "session_timeout" (fun v d => { d with security.sessionTimeout := v })]

def readCompression (c : Json) : List (Stmt Config) :=
  [readBool c "enabled" (fun v d => { d with compression.enabled := v }),
    readInt c "threshold" (fun v d => { d with compression.threshold := v }),
    readInt c "level" (fun v d => { d with compression.level := v })]

def readPlugins (p : Json) : List (Stmt Config) :=
  [readString p "base_dir" (fun v d => { d with plugins.baseDir := v }),
    readBool p "auto_load" (fun v d => { d with plugins.autoLoad := v }),
    readInt p "scan_interval" (fun v d => { d with plugins.scanInterval := v }),
    readString p "extra_dirs" (fun v d => { d with plugins.extraDirs := v })]

def readIdentity (i : Json) : List (Stmt Config) :=
  [readString i "dir" (fun v d => { d with identity.dir := v }),
    readString i "ssh_key_path" (fun v d => { d with identity.sshKeyPath := v }),
    readBool i "use_machine_id" (fun v d => { d with identity.useMachineId := v }),
    readBool i "skip_ssh_fallback" (fun v d => { d with identity.skipSshFallback := v })]

def readIce (ic : Json) : List (Stmt Config) :=
  [readString ic "stun_servers" (fun v d => { d with ice.stunServers := v }),
    readInt ic "session_timeout" (fun v d => { d with ice.sessionTimeout := v }),
    readInt ic "keepalive_interval" (fun v d => { d with ice.keepaliveInterval := v }),
    readInt ic "consent_max_failures" (fun v d => { d with ice.consentMaxFailures := v })]

/-- `if (j.contains(name)) { const auto& c = j[name]; … }`. -/
def readSection (j : Json) (name : String) (body : Json → List (Stmt Config)) : Stmt Config :=
  fun d =>
    if j.contains name then
      match j.at name with
      | none => (false,d)
      | some c => runAll (body c) d
    else (true,d)

/-- `parse_json`: the verdict, and the configuration it leaves. -/
def Config.parseJson (lib : JsonLib) (d : Config) (text : Bytes) : Bool × Config :=
  match lib.parse text with
  | none => (false,d)
  | some j =>
    runAll
      [readSection j "core" readCore,
        readSection j "logging" readLogging,
        readSection j "security" readSecurity,
        readSection j "compression" readCompression,
        readSection j "plugins" readPlugins,
        readSection j "identity" readIdentity,
        readSection j "ice" readIce] d

def jsonInt (v : Int32) : Json := .integer v.toInt

/-- The document that `to_json` dumps. Members stand in the order of their keys, in which the
map of an object keeps them, and not in the order of the assignments. -/
def Config.document (c : Config) : Json :=
  .object
    [("compression",.object
      [("enabled",.boolean c.compression.enabled),
        ("level",jsonInt c.compression.level),
        ("threshold",jsonInt c.compression.threshold)]),
    ("core",.object
      [("io_threads",jsonInt c.core.ioThreads),
        ("listen_address",.string c.core.listenAddress),
        ("listen_port",jsonInt c.core.listenPort),
        ("max_connections",jsonInt c.core.maxConnections)]),
    ("ice",.object
      [("consent_max_failures",jsonInt c.ice.consentMaxFailures),
        ("keepalive_interval",jsonInt c.ice.keepaliveInterval),
        ("session_timeout",jsonInt c.ice.sessionTimeout),
        ("stun_servers",.string c.ice.stunServers)]),
    ("identity",.object
      [("dir",.string c.identity.dir),
        ("skip_ssh_fallback",.boolean c.identity.skipSshFallback),
        ("ssh_key_path",.string c.identity.sshKeyPath),
        ("use_machine_id",.boolean c.identity.useMachineId)]),
    ("logging",.object
      [("file",.string c.logging.file),
        ("level",.string c.logging.level),
        ("max_files",jsonInt c.logging.maxFiles),
        ("max_size",jsonInt c.logging.maxSize)]),
    ("plugins",.object
      [("auto_load",.boolean c.plugins.autoLoad),
        ("base_dir",.string c.plugins.baseDir),
        ("extra_dirs",.string c.plugins.extraDirs),
        ("scan_interval",jsonInt c.plugins.scanInterval)]),
    ("security",.object
      [("key_exchange_timeout",jsonInt c.security.keyExchangeTimeout),
        ("max_auth_attempts",jsonInt c.security.maxAuthAttempts),
        ("session_timeout",jsonInt c.security.sessionTimeout)])]

def Config.toJson (lib : JsonLib) (c : Config) : Option Bytes := lib.dump c.document

def Config.loadFromString (lib : JsonLib) (d : Config) (json : Bytes) : Bool × Config :=
  d.parseJson lib json

def Config.saveToString (lib : JsonLib) (c : Config) : Option Bytes := c.toJson lib

end GoodNet
