import GoodNet.ConfigJson
set_option autoImplicit false

/-! What `parse_json` does to each field of a configuration, for any document, and that it takes
back what `to_json` wrote. The fields are named here once more, with their places in a document;
reader and writer are both held against these names. -/

namespace GoodNet
open Codec Assignments

inductive Config.Section where
  | core | logging | security | compression | plugins | identity | ice
  deriving DecidableEq, Repr

def Config.Section.name : Config.Section → String
  | .core => "core"
  | .logging => "logging"
  | .security => "security"
  | .compression => "compression"
  | .plugins => "plugins"
  | .identity => "identity"
  | .ice => "ice"

inductive Config.Field where
  | listenAddress | listenPort | ioThreads | maxConnections
  | logLevel | logFile | logMaxSize | logMaxFiles
  | keyExchangeTimeout | maxAuthAttempts | securitySessionTimeout
  | compressionEnabled | compressionThreshold | compressionLevel
  | baseDir | autoLoad | scanInterval | extraDirs
  | identityDir | sshKeyPath | useMachineId | skipSshFallback
  | stunServers | iceSessionTimeout | keepaliveInterval | consentMaxFailures
  deriving DecidableEq, Repr

inductive Config.Kind where
  | string | int | bool
  deriving DecidableEq, Repr

/-- Section, key and type of a field. -/
@[simp] def Config.Field.place : Config.Field → Config.Section × String × Config.Kind
  | .listenAddress => (.core,"listen_address",.string)
  | .listenPort => (.core,"listen_port",.int)
  | .ioThreads => (.core,"io_threads",.int)
  | .maxConnections => (.core,"max_connections",.int)
  | .logLevel => (.logging,"level",.string)
  | .logFile => (.logging,"file",.string)
  | .logMaxSize => (.logging,"max_size",.int)
  | .logMaxFiles => (.logging,"max_files",.int)
  | .keyExchangeTimeout => (.security,"key_exchange_timeout",.int)
  | .maxAuthAttempts => (.security,"max_auth_attempts",.int)
  | .securitySessionTimeout => (.security,"session_timeout",.int)
  | .compressionEnabled => (.compression,"enabled",.bool)
  | .compressionThreshold => (.compression,"threshold",.int)
  | .compressionLevel => (.compression,"level",.int)
  | .baseDir => (.plugins,"base_dir",.string)
  | .autoLoad => (.plugins,"auto_load",.bool)
  | .scanInterval => (.plugins,"scan_interval",.int)
  | .extraDirs => (.plugins,"extra_dirs",.string)
  | .identityDir => (.identity,"dir",.string)
  | .sshKeyPath => (.identity,"ssh_key_path",.string)
  | .useMachineId => (.identity,"use_machine_id",.bool)
  | .skipSshFallback => (.identity,"skip_ssh_fallback",.bool)
  | .stunServers => (.ice,"stun_servers",.string)
  | .iceSessionTimeout => (.ice,"session_timeout",.int)
  | .keepaliveInterval => (.ice,"keepalive_interval",.int)
  | .consentMaxFailures => (.ice,"consent_max_failures",.int)

@[simp] def Config.Field.sect (f : Config.Field) : Config.Section := f.place.1
@[simp] def Config.Field.key (f : Config.Field) : String := f.place.2.1
@[simp] def Config.Field.kind (f : Config.Field) : Config.Kind := f.place.2.2

inductive Config.Value where
  | string (s : Bytes)
  | int (v : Int32)
  | bool (b : Bool)
  deriving DecidableEq

def Config.value (c : Config) : Config.Field → Config.Value
  | .listenAddress => .string c.core.listenAddress
  | .listenPort => .int c.core.listenPort
  | .ioThreads => .int c.core.ioThreads
  | .maxConnections => .int c.core.maxConnections
  | .logLevel => .string c.logging.level
  | .logFile => .string c.logging.file
  | .logMaxSize => .int c.logging.maxSize
  | .logMaxFiles => .int c.logging.maxFiles
  | .keyExchangeTimeout => .int c.security.keyExchangeTimeout
  | .maxAuthAttempts => .int c.security.maxAuthAttempts
  | .securitySessionTimeout => .int c.security.sessionTimeout
  | .compressionEnabled => .bool c.compression.enabled
  | .compressionThreshold => .int c.compression.threshold
  | .compressionLevel => .int c.compression.level
  | .baseDir => .string c.plugins.baseDir
  | .autoLoad => .bool c.plugins.autoLoad
  | .scanInterval => .int c.plugins.scanInterval
  | .extraDirs => .string c.plugins.extraDirs
  | .identityDir => .string c.identity.dir
  | .sshKeyPath => .string c.identity.sshKeyPath
  | .useMachineId => .bool c.identity.useMachineId
  | .skipSshFallback => .bool c.identity.skipSshFallback
  | .stunServers => .string c.ice.stunServers
  | .iceSessionTimeout => .int c.ice.sessionTimeout
  | .keepaliveInterval => .int c.ice.keepaliveInterval
  | .consentMaxFailures => .int c.ice.consentMaxFailures

/-- What a document says about a field. -/
def Json.find (j : Json) (f : Config.Field) : Option Json :=
  (j.at f.sect.name).bind (fun c => c.at f.key)

/-- A value of the type asked for. -/
def Json.isOf : Config.Kind → Json → Bool
  | .string,x => x.isString
  | .int,x => x.isNumberInteger
  | .bool,x => x.isBoolean

/-- A number that an `int` can hold; anything else has no range to keep to. -/
def Json.InRange : Json → Prop
  | .integer v => -2147483648 ≤ v ∧ v < 2147483648
  | _ => True

/-- A field holds exactly the value of the document. -/
def Config.Value.Is : Config.Value → Json → Prop
  | .string s,.string t => s = t
  | .int v,.integer n => v.toInt = n
  | .bool a,.boolean b => a = b
  | _,_ => False

def Config.Value.ofJson (k : Config.Kind) (x : Json) : Option Config.Value :=
  match k with
  | .string => x.getString.map .string
  | .int => x.getInt.map .int
  | .bool => x.getBool.map .bool

/-- What a section gives the fields that belong to it. -/
def sectionValue (c : Json) (s : Config.Section) (g : Config.Field) : Option Config.Value :=
  if g.sect = s then (c.at g.key).bind (Config.Value.ofJson g.kind) else none

abbrev SetsConfig (s : Stmt Config) (new : Config.Field → Option Config.Value) : Prop :=
  Sets Config.value Config.lastFile s new

theorem contains_iff (j : Json) (key : String) : j.contains key = (j.at key).isSome := by
  cases j <;> rfl

/-- An assignment to one field of the configuration and to nothing else. -/
def Assigns {α : Type} (assign : α → Config → Config) (f : Config.Field)
    (inj : α → Config.Value) : Prop :=
  ∀ v d, (assign v d).lastFile = d.lastFile ∧
    ∀ g, (assign v d).value g = if g = f then inj v else d.value g

section
variable {α : Type} {isType : Json → Bool} {get : Json → Option α} {assign : α → Config → Config}
  {inj : α → Config.Value}

/-- Where the type is asked for first, nothing throws. -/
theorem readMember_eq (htype : ∀ x, isType x = (get x).isSome) (c : Json) (key : String) :
    readMember isType get c key assign =
      fun d => (true,((c.at key).bind get).elim d (fun v => assign v d)) := by
  funext d
  rw [readMember,contains_iff]
  cases c.at key with
  | none => rfl
  | some x =>
    simp only [Option.isSome_some,if_true,Option.bind_some,htype x]
    cases get x <;> rfl

theorem readMember_sets (htype : ∀ x, isType x = (get x).isSome) (c : Json) (key : String)
    (f : Config.Field) (h : Assigns assign f inj) :
    SetsConfig (readMember isType get c key assign)
      (fun g => if g = f then (c.at key).bind (fun x => (get x).map inj) else none) := by
  rw [readMember_eq htype]
  refine (sets_assign f _ (fun v d => (h v d).2) (fun v d => (h v d).1)).congr (fun g => ?_)
  cases c.at key <;> rfl

end

theorem isString_eq (x : Json) : x.isString = x.getString.isSome := by cases x <;> rfl

theorem isNumberInteger_eq (x : Json) : x.isNumberInteger = x.getInt.isSome := by cases x <;> rfl

theorem isBoolean_eq (x : Json) : x.isBoolean = x.getBool.isSome := by cases x <;> rfl

section
variable (c : Json) {key : String}

theorem readString_sets {assign : Bytes → Config → Config} (f : Config.Field)
    (h : Assigns assign f .string) :
    SetsConfig (readString c key assign)
      (fun g => if g = f then (c.at key).bind (Config.Value.ofJson .string) else none) :=
  readMember_sets isString_eq c key f h

theorem readInt_sets {assign : Int32 → Config → Config} (f : Config.Field)
    (h : Assigns assign f .int) :
    SetsConfig (readInt c key assign)
      (fun g => if g = f then (c.at key).bind (Config.Value.ofJson .int) else none) :=
  readMember_sets isNumberInteger_eq c key f h

theorem readBool_sets {assign : Bool → Config → Config} (f : Config.Field)
    (h : Assigns assign f .bool) :
    SetsConfig (readBool c key assign)
      (fun g => if g = f then (c.at key).bind (Config.Value.ofJson .bool) else none) :=
  readMember_sets isBoolean_eq c key f h

theorem readCore_sets : SetsConfig (runAll (readCore c)) (sectionValue c .core) := by
  unfold readCore
  refine Sets.congr (.cons (readString_sets c .listenAddress ?_)
    (.cons (readInt_sets c .listenPort ?_) (.cons (readInt_sets c .ioThreads ?_)
      (.cons (readInt_sets c .maxConnections ?_) sets_nil)))) (fun g => ?_)
  any_goals exact fun v d => ⟨rfl,fun g => by cases g <;> rfl⟩
  cases g <;> simp [sectionValue]

theorem readLogging_sets : SetsConfig (runAll (readLogging c)) (sectionValue c .logging) := by
  unfold readLogging
  refine Sets.congr (.cons (readString_sets c .logLevel ?_)
    (.cons (readString_sets c .logFile ?_) (.cons (readInt_sets c .logMaxSize ?_)
      (.cons (readInt_sets c .logMaxFiles ?_) sets_nil)))) (fun g => ?_)
  any_goals exact fun v d => ⟨rfl,fun g => by cases g <;> rfl⟩
  cases g <;> simp [sectionValue]

theorem readSecurity_sets : SetsConfig (runAll (readSecurity c)) (sectionValue c .security) := by
  unfold readSecurity
  refine Sets.congr (.cons (readInt_sets c .keyExchangeTimeout ?_)
    (.cons (readInt_sets c .maxAuthAttempts ?_)
      (.cons (readInt_sets c .securitySessionTimeout ?_) sets_nil))) (fun g => ?_)
  any_goals exact fun v d => ⟨rfl,fun g => by cases g <;> rfl⟩
  cases g <;> simp [sectionValue]

theorem readCompression_sets :
    SetsConfig (runAll (readCompression c)) (sectionValue c .compression) := by
  unfold readCompression
  refine Sets.congr (.cons (readBool_sets c .compressionEnabled ?_)
    (.cons (readInt_sets c .compressionThreshold ?_)
      (.cons (readInt_sets c .compressionLevel ?_) sets_nil))) (fun g => ?_)
  any_goals exact fun v d => ⟨rfl,fun g => by cases g <;> rfl⟩
  cases g <;> simp [sectionValue]

theorem readPlugins_sets : SetsConfig (runAll (readPlugins c)) (sectionValue c .plugins) := by
  unfold readPlugins
  refine Sets.congr (.cons (readString_sets c .baseDir ?_)
    (.cons (readBool_sets c .autoLoad ?_) (.cons (readInt_sets c .scanInterval ?_)
      (.cons (readString_sets c .extraDirs ?_) sets_nil)))) (fun g => ?_)
  any_goals exact fun v d => ⟨rfl,fun g => by cases g <;> rfl⟩
  cases g <;> simp [sectionValue]

theorem readIdentity_sets : SetsConfig (runAll (readIdentity c)) (sectionValue c .identity) := by
  unfold readIdentity
  refine Sets.congr (.cons (readString_sets c .identityDir ?_)
    (.cons (readString_sets c .sshKeyPath ?_) (.cons (readBool_sets c .useMachineId ?_)
      (.cons (readBool_sets c .skipSshFallback ?_) sets_nil)))) (fun g => ?_)
  any_goals exact fun v d => ⟨rfl,fun g => by cases g <;> rfl⟩
  cases g <;> simp [sectionValue]

theorem readIce_sets : SetsConfig (runAll (readIce c)) (sectionValue c .ice) := by
  unfold readIce
  refine Sets.congr (.cons (readString_sets c .stunServers ?_)
    (.cons (readInt_sets c .iceSessionTimeout ?_) (.cons (readInt_sets c .keepaliveInterval ?_)
      (.cons (readInt_sets c .consentMaxFailures ?_) sets_nil)))) (fun g => ?_)
  any_goals exact fun v d => ⟨rfl,fun g => by cases g <;> rfl⟩
  cases g <;> simp [sectionValue]

end

/-- The value that a document has for a field, where it has one of the type asked for. -/
def documentValue (j : Json) (f : Config.Field) : Option Config.Value :=
  (j.find f).bind (Config.Value.ofJson f.kind)

/-- A section that is missing, or no object, gives its fields nothing. -/
theorem readSection_sets (j : Json) (s : Config.Section) {body : Json → List (Stmt Config)}
    (h : ∀ c, SetsConfig (runAll (body c)) (sectionValue c s)) :
    SetsConfig (readSection j s.name body)
      (fun g => if g.sect = s then documentValue j g else none) := by
  unfold readSection
  rw [contains_iff]
  cases hj : j.at s.name with
  | none =>
    refine sets_skip.congr (fun g => ?_)
    by_cases hg : g.sect = s
    · rw [if_pos hg,documentValue,Json.find,hg,hj]
      rfl
    · rw [if_neg hg]
  | some c =>
    refine (h c).congr (fun g => ?_)
    rw [sectionValue]
    by_cases hg : g.sect = s
    · rw [if_pos hg,if_pos hg,documentValue,Json.find,hg,hj,Option.bind_some]
    · rw [if_neg hg,if_neg hg]

theorem runSections_sets (j : Json) :
    SetsConfig (runAll
      [readSection j "core" readCore,
        readSection j "logging" readLogging,
        readSection j "security" readSecurity,
        readSection j "compression" readCompression,
        readSection j "plugins" readPlugins,
        readSection j "identity" readIdentity,
        readSection j "ice" readIce]) (documentValue j) := by
  refine Sets.congr (.cons (readSection_sets j .core readCore_sets)
    (.cons (readSection_sets j .logging readLogging_sets)
      (.cons (readSection_sets j .security readSecurity_sets)
        (.cons (readSection_sets j .compression readCompression_sets)
          (.cons (readSection_sets j .plugins readPlugins_sets)
            (.cons (readSection_sets j .identity readIdentity_sets)
              (.cons (readSection_sets j .ice readIce_sets) sets_nil))))))) (fun g => ?_)
  cases g.sect <;> simp

/-- Whatever the document, it is read to its end, and each field gets what it says of it. -/
theorem Config.loadFromString_document {lib : JsonLib} {text : Bytes} {j : Json}
    (h : lib.parse text = some j) (d : Config) :
    (d.loadFromString lib text).1 = true ∧ (d.loadFromString lib text).2.lastFile = d.lastFile ∧
      ∀ f, (d.loadFromString lib text).2.value f = (documentValue j f).getD (d.value f) := by
  unfold Config.loadFromString Config.parseJson
  rw [h]
  exact runSections_sets j d

theorem Config.document_value (c : Config) (f : Config.Field) :
    documentValue c.document f = some (c.value f) := by
  cases f <;> simp [documentValue,Json.find,Config.document,Json.at,Config.Section.name,
    Config.Value.ofJson,Json.getString,Json.getInt,Json.getBool,jsonInt,Config.value,
    List.lookup_cons]

/-- The fields and the path are all there is to a configuration. -/
theorem Config.ext_value {c d : Config} (h : ∀ f, c.value f = d.value f)
    (hfile : c.lastFile = d.lastFile) : c = d := by
  have hs : ∀ {a b : Bytes}, Config.Value.string a = .string b → a = b := fun e => by cases e; rfl
  have hi : ∀ {a b : Int32}, Config.Value.int a = .int b → a = b := fun e => by cases e; rfl
  have hb : ∀ {a b : Bool}, Config.Value.bool a = .bool b → a = b := fun e => by cases e; rfl
  obtain ⟨⟨_,_,_,_⟩,⟨_,_,_,_⟩,⟨_,_,_⟩,⟨_,_,_⟩,⟨_,_,_,_⟩,⟨_,_,_,_⟩,⟨_,_,_,_⟩,_⟩ := c
  obtain ⟨⟨_,_,_,_⟩,⟨_,_,_,_⟩,⟨_,_,_⟩,⟨_,_,_⟩,⟨_,_,_,_⟩,⟨_,_,_,_⟩,⟨_,_,_,_⟩,_⟩ := d
  simp only [Config.mk.injEq,Config.Core.mk.injEq,Config.Log.mk.injEq,Config.Security.mk.injEq,
    Config.Compression.mk.injEq,Config.Plugins.mk.injEq,Config.Identity.mk.injEq,
    Config.Ice.mk.injEq]
  refine ⟨⟨hs (h .listenAddress),hi (h .listenPort),hi (h .ioThreads),hi (h .maxConnections)⟩,
    ⟨hs (h .logLevel),hs (h .logFile),hi (h .logMaxSize),hi (h .logMaxFiles)⟩,
    ⟨hi (h .keyExchangeTimeout),hi (h .maxAuthAttempts),hi (h .securitySessionTimeout)⟩,
    ⟨hb (h .compressionEnabled),hi (h .compressionThreshold),hi (h .compressionLevel)⟩,
    ⟨hs (h .baseDir),hb (h .autoLoad),hi (h .scanInterval),hs (h .extraDirs)⟩,
    ⟨hs (h .identityDir),hs (h .sshKeyPath),hb (h .useMachineId),hb (h .skipSshFallback)⟩,
    ⟨hs (h .stunServers),hi (h .iceSessionTimeout),hi (h .keepaliveInterval),
      hi (h .consentMaxFailures)⟩,hfile⟩

theorem Json.isOf_eq (k : Config.Kind) (x : Json) :
    x.isOf k = (Config.Value.ofJson k x).isSome := by
  cases k with
  | string => rw [Json.isOf,Config.Value.ofJson,isString_eq,Option.isSome_map]
  | int => rw [Json.isOf,Config.Value.ofJson,isNumberInteger_eq,Option.isSome_map]
  | bool => rw [Json.isOf,Config.Value.ofJson,isBoolean_eq,Option.isSome_map]

/-- In its range a number is taken as it is. -/
theorem Config.Value.is_of_ofJson {k : Config.Kind} {x : Json} {v : Config.Value}
    (h : Config.Value.ofJson k x = some v) (hrange : x.InRange) : v.Is x := by
  cases k <;> cases x <;> simp only [Config.Value.ofJson,Json.getString,Json.getInt,Json.getBool,
    Option.map_some,Option.map_none,Option.some.injEq,reduceCtorEq] at h <;> subst h
  case string.string s => rfl
  case int.integer n => exact Int32.toInt_ofInt_of_le hrange.1 hrange.2
  case bool.boolean b => rfl

/-- What the library promises for a document whose strings are valid UTF-8: it is written, and
its text is read as the same document. -/
def JsonLib.RoundTrips (lib : JsonLib) (doc : Json) : Prop :=
  ∃ text, lib.dump doc = some text ∧ lib.parse text = some doc

theorem Config.loadFromString_saved {lib : JsonLib} {c : Config}
    (h : lib.RoundTrips c.document) (d : Config) :
    ∃ text, c.saveToString lib = some text ∧
      d.loadFromString lib text = (true,{ c with lastFile := d.lastFile }) := by
  obtain ⟨text,hdump,hparse⟩ := h
  obtain ⟨hok,hfile,hvalue⟩ := Config.loadFromString_document hparse d
  refine ⟨text,hdump,Prod.ext hok (Config.ext_value (fun f => ?_) hfile)⟩
  rw [hvalue f,c.document_value f,Option.getD_some]
  cases f <;> rfl

/-- A saved configuration is loaded over any other; a text that is no JSON changes nothing; and
a document changes exactly the fields it has a value of the right type for. -/
theorem Config.load_save (lib : JsonLib) :
    (∀ c d : Config, lib.RoundTrips c.document →
      ∃ text, c.saveToString lib = some text ∧
        d.loadFromString lib text = (true,{ c with lastFile := d.lastFile })) ∧
    (∀ (d : Config) (text : Bytes), lib.parse text = none →
      d.loadFromString lib text = (false,d)) ∧
    ∀ (d : Config) (text : Bytes) (j : Json), lib.parse text = some j →
      (d.loadFromString lib text).1 = true ∧ ∀ f,
        ((∀ x, j.find f = some x → x.isOf f.kind = false) →
          (d.loadFromString lib text).2.value f = d.value f) ∧
        ∀ x, j.find f = some x → x.isOf f.kind = true → x.InRange →
          ((d.loadFromString lib text).2.value f).Is x := by
  refine ⟨fun c d h => Config.loadFromString_saved h d,fun d text h => ?_,fun d text j h => ?_⟩
  · rw [Config.loadFromString,Config.parseJson,h]
  · obtain ⟨hok,-,hvalue⟩ := Config.loadFromString_document h d
    refine ⟨hok,fun f => ⟨fun hno => ?_,fun x hx his hrange => ?_⟩⟩
    · -- what has the wrong type gives no value, no more than what is absent
      have hnone : documentValue j f = none := by
        rw [documentValue,Option.bind_eq_none_iff]
        intro x hx
        have hof := hno x hx
        rwa [Json.isOf_eq,Option.isSome_eq_false_iff,Option.isNone_iff_eq_none] at hof
      rw [hvalue f,hnone,Option.getD_none]
    · rw [Json.isOf_eq,Option.isSome_iff_exists] at his
      obtain ⟨v,hv⟩ := his
      have hsome : documentValue j f = some v := by rw [documentValue,hx,Option.bind_some,hv]
      rw [hvalue f,hsome,Option.getD_some]
      exact Config.Value.is_of_ofJson hv hrange

/-- The default configuration as the library writes it. -/
def defaultConfigText : Bytes := List.flatMap bytesOfString
  ["\x7b\n  \"compression\": \x7b\n    \"enabled\": true,\n    \"level\": 1,\n",
    "    \"threshold\": 512\n  \x7d,\n  \"core\": \x7b\n    \"io_threads\": 0,\n",
    "    \"listen_address\": \"0.0.0.0\",\n    \"listen_port\": 25565,\n",
    "    \"max_connections\": 1000\n  \x7d,\n  \"ice\": \x7b\n",
    "    \"consent_max_failures\": 3,\n    \"keepalive_interval\": 20,\n",
    "    \"session_timeout\": 10,\n",
    "    \"stun_servers\": \"stun.l.google.com:19302,",
    "stun1.l.google.com:19302,stun2.l.google.com:19302\"\n",
    "  \x7d,\n  \"identity\": \x7b\n    \"dir\": \"~/.goodnet\",\n",
    "    \"skip_ssh_fallback\": false,\n    \"ssh_key_path\": \"\",\n",
    "    \"use_machine_id\": true\n  \x7d,\n  \"logging\": \x7b\n    \"file\": \"\",\n",
    "    \"level\": \"info\",\n    \"max_files\": 5,\n    \"max_size\": 10485760\n  \x7d,\n",
    "  \"plugins\": \x7b\n    \"auto_load\": true,\n    \"base_dir\": \"\",\n",
    "    \"extra_dirs\": \"\",\n    \"scan_interval\": 300\n  \x7d,\n  \"security\": \x7b\n",
    "    \"key_exchange_timeout\": 30,\n    \"max_auth_attempts\": 3,\n",
    "    \"session_timeout\": 3600\n  \x7d\n\x7d"]

def onePortText : Bytes :=
  bytesOfString "\x7b\"core\": \x7b\"io_threads\": \"two\", \"listen_port\": 7\x7d\x7d"

def onePortDocument : Json :=
  .object [("core",.object
    [("io_threads",.string (bytesOfString "two")),("listen_port",.integer 7)])]

def sampleParse (text : Bytes) : Option Json :=
  if text = onePortText then some onePortDocument
  else if text = defaultConfigText then some ({} : Config).document
  else none

/-- The library, as far as the example below asks for it. -/
def sampleJsonLib : JsonLib := ⟨sampleParse,fun _ => some defaultConfigText⟩

theorem sampleParse_onePort : sampleParse onePortText = some onePortDocument := by
  rw [sampleParse,if_pos rfl]

theorem sampleParse_default : sampleParse defaultConfigText = some ({} : Config).document := by
  have hne : defaultConfigText ≠ onePortText :=
    fun h => absurd (congrArg (List.take 2) h) (by decide)
  rw [sampleParse,if_neg hne,if_pos rfl]

theorem sampleParse_nil : sampleParse [] = none := by
  have hone : [] ≠ onePortText := fun h => absurd (congrArg (List.take 1) h) (by decide)
  have hdefault : [] ≠ defaultConfigText := fun h => absurd (congrArg (List.take 1) h) (by decide)
  rw [sampleParse,if_neg hone,if_neg hdefault]

theorem sampleJsonLib_roundTrips : sampleJsonLib.RoundTrips ({} : Config).document := by
  have hdump : sampleJsonLib.dump ({} : Config).document = some defaultConfigText := by
    unfold sampleJsonLib
    rfl
  have hparse : sampleJsonLib.parse = sampleParse := rfl
  refine ⟨defaultConfigText,hdump,?_⟩
  rw [hparse]
  exact sampleParse_default

def otherPorts : Config := { core := { listenPort := 1, ioThreads := 4 } }

theorem defaultConfig_loaded :
    (∃ text, ({} : Config).saveToString sampleJsonLib = some text ∧
      otherPorts.loadFromString sampleJsonLib text = (true,{})) ∧
    otherPorts.loadFromString sampleJsonLib [] = (false,otherPorts) ∧
    (otherPorts.loadFromString sampleJsonLib onePortText).2.value .ioThreads = .int 4 ∧
    ((otherPorts.loadFromString sampleJsonLib onePortText).2.value .listenPort).Is
      (.integer 7) := by
  obtain ⟨hsaved,hno,hdoc⟩ := Config.load_save sampleJsonLib
  have hone := (hdoc otherPorts onePortText onePortDocument sampleParse_onePort).2
  refine ⟨hsaved {} otherPorts sampleJsonLib_roundTrips,
    hno otherPorts [] sampleParse_nil,(hone .ioThreads).1 (fun x hx => ?_),
    (hone .listenPort).2 (.integer 7) rfl rfl ⟨by decide,by decide⟩⟩
  cases hx
  rfl

end GoodNet
