import GoodNet.ConfigRoundTrip
import GoodNet.IceConnector
import GoodNet.Lib.PlainText
import GoodNet.SchemeTable
set_option autoImplicit false

/-! How a connector comes by its settings: `get_raw` of `src/config.cpp`, `s_config_get` of the
manager, `config_get` of `sdk/cpp/connector.hpp` with its buffer of 256 bytes, and `on_init` of
`plugins/connectors/ice/ice.cpp`, which reads the STUN servers out of what it gets. -/

namespace GoodNet
open Codec PlainText

/-- `std::to_string` of an `int`. -/
def textOfInt (v : Int32) : Bytes := decimalInt v.toInt

def textOfBool (b : Bool) : Bytes := bytesOfString (if b then "true" else "false")

/-- `extract_first_stun`: up to the first comma, the last colon in it between host and port. -/
def extractFirstStun (csv : Bytes) : Bytes × Bytes :=
  let first := trim 32 (csv.takeWhile (· ≠ 44))
  match splitLast 58 first with
  | some (host,port) => (host,port)
  | none => (first,bytesOfString "19302")

def Config.getRaw (c : Config) (key : String) : Option Bytes :=
  if key = "core.listen_address" then some c.core.listenAddress
  else if key = "core.listen_port" then some (textOfInt c.core.listenPort)
  else if key = "core.io_threads" then some (textOfInt c.core.ioThreads)
  else if key = "core.max_connections" then some (textOfInt c.core.maxConnections)
  else if key = "logging.level" then some c.logging.level
  else if key = "logging.file" then some c.logging.file
  else if key = "logging.max_size" then some (textOfInt c.logging.maxSize)
  else if key = "logging.max_files" then some (textOfInt c.logging.maxFiles)
  else if key = "security.key_exchange_timeout" then
    some (textOfInt c.security.keyExchangeTimeout)
  else if key = "security.max_auth_attempts" then some (textOfInt c.security.maxAuthAttempts)
  else if key = "security.session_timeout" then some (textOfInt c.security.sessionTimeout)
  else if key = "compression.enabled" then some (textOfBool c.compression.enabled)
  else if key = "compression.threshold" then some (textOfInt c.compression.threshold)
  else if key = "compression.level" then some (textOfInt c.compression.level)
  else if key = "plugins.base_dir" then some c.plugins.baseDir
  else if key = "plugins.auto_load" then some (textOfBool c.plugins.autoLoad)
  else if key = "plugins.scan_interval" then some (textOfInt c.plugins.scanInterval)
  else if key = "plugins.extra_dirs" then some c.plugins.extraDirs
  else if key = "identity.dir" then some c.identity.dir
  else if key = "identity.ssh_key_path" then some c.identity.sshKeyPath
  else if key = "identity.use_machine_id" then some (textOfBool c.identity.useMachineId)
  else if key = "identity.skip_ssh_fallback" then some (textOfBool c.identity.skipSshFallback)
  else if key = "ice.stun_servers" then some c.ice.stunServers
  else if key = "ice.session_timeout" then some (textOfInt c.ice.sessionTimeout)
  else if key = "ice.keepalive_interval" then some (textOfInt c.ice.keepaliveInterval)
  else if key = "ice.consent_max_failures" ∨ key = "ice.consent_failures" then
    some (textOfInt c.ice.consentMaxFailures)
  else if key = "ice.stun_server" then some (extractFirstStun c.ice.stunServers).1
  else if key = "ice.stun_port" then some (extractFirstStun c.ice.stunServers).2
  else none

/-- The `n` bytes that `strncpy` writes. -/
def strncpy (n : Nat) (src : Bytes) : Bytes :=
  let s := (cString src).take n
  s ++ List.replicate (n-s.length) 0

/-- `s_config_get`: what it returns, and the buffer behind it. -/
def sConfigGet (config : Option Config) (key : String) (buf : Bytes) : Int × Bytes :=
  match config.bind (fun c => c.getRaw key) with
  | none => (-1,buf)
  | some v => ((Int32.ofNat v.length).toInt,strncpy (buf.length-1) v ++ [0])

/-- `config_get` of a connector. -/
def configGet (config : Option Config) (key : String) : Bytes :=
  cString (sConfigGet config key (List.replicate 256 0)).2

/-- `std::atoi` with a `long` of 64 bits behind it: the value stays within a `long` and is then
cut to an `int`. -/
def atoi (s : Bytes) : Int32 :=
  Int32.ofInt (max (-9223372036854775808) (min 9223372036854775807 (scanInt s)))

namespace Ice

/-- A port in range, or else the port of STUN. -/
def stunPort (p : Int32) : UInt16 :=
  if 0 < p.toInt ∧ p.toInt ≤ 65535 then UInt16.ofNat p.toInt.toNat else 19302

def StunServer.ofEntry (entry : Bytes) : StunServer :=
  match splitLast 58 entry with
  | some (host,port) => ⟨stringOfBytes host,stunPort (atoi port)⟩
  | none => { host := stringOfBytes entry }

/-- The loop of `parse_stun_servers` on what is left of the text; the fuel bounds its rounds. -/
def parseStunFrom : Nat → Bytes → List StunServer
  | 0,_ => []
  | fuel+1,rest =>
    if rest = [] then []
    else
      let entry := trim 32 (rest.takeWhile (· ≠ 44))
      let next := (rest.dropWhile (· ≠ 44)).drop 1
      (if entry = [] then [] else [StunServer.ofEntry entry]) ++ parseStunFrom fuel next

def parseStunServers (val : Bytes) : List StunServer := parseStunFrom val.length val

/-- `ice_config_`, the durations in seconds. -/
structure IceSettings where
  stunServers : List StunServer :=
    [{ host := "stun.l.google.com" },{ host := "stun1.l.google.com" },
      { host := "stun2.l.google.com" }]
  sessionTimeout : Int := 10
  keepaliveInterval : Int := 20
  consentMaxFailures : Int := 3
  deriving DecidableEq, Repr

/-- `GOODNET_STUN_SERVER` and `GOODNET_STUN_PORT`. -/
structure StunEnvironment where
  server : Option Bytes := none
  port : Option Bytes := none

/-- A setting that is there and positive. -/
def positiveSetting (v : Bytes) (old : Int) : Int :=
  if v ≠ [] ∧ 0 < (atoi v).toInt then (atoi v).toInt else old

/-- The settings that `on_init` leaves, `get` being `config_get`. -/
def onInit (get : String → Bytes) (env : StunEnvironment) : IceSettings :=
  let d : IceSettings := {}
  let v := get "ice.stun_servers"
  { stunServers :=
      if v ≠ [] then parseStunServers v
      else
        match env.server with
        | some host => [⟨stringOfBytes host,(env.port.map (fun p => stunPort (atoi p))).getD 19302⟩]
        | none => d.stunServers
    sessionTimeout := positiveSetting (get "ice.session_timeout") d.sessionTimeout
    keepaliveInterval := positiveSetting (get "ice.keepalive_interval") d.keepaliveInterval
    consentMaxFailures := positiveSetting (get "ice.consent_failures") d.consentMaxFailures }

/-- What sessions are given of it. -/
def IceSettings.config (s : IceSettings) : IceConfig := ⟨s.stunServers,s.consentMaxFailures⟩

end Ice

/-- The key of a field in `get_raw`, and the text of its value there. -/
def Config.Field.dotted (f : Config.Field) : String := f.sect.name ++ "." ++ f.key

def Config.Value.text : Config.Value → Bytes
  | .string s => s
  | .int v => textOfInt v
  | .bool b => textOfBool b

section
variable (c : Config)

theorem Config.getRaw_field (f : Config.Field) : c.getRaw f.dotted = some (c.value f).text := by
  cases f <;> rfl

theorem mem_cString {s : Bytes} {x : UInt8} (h : x ∈ cString s) : x ≠ 0 :=
  fun he => zero_not_mem_cString s (he ▸ h)

theorem cString_eq_self {s : Bytes} (h : ∀ x ∈ s, x ≠ 0) : cString s = s :=
  cString_self (fun hzero => h 0 hzero rfl)

theorem cString_filled {s : Bytes} (h : ∀ x ∈ s, x ≠ 0) (n : Nat) :
    cString (s ++ List.replicate n 0 ++ [0]) = s := by
  rw [List.append_assoc]
  unfold cString
  rw [List.takeWhile_append_of_pos (fun x hx => by simpa using h x hx)]
  cases n with
  | zero => simp
  | succ n => simp [List.replicate_succ]

/-- The buffer takes 255 bytes, up to a zero. -/
theorem configGet_some {key : String} {v : Bytes} (h : c.getRaw key = some v) :
    configGet (some c) key = (cString v).take 255 := by
  have hplain : ∀ x ∈ (cString v).take 255, x ≠ 0 := fun x hx =>
    mem_cString (List.mem_of_mem_take hx)
  unfold configGet sConfigGet
  simp only [Option.bind_some,h,List.length_replicate,strncpy]
  exact cString_filled hplain _

theorem configGet_fits {key : String} {v : Bytes} (h : c.getRaw key = some v)
    (hplain : ∀ x ∈ v, x ≠ 0) (hlen : v.length ≤ 255) : configGet (some c) key = v := by
  rw [configGet_some c h,cString_eq_self hplain]
  exact List.take_of_length_le hlen

theorem digit_apart : ∀ d : Fin 10, digit d ≠ 0 ∧ digit d ≠ 32 ∧ digit d ≠ 44 ∧ digit d ≠ 58 := by
  decide

theorem textOfInt_plain (v : Int32) : (textOfInt v).length ≤ 255 ∧ ∀ x ∈ textOfInt v, x ≠ 0 := by
  constructor
  · have hlt : v.toInt.natAbs < 10^10 := by
      have hv := v.toInt_lt
      have hv' := v.le_toInt
      omega
    have hlen := PlainText.decimal_length_le (by omega) hlt
    unfold textOfInt decimalInt
    split
    · simp only [List.length_cons]
      omega
    · omega
  · intro x hx
    rcases mem_decimalInt hx with rfl | ⟨d,rfl⟩
    · decide
    · exact (digit_apart d).1

/-- A number that a connector asks for is the number that was set. -/
theorem atoi_textOfInt (v : Int32) : atoi (textOfInt v) = v := by
  have hv := v.toInt_lt
  have hv' := v.le_toInt
  unfold atoi textOfInt
  rw [scanInt_decimalInt,min_eq_right (by omega),max_eq_right (by omega),Int32.ofInt_toInt]

end

namespace Ice

/-- The servers a text lists: its pieces between commas, blanks around them and empty ones left
out. -/
def listed (text : Bytes) : List StunServer :=
  (((text.splitOn 44).map (trim 32)).filter (fun e => e ≠ [])).map StunServer.ofEntry

/-- The loop cuts the text into these pieces. -/
theorem parseStunFrom_eq {fuel : Nat} {rest : Bytes} (h : rest.length ≤ fuel) :
    parseStunFrom fuel rest = listed rest := by
  have hempty : listed [] = [] := rfl
  induction fuel generalizing rest with
  | zero =>
    rw [List.eq_nil_of_length_eq_zero (Nat.le_zero.mp h)]
    rfl
  | succ fuel ih =>
    unfold parseStunFrom
    by_cases hrest : rest = []
    · rw [if_pos hrest,hrest,hempty]
    · rw [if_neg hrest]
      have hsplit := List.takeWhile_append_dropWhile (p := fun x => decide (x ≠ 44)) (l := rest)
      have hcomma : 44 ∉ rest.takeWhile (fun x => decide (x ≠ 44)) := fun hmem => by
        have := List.mem_takeWhile_imp hmem
        simp at this
      have hpos := List.length_pos_of_ne_nil hrest
      cases htail : rest.dropWhile (fun x => decide (x ≠ 44)) with
      | nil =>
        rw [htail,List.append_nil] at hsplit
        rw [hsplit] at hcomma
        have hone : rest.splitOn 44 = [rest] := List.splitOn_eq_singleton hcomma
        have hrest' : parseStunFrom fuel [] = [] := by
          rw [ih (Nat.zero_le _),hempty]
        simp only [hsplit,List.drop_nil,hrest']
        unfold listed
        rw [hone]
        by_cases he : trim 32 rest = [] <;> simp [he]
      | cons c tail =>
        have hc : c = 44 := by
          have := List.head?_dropWhile_not (fun x => decide (x ≠ 44)) rest
          rw [htail] at this
          simpa using this
        subst hc
        have hlen : tail.length ≤ fuel := by
          have := congrArg List.length hsplit
          rw [htail,List.length_append,List.length_cons] at this
          omega
        have hcons : rest.splitOn 44 =
            rest.takeWhile (fun x => decide (x ≠ 44)) :: tail.splitOn 44 := by
          rw [htail] at hsplit
          calc rest.splitOn 44
              = (rest.takeWhile (fun x => decide (x ≠ 44)) ++ 44 :: tail).splitOn 44 := by
                rw [hsplit]
            _ = _ := List.splitOn_append_cons_self_of_not_mem hcomma tail
        simp only [List.drop_succ_cons,List.drop_zero,ih hlen]
        unfold listed
        rw [hcons]
        generalize rest.takeWhile (fun x => decide (x ≠ 44)) = piece
        by_cases he : trim 32 piece = [] <;> simp [he]

/-- A server as it is written into the configuration. -/
def serverText (s : Bytes × UInt16) : Bytes := s.1 ++ 58 :: decimal s.2.toNat

def csv (servers : List (Bytes × UInt16)) : Bytes := [44].intercalate (servers.map serverText)

/-- A host that can stand in the list, and a port that is one. -/
structure PlainServer (s : Bytes × UInt16) : Prop where
  noComma : 44 ∉ s.1
  noZero : 0 ∉ s.1
  noBlank : s.1.head? ≠ some 32
  port : s.2 ≠ 0

section
variable {s : Bytes × UInt16} {servers : List (Bytes × UInt16)}

theorem mem_serverText {x : UInt8} (h : x ∈ serverText s) :
    x ∈ s.1 ∨ x = 58 ∨ ∃ d : Fin 10, x = digit d := by
  unfold serverText at h
  rcases List.mem_append.mp h with h | h
  · exact Or.inl h
  · rcases List.mem_cons.mp h with h | h
    · exact Or.inr (Or.inl h)
    · exact Or.inr (Or.inr (mem_decimal h))

theorem PlainServer.text (h : PlainServer s) :
    44 ∉ serverText s ∧ 0 ∉ serverText s ∧ serverText s ≠ [] := by
  refine ⟨fun hx => ?_,fun hx => ?_,by simp [serverText]⟩
  · rcases mem_serverText hx with hx | hx | ⟨d,hd⟩
    · exact h.noComma hx
    · cases hx
    · exact (digit_apart d).2.2.1 hd.symm
  · rcases mem_serverText hx with hx | hx | ⟨d,hd⟩
    · exact h.noZero hx
    · cases hx
    · exact (digit_apart d).1 hd.symm

theorem PlainServer.trim_text (h : PlainServer s) : trim 32 (serverText s) = serverText s := by
  refine trim_eq_self ?_ ?_
  · have hblank := h.noBlank
    unfold serverText
    cases hs : s.1 with
    | nil => simp
    | cons x xs => simpa [hs] using hblank
  · intro hlast
    have hmem : 32 ∈ decimal s.2.toNat := by
      have hsplit : serverText s = (s.1 ++ [58]) ++ decimal s.2.toNat := by simp [serverText]
      rw [hsplit,List.getLast?_append_of_ne_nil _ (decimal_ne_nil _)] at hlast
      exact List.mem_of_getLast? hlast
    obtain ⟨d,hd⟩ := mem_decimal hmem
    exact (digit_apart d).2.1 hd.symm

theorem atoi_decimal {n : Nat} (h : n < 65536) : (atoi (decimal n)).toInt = n := by
  have hscan : scanInt (decimal n) = n := by
    have hneg : ¬(n : Int) < 0 := by omega
    simpa [decimalInt,hneg] using scanInt_decimalInt (n : Int)
  unfold atoi
  rw [hscan,min_eq_right (by omega),max_eq_right (by omega)]
  exact Int32.toInt_ofInt_of_le (by omega) (by omega)

theorem PlainServer.entry (h : PlainServer s) :
    StunServer.ofEntry (serverText s) = ⟨stringOfBytes s.1,s.2⟩ := by
  have hcolon : 58 ∉ decimal s.2.toNat := fun hx => by
    obtain ⟨d,hd⟩ := mem_decimal hx
    exact (digit_apart d).2.2.2 hd.symm
  have hlt := s.2.toNat_lt
  have hpos : 0 < s.2.toNat := Nat.pos_of_ne_zero (fun hz => h.port (UInt16.toNat_inj.mp hz))
  have hport : stunPort (atoi (decimal s.2.toNat)) = s.2 := by
    unfold stunPort
    rw [atoi_decimal hlt,if_pos (by omega)]
    simp
  unfold StunServer.ofEntry serverText
  rw [splitLast_append hcolon]
  simp only [hport]

theorem listed_csv (hne : servers ≠ []) (h : ∀ s ∈ servers, PlainServer s) :
    listed (csv servers) = servers.map (fun s => ⟨stringOfBytes s.1,s.2⟩) := by
  have hsplit : (csv servers).splitOn 44 = servers.map serverText := by
    refine List.splitOn_intercalate 44 (fun l hl => ?_) (by simpa using hne)
    obtain ⟨s,hs,rfl⟩ := List.mem_map.mp hl
    exact (h s hs).text.1
  have htrim : (servers.map serverText).map (trim 32) = servers.map serverText := by
    rw [List.map_map]
    exact List.map_congr_left (fun s hs => (h s hs).trim_text)
  have hkeep : (servers.map serverText).filter (fun e => e ≠ []) = servers.map serverText := by
    refine List.filter_eq_self.mpr (fun e he => ?_)
    obtain ⟨s,hs,rfl⟩ := List.mem_map.mp he
    simpa using (h s hs).text.2.2
  unfold listed
  rw [hsplit,htrim,hkeep,List.map_map]
  exact List.map_congr_left (fun s hs => (h s hs).entry)

theorem csv_cons (s : Bytes × UInt16) (rest : List (Bytes × UInt16)) :
    csv (s :: rest) = serverText s ++ if rest = [] then [] else 44 :: csv rest := by
  cases rest with
  | nil => simp [csv,List.intercalate_singleton]
  | cons t rest => simp [csv,List.intercalate_cons_cons]

theorem csv_noZero (h : ∀ s ∈ servers, PlainServer s) : ∀ x ∈ csv servers, x ≠ 0 := by
  induction servers with
  | nil => simp [csv,List.intercalate_nil]
  | cons s rest ih =>
    intro x hx hz
    subst hz
    rw [csv_cons] at hx
    rcases List.mem_append.mp hx with hx | hx
    · exact (h s List.mem_cons_self).text.2.1 hx
    · split at hx
      · cases hx
      · rcases List.mem_cons.mp hx with hx | hx
        · cases hx
        · exact ih (fun t ht => h t (List.mem_cons_of_mem s ht)) 0 hx rfl

/-- The older names give the first server. -/
theorem extractFirstStun_csv (h : PlainServer s) (rest : List (Bytes × UInt16)) :
    extractFirstStun (csv (s :: rest)) = (s.1,decimal s.2.toNat) := by
  have hcolon : 58 ∉ decimal s.2.toNat := fun hx => by
    obtain ⟨d,hd⟩ := mem_decimal hx
    exact (digit_apart d).2.2.2 hd.symm
  have hkeep : ∀ x ∈ serverText s, (decide (x ≠ 44)) = true := by
    intro x hx
    have hne : x ≠ 44 := fun he => h.text.1 (he ▸ hx)
    simpa using hne
  have hfirst : (csv (s :: rest)).takeWhile (fun x => decide (x ≠ 44)) = serverText s := by
    rw [csv_cons,List.takeWhile_append_of_pos hkeep]
    split <;> simp
  unfold extractFirstStun
  dsimp only
  rw [hfirst,h.trim_text]
  unfold serverText
  rw [splitLast_append hcolon]

theorem positiveSetting_textOfInt (v : Int32) (old : Int) :
    positiveSetting (textOfInt v) old = if 0 < v.toInt then v.toInt else old := by
  have hne : textOfInt v ≠ [] := by
    unfold textOfInt decimalInt
    split
    · simp
    · exact decimal_ne_nil _
  simp [positiveSetting,atoi_textOfInt,hne]

end

/-- What a connector hears of the list of servers. -/
def heardServers (c : Config) : Bytes := (cString c.ice.stunServers).take 255

/-- A number of seconds or of failures, unless it is not positive. -/
def positiveOr (v : Int32) (old : Int) : Int := if 0 < v.toInt then v.toInt else old

/-- Whatever the configuration: the servers are those listed in the first 255 bytes of the text, a
last one that is cut there included; only without a text does the environment count, and after
it the built-in servers. Every number arrives as it was set, if it is positive. -/
theorem ice_settings_of_config (c : Config) (env : StunEnvironment) :
    onInit (configGet (some c)) env =
      { stunServers :=
          if heardServers c ≠ [] then listed (heardServers c)
          else
            match env.server with
            | some host =>
              [⟨stringOfBytes host,(env.port.map (fun p => stunPort (atoi p))).getD 19302⟩]
            | none => ({} : IceSettings).stunServers
        sessionTimeout := positiveOr c.ice.sessionTimeout 10
        keepaliveInterval := positiveOr c.ice.keepaliveInterval 20
        consentMaxFailures := positiveOr c.ice.consentMaxFailures 3 } := by
  have hservers : configGet (some c) "ice.stun_servers" = heardServers c :=
    configGet_some c (c.getRaw_field .stunServers)
  have hnumber : ∀ (key : String) (v : Int32) (old : Int), c.getRaw key = some (textOfInt v) →
      positiveSetting (configGet (some c) key) old = positiveOr v old := by
    intro key v old hkey
    obtain ⟨hlen,hplain⟩ := textOfInt_plain v
    rw [configGet_fits c hkey hplain hlen,positiveSetting_textOfInt]
    rfl
  unfold onInit
  simp only [hservers,hnumber "ice.session_timeout" c.ice.sessionTimeout _ rfl,
    hnumber "ice.keepalive_interval" c.ice.keepaliveInterval _ rfl,
    hnumber "ice.consent_failures" c.ice.consentMaxFailures _ rfl,parseStunServers,
    parseStunFrom_eq (Nat.le_refl _)]

/-- A list of servers that fits into the buffer is the list that the connector uses, and its first
server is the one of the older names. -/
theorem stun_servers_arrive (c : Config) (env : StunEnvironment) (s : Bytes × UInt16)
    (rest : List (Bytes × UInt16)) (hplain : ∀ t ∈ s :: rest, PlainServer t)
    (hcsv : c.ice.stunServers = csv (s :: rest)) (hlen : (csv (s :: rest)).length ≤ 255) :
    (onInit (configGet (some c)) env).config =
      ⟨(s :: rest).map (fun t => ⟨stringOfBytes t.1,t.2⟩),positiveOr c.ice.consentMaxFailures 3⟩ ∧
    c.getRaw "ice.stun_server" = some s.1 ∧
    c.getRaw "ice.stun_port" = some (decimal s.2.toNat) := by
  have hheard : heardServers c = csv (s :: rest) := by
    unfold heardServers
    rw [hcsv,cString_eq_self (csv_noZero hplain),List.take_of_length_le hlen]
  have hne : csv (s :: rest) ≠ [] := by
    rw [csv_cons]
    exact List.append_ne_nil_of_left_ne_nil (hplain s List.mem_cons_self).text.2.2 _
  have hfirst := extractFirstStun_csv (hplain s List.mem_cons_self) rest
  refine ⟨?_,?_,?_⟩
  · rw [ice_settings_of_config]
    simp only [IceSettings.config,hheard,hne,ne_eq,not_false_eq_true,if_true,
      listed_csv (List.cons_ne_nil s rest) hplain]
  · show some (extractFirstStun c.ice.stunServers).1 = _
    rw [hcsv,hfirst]
  · show some (extractFirstStun c.ice.stunServers).2 = _
    rw [hcsv,hfirst]

/-- The servers of the default configuration. -/
def defaultServers : List (Bytes × UInt16) :=
  [(bytesOfString "stun1.l.google.com",19302),(bytesOfString "stun2.l.google.com",19302)]

theorem stun_servers_arrive_default :
    (onInit (configGet (some {})) {}).config = ({} : IceSettings).config ∧
    ({} : Config).getRaw "ice.stun_server" = some (bytesOfString "stun.l.google.com") ∧
    ({} : Config).getRaw "ice.stun_port" = some (decimal 19302) := by
  have hplain : ∀ t ∈ (bytesOfString "stun.l.google.com",19302) :: defaultServers,
      PlainServer t := by
    intro t ht
    simp only [defaultServers,List.mem_cons,List.not_mem_nil,or_false] at ht
    rcases ht with rfl | rfl | rfl
    · exact ⟨by decide,by decide,by decide,by decide⟩
    · exact ⟨by decide,by decide,by decide,by decide⟩
    · exact ⟨by decide,by decide,by decide,by decide⟩
  have h := stun_servers_arrive {} {} (bytesOfString "stun.l.google.com",19302) defaultServers hplain
    (by decide +kernel) (by decide +kernel)
  exact ⟨h.1.trans (by decide +kernel),h.2⟩

def twelveServers : Config where
  ice := { stunServers := csv (List.replicate 12 (bytesOfString "stun.example.org",3478)) }

/-- Of twelve servers the last one has lost the end of its name, and its port. -/
example : (onInit (configGet (some twelveServers)) {}).stunServers.drop 10 =
    [⟨"stun.example.org",3478⟩,⟨"stun.example.",19302⟩] := by
  decide +kernel

end Ice

end GoodNet
