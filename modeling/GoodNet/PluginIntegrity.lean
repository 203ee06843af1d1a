import GoodNet.ConfigJson
import GoodNet.PluginLifecycle
set_option autoImplicit false

/-! `core/pm/query.cpp` `verify_metadata` and `calculate_sha256`: a library is opened only if the hash
in its manifest is that of its content. The hash is taken over reads of 64 KB. -/

namespace GoodNet
open Codec Interleaving

/-- `crypto_hash_sha256_init`, `_update` and `_final`. -/
structure Sha256 where
  State : Type
  init : State
  update : State → Bytes → State
  final : State → Key

/-- What is hashed in parts is hashed as a whole. -/
def Sha256.Streams (sha : Sha256) : Prop :=
  ∀ parts : List Bytes, sha.final (parts.foldl sha.update sha.init) =
    sha.final (sha.update sha.init parts.flatten)

def Sha256.digest (sha : Sha256) (content : Bytes) : Key :=
  sha.final (sha.update sha.init content)

def hashBufferSize : Nat := 65536

/-- The loop over what is left of the file: a read that does not fill the buffer has met its end.
The fuel bounds the reads. -/
def Sha256.readLoop (sha : Sha256) : Nat → Bytes → sha.State → sha.State
  | 0,_,state => state
  | fuel+1,rest,state =>
    let chunk := rest.take hashBufferSize
    let full := chunk.length = hashBufferSize
    if full ∨ 0 < chunk.length then
      let state := sha.update state chunk
      if full then sha.readLoop fuel (rest.drop hashBufferSize) state else state
    else state

/-- A failure of nlohmann's library; its text is a parameter. -/
inductive ManifestFault where
  | malformed
  | missing (key : String)
  | notString (key : String)
  deriving DecidableEq, Repr

abbrev Disk := Table String Bytes

/-- What a start of the program brings along: the libraries, the way it was compiled, and what the
dynamic loader finds in a file with some content. -/
structure PluginHost where
  json : JsonLib
  what : ManifestFault → String
  sha : Sha256
  ndebug : Bool
  dlopen : Bytes → Except String Unit := fun _ => .ok ()
  handlerInit : Bytes → Option (InitResult HandlerT) := fun _ => none
  connectorInit : Bytes → Option (InitResult ConnectorOpsT) := fun _ => none

/-- `path::filename`. -/
def fileName (path : String) : String :=
  String.ofList (path.toList.reverse.takeWhile (fun c => c ≠ '/')).reverse

/-- `path::stem`: the name up to its last dot, unless that is its first character. -/
def fileStem (path : String) : String :=
  let name := (fileName path).toList
  let front := (name.reverse.dropWhile (fun c => c ≠ '.')).tail.reverse
  if name = ['.','.'] ∨ front = [] then String.ofList name else String.ofList front

def manifestPath (path : String) : String := path ++ ".json"

/-- `at` and then `get<std::string>`. -/
def Json.stringAt (j : Json) (key : String) : Except ManifestFault Bytes :=
  match j.at key with
  | none => .error (.missing key)
  | some v =>
    match v.getString with
    | none => .error (.notString key)
    | some s => .ok s

section
variable (h : PluginHost)

/-- Without the file the hash is the empty text. -/
def PluginHost.calculateSha256 (disk : Disk) (path : String) : Bytes :=
  match disk.lookup path with
  | none => []
  | some content =>
    let state := h.sha.readLoop (content.length/hashBufferSize+1) content h.sha.init
    bytesOfString (bytesToHex (h.sha.final state).bytes)

/-- What the manifest says the hash is. Name and version are looked at only to log them, which a
build with `NDEBUG` does not. -/
def PluginHost.expectedHash (text : Bytes) : Except ManifestFault Bytes :=
  match h.json.parse text with
  | none => .error .malformed
  | some data =>
    match data.at "meta" with
    | none => .error (.missing "meta")
    | some meta_ =>
      let logged : Except ManifestFault Unit :=
        if h.ndebug then .ok ()
        else (meta_.stringAt "name").bind (fun _ => (meta_.stringAt "version").map (fun _ => ()))
      logged.bind (fun _ =>
        match data.at "integrity" with
        | none => .error (.missing "integrity")
        | some integrity => integrity.stringAt "hash")

def hashMismatch (path : String) (expected actual : Bytes) : String :=
  "Hash mismatch for '" ++ fileName path ++ "': expected " ++ stringOfBytes (expected.take 8) ++
    "..., got " ++ stringOfBytes (actual.take 8) ++ "..."

def PluginHost.verifyMetadata (disk : Disk) (path : String) : Except String Unit :=
  match disk.lookup (manifestPath path) with
  | none => .error ("Plugin manifest missing: " ++ fileName (manifestPath path))
  | some text =>
    match h.expectedHash text with
    | .error fault => .error ("Metadata parse error: " ++ h.what fault)
    | .ok expected =>
      let actual := h.calculateSha256 disk path
      if expected ≠ actual then .error (hashMismatch path expected actual) else .ok ()

/-- All that `load_plugin` comes to see of a path. -/
def PluginHost.file (disk : Disk) (path : String) : PluginFile where
  path := path
  filename := fileName path
  stem := fileStem path
  present := (disk.lookup path).isSome
  metadata := h.verifyMetadata disk path
  dlopen := h.dlopen ((disk.lookup path).getD [])
  handlerInit := h.handlerInit ((disk.lookup path).getD [])
  connectorInit := h.connectorInit ((disk.lookup path).getD [])

end

/-- Plugins and the files they come from. A load is one step: others write before it and after it,
and never between the check of a file and its opening. -/
structure PluginSite where
  disk : Disk := ∅
  pm : PluginManager := {}

inductive SiteEvent where
  | write (path : String) (content : Bytes)
  | remove (path : String)
  | load (path : String)
  | loadStatic (registry : List StaticPluginEntry)
  | unloadHandler (name : String)
  | unloadConnector (scheme : String)
  | setEnabled (name : String) (enabled : Bool)
  | unloadAll

def PluginSite.act (h : PluginHost) (s : PluginSite) : SiteEvent → PluginSite
  | .write path content => { s with disk := s.disk.insert path content }
  | .remove path => { s with disk := s.disk.erase path }
  | .load path => { s with pm := s.pm.act (.load (h.file s.disk path)) }
  | .loadStatic registry => { s with pm := s.pm.act (.loadStatic registry) }
  | .unloadHandler name => { s with pm := s.pm.act (.unloadHandler name) }
  | .unloadConnector scheme => { s with pm := s.pm.act (.unloadConnector scheme) }
  | .setEnabled name enabled => { s with pm := (s.pm.setEnabled name enabled).1 }
  | .unloadAll => { s with pm := s.pm.act .unloadAll }

section
variable {h : PluginHost} {pm pm' : PluginManager}

/-- The loop hashes every byte, in the order of the file. -/
theorem Sha256.readLoop_eq (sha : Sha256) {fuel : Nat} {rest : Bytes}
    (hfuel : rest.length/hashBufferSize < fuel) (state : sha.State) :
    ∃ parts : List Bytes, parts.flatten = rest ∧
      sha.readLoop fuel rest state = parts.foldl sha.update state := by
  induction fuel generalizing rest state with
  | zero => exact absurd hfuel (Nat.not_lt_zero _)
  | succ fuel ih =>
    unfold readLoop
    dsimp only
    by_cases hfull : (rest.take hashBufferSize).length = hashBufferSize
    · have hlen : hashBufferSize ≤ rest.length := by
        rw [List.length_take] at hfull
        omega
      have hless : (rest.drop hashBufferSize).length/hashBufferSize < fuel := by
        unfold hashBufferSize at *
        rw [List.length_drop]
        omega
      obtain ⟨parts,hparts,hloop⟩ := ih hless (sha.update state (rest.take hashBufferSize))
      refine ⟨rest.take hashBufferSize :: parts,?_,?_⟩
      · rw [List.flatten_cons,hparts,List.take_append_drop]
      · rw [if_pos (Or.inl hfull),if_pos hfull,hloop,List.foldl_cons]
    · have hall : rest.take hashBufferSize = rest := by
        rw [List.length_take] at hfull
        exact List.take_of_length_le (by omega)
      rw [hall] at hfull ⊢
      by_cases hsome : 0 < rest.length
      · rw [if_pos (Or.inr hsome),if_neg hfull]
        exact ⟨[rest],by simp,rfl⟩
      · have hnil := List.eq_nil_of_length_eq_zero (Nat.eq_zero_of_not_pos hsome)
        rw [if_neg (by omega)]
        exact ⟨[],by simp [hnil],rfl⟩

/-- The hash of some content as text. -/
def PluginHost.hashText (h : PluginHost) (content : Bytes) : Bytes :=
  bytesOfString (bytesToHex (h.sha.digest content).bytes)

theorem PluginHost.calculateSha256_eq (hs : h.sha.Streams) {disk : Disk} {path : String}
    {content : Bytes} (hc : disk.lookup path = some content) :
    h.calculateSha256 disk path = h.hashText content := by
  obtain ⟨parts,hparts,hloop⟩ := h.sha.readLoop_eq
    (Nat.lt_succ_self (content.length/hashBufferSize)) h.sha.init
  simp only [calculateSha256,hc,Nat.succ_eq_add_one] at hloop ⊢
  rw [hloop,hs parts,hparts]
  rfl

/-- The file and its manifest are there, and the manifest has the hash of all of the file. -/
def PluginHost.Verified (h : PluginHost) (disk : Disk) (path : String) : Prop :=
  ∃ content text, disk.lookup path = some content ∧ disk.lookup (manifestPath path) = some text ∧
    h.expectedHash text = .ok (h.hashText content)

theorem PluginHost.verifyMetadata_ok (hs : h.sha.Streams) {disk : Disk} {path : String}
    {content : Bytes} (hc : disk.lookup path = some content) :
    h.verifyMetadata disk path = .ok () ↔ h.Verified disk path := by
  unfold verifyMetadata Verified
  rw [h.calculateSha256_eq hs hc]
  cases hm : disk.lookup (manifestPath path) with
  | none => simp
  | some text =>
    cases he : h.expectedHash text with
    | error fault => simp [hc,he]
    | ok expected =>
      dsimp only
      by_cases heq : expected = h.hashText content
      · simp [hc,he,heq]
      · simp [hc,he,heq]

/-- A file is opened exactly if it is verified and the loader takes it. -/
theorem PluginHost.file_opens (hs : h.sha.Streams) (disk : Disk) (path : String) :
    PluginManager.PluginFile.opens (h.file disk path) ↔
      h.Verified disk path ∧ h.dlopen ((disk.lookup path).getD []) = .ok () := by
  unfold PluginManager.PluginFile.opens
  cases hc : disk.lookup path with
  | none =>
    have hnot : ¬h.Verified disk path := by
      rintro ⟨content,_,hv,_⟩
      rw [hc] at hv
      cases hv
    simp [file,hc,hnot]
  | some content => simp [file,hc,h.verifyMetadata_ok hs hc]

/-- The plugins whose library was opened, by their numbers. -/
def PluginManager.openedSlots (pm : PluginManager) : List Nat :=
  pm.trace.filterMap (fun e => if e.2 = .opened then some e.1 else none)

/-- Whatever has been done since, no library was opened. -/
def PluginManager.Unopened (pm pm' : PluginManager) : Prop :=
  ∃ new, pm'.trace = pm.trace ++ new ∧ ∀ e ∈ new, e.2 ≠ PluginAct.opened

namespace PluginManager

theorem Unopened.of_trace (ht : pm'.trace = pm.trace) : pm.Unopened pm' :=
  ⟨[],by simp [ht],by simp⟩

theorem Unopened.trans {pm'' : PluginManager} (h : pm.Unopened pm') (h' : pm'.Unopened pm'') :
    pm.Unopened pm'' := by
  obtain ⟨a,ha,hsa⟩ := h
  obtain ⟨b,hb,hsb⟩ := h'
  refine ⟨a ++ b,by rw [hb,ha,List.append_assoc],fun e he => ?_⟩
  rcases List.mem_append.mp he with he | he
  · exact hsa e he
  · exact hsb e he

theorem Unopened.does (pm : PluginManager) (slot : Nat) {acts : List PluginAct}
    (ha : PluginAct.opened ∉ acts) :
    pm.Unopened (pm.does slot acts) := by
  refine ⟨_,rfl,fun e he ho => ?_⟩
  obtain ⟨a,hmem,rfl⟩ := List.mem_map.mp he
  exact ha (ho ▸ hmem)

theorem lastActs_unopened (lib shutdown : Bool) : PluginAct.opened ∉ lastActs lib shutdown := by
  cases lib <;> cases shutdown <;> simp [lastActs]

theorem Unopened.slots (h : pm.Unopened pm') : pm'.openedSlots = pm.openedSlots := by
  obtain ⟨new,ht,hs⟩ := h
  unfold openedSlots
  rw [ht,List.filterMap_append]
  have hnone : new.filterMap (fun e => if e.2 = PluginAct.opened then some e.1 else none) = [] :=
    List.filterMap_eq_nil_iff.mpr (fun e he => if_neg (hs e he))
  rw [hnone,List.append_nil]

theorem admitHandler_unopened (pm : PluginManager) (lib : Bool) (path fallback : String)
    (init : InitResult HandlerT) : pm.Unopened (pm.admitHandler lib path fallback init).1 := by
  have hslot : pm.Unopened { pm with slots := pm.slots+1 } := .of_trace rfl
  unfold admitHandler
  dsimp only
  split
  · rename_i h
    have hinit := hslot.trans (.does _ pm.slots
      (show PluginAct.opened ∉ [PluginAct.initialised h.shutdown] by simp))
    split
    · exact hinit.trans (.does _ _ (lastActs_unopened _ _))
    · exact hinit.trans (.of_trace rfl)
  · exact hslot.trans (.does _ _ (lastActs_unopened _ _))

theorem admitConnector_unopened (pm : PluginManager) (lib : Bool) (path fallback : String)
    (init : InitResult ConnectorOpsT) :
    pm.Unopened (pm.admitConnector lib path fallback init).1 := by
  have hslot : pm.Unopened { pm with slots := pm.slots+1 } := .of_trace rfl
  unfold admitConnector
  dsimp only
  split
  · rename_i ops
    have hinit := hslot.trans (.does _ pm.slots
      (show PluginAct.opened ∉ [PluginAct.initialised ops.shutdown] by simp))
    split
    · exact hinit.trans (.does _ _ (lastActs_unopened _ _))
    · split
      · exact hinit.trans (.does _ _ (lastActs_unopened _ _))
      · exact hinit.trans (.of_trace rfl)
  · exact hslot.trans (.does _ _ (lastActs_unopened _ _))

theorem loadStaticPlugins_unopened (registry : List StaticPluginEntry) (pm : PluginManager) :
    pm.Unopened (pm.loadStaticPlugins registry) := by
  unfold loadStaticPlugins
  induction registry generalizing pm with
  | nil => exact .of_trace rfl
  | cons entry rest ih =>
    have hone : pm.Unopened (pm.loadStaticPlugin entry) := by
      unfold loadStaticPlugin
      split
      · exact admitHandler_unopened _ _ _ _ _
      · split
        · exact admitConnector_unopened _ _ _ _ _
        · exact .of_trace rfl
    exact hone.trans (ih _)

theorem foldl_unopened {α : Type} {f : PluginManager → α → PluginManager}
    (hf : ∀ (pm : PluginManager) a, pm.Unopened (f pm a)) (l : List α) (pm : PluginManager) :
    pm.Unopened (l.foldl f pm) := by
  induction l generalizing pm with
  | nil => exact .of_trace rfl
  | cons a l ih => exact (hf pm a).trans (ih _)

theorem unloadAll_unopened (pm : PluginManager) : pm.Unopened pm.unloadAll := by
  have hfirst := foldl_unopened (fun pm (e : Sigma (fun _ : String => HandlerInfo)) =>
    (Unopened.does pm e.2.slot (lastActs_unopened e.2.lib e.2.shutsDown)))
    pm.handlers.entries { pm with handlers := ∅ }
  have hstart : pm.Unopened { pm with handlers := ∅ } := .of_trace rfl
  exact (hstart.trans hfirst).trans ((Unopened.of_trace rfl).trans
    (foldl_unopened (fun pm (e : Sigma (fun _ : String => ConnectorInfo)) =>
      (Unopened.does pm e.2.slot (lastActs_unopened e.2.lib e.2.shutsDown))) _ _))

/-- Loading opens the file, or it does nothing at all. -/
theorem loadPlugin_openedSlots (pm : PluginManager) (f : PluginFile) :
    PluginFile.opens f ∧ (pm.loadPlugin f).1.openedSlots = pm.openedSlots ++ [pm.slots] ∨
    ¬PluginFile.opens f ∧ (pm.loadPlugin f).1 = pm := by
  have hopened : (pm.does pm.slots [.opened]).openedSlots = pm.openedSlots ++ [pm.slots] := by
    simp [PluginManager.does,openedSlots]
  have hrefused : ∀ (error : Refusal → String) (r : PluginManager × Option Refusal),
      (refused error r).1 = r.1 := by
    intro error r
    unfold refused
    split <;> rfl
  unfold loadPlugin PluginFile.opens
  cases hp : f.present with
  | false =>
    right
    simp
  | true =>
    simp only [Bool.true_eq_false,if_false]
    cases hm : f.metadata with
    | error e => right; simp
    | ok u =>
      cases hd : f.dlopen with
      | error e => right; simp
      | ok u =>
        left
        refine ⟨by simp,?_⟩
        dsimp only
        split
        · rw [hrefused,(admitHandler_unopened _ _ _ _ _).slots,hopened]
        · split
          · rw [hrefused,(admitConnector_unopened _ _ _ _ _).slots,hopened]
          · have hclosed : (pm.does pm.slots [.opened]).Unopened
                { (pm.does pm.slots [.opened]).does pm.slots [.closed] with slots := pm.slots+1 } :=
              (Unopened.does _ pm.slots (by simp)).trans (.of_trace rfl)
            rw [hclosed.slots,hopened]

end PluginManager

end

/-- An event opens nothing, or it is a load of a verified file, which it gives the next number. -/
theorem PluginSite.act_openedSlots {h : PluginHost} (hs : h.sha.Streams) (s : PluginSite)
    (e : SiteEvent) :
    (s.act h e).pm.openedSlots = s.pm.openedSlots ∨
    ∃ path, e = .load path ∧ h.Verified s.disk path ∧
      (s.act h e).pm.openedSlots = s.pm.openedSlots ++ [s.pm.slots] := by
  cases e with
  | write path content => exact .inl rfl
  | remove path => exact .inl rfl
  | load path =>
    rcases s.pm.loadPlugin_openedSlots (h.file s.disk path) with ⟨ho,hslots⟩ | ⟨_,hsame⟩
    · exact .inr ⟨path,rfl,((h.file_opens hs s.disk path).mp ho).1,hslots⟩
    · exact .inl (congrArg PluginManager.openedSlots hsame)
  | loadStatic registry => exact .inl (PluginManager.loadStaticPlugins_unopened registry s.pm).slots
  | unloadHandler name =>
    refine .inl (PluginManager.Unopened.slots ?_)
    simp only [act,PluginManager.act,PluginManager.unloadHandler]
    split
    · exact .of_trace rfl
    · exact (PluginManager.Unopened.of_trace rfl).trans
        (.does _ _ (PluginManager.lastActs_unopened _ _))
  | unloadConnector scheme =>
    refine .inl (PluginManager.Unopened.slots ?_)
    simp only [act,PluginManager.act,PluginManager.unloadConnector]
    split
    · exact .of_trace rfl
    · exact (PluginManager.Unopened.of_trace rfl).trans
        (.does _ _ (PluginManager.lastActs_unopened _ _))
  | setEnabled name enabled =>
    refine .inl (PluginManager.Unopened.slots ?_)
    simp only [act,PluginManager.setEnabled]
    split <;> exact .of_trace rfl
  | unloadAll => exact .inl s.pm.unloadAll_unopened.slots

theorem PluginSite.run_openedSlots {h : PluginHost} (hs : h.sha.Streams) {events : List SiteEvent}
    {slot : Nat} (s : PluginSite) (hslot : slot ∈ (run (act h) s events).pm.openedSlots) :
    slot ∈ s.pm.openedSlots ∨
    ∃ before path after, events = before ++ .load path :: after ∧
      (run (act h) s before).pm.slots = slot ∧ h.Verified (run (act h) s before).disk path := by
  induction events generalizing s with
  | nil => exact .inl hslot
  | cons e rest ih =>
    rcases ih (s.act h e) hslot with hmem | ⟨before,path,after,rfl,hnum,hver⟩
    · rcases s.act_openedSlots hs e with hsame | ⟨path,rfl,hver,hnew⟩
      · rw [hsame] at hmem
        exact .inl hmem
      · rw [hnew] at hmem
        rcases List.mem_append.mp hmem with hmem | hmem
        · exact .inl hmem
        · exact .inr ⟨[],path,rest,rfl,(List.mem_singleton.mp hmem).symm,hver⟩
    · exact .inr ⟨e :: before,path,after,rfl,hnum,hver⟩

/-- In every run, whoever writes files and manifests between two loads: a plugin whose library was
opened came from a file that, when it was loaded, had a manifest with the hash of all its bytes. At
the end of the run such a file is opened, if the loader takes it, and of any other nothing is
executed. -/
theorem opened_plugins_verified (h : PluginHost) (hs : h.sha.Streams) (events : List SiteEvent) :
    let s := run (PluginSite.act h) {} events
    (∀ slot ∈ s.pm.openedSlots, ∃ before path after, events = before ++ .load path :: after ∧
      (run (PluginSite.act h) {} before).pm.slots = slot ∧
      h.Verified (run (PluginSite.act h) {} before).disk path) ∧
    ∀ path,
      (h.Verified s.disk path → h.dlopen ((s.disk.lookup path).getD []) = .ok () →
        (s.act h (.load path)).pm.openedSlots = s.pm.openedSlots ++ [s.pm.slots]) ∧
      (¬h.Verified s.disk path → (s.act h (.load path)).pm = s.pm) := by
  intro s
  refine ⟨fun slot hslot => ?_,fun path => ?_⟩
  · rcases PluginSite.run_openedSlots hs {} hslot with hnone | hfound
    · simp [PluginManager.openedSlots] at hnone
    · exact hfound
  · have hopens := h.file_opens hs s.disk path
    rcases s.pm.loadPlugin_openedSlots (h.file s.disk path) with ⟨ho,hslots⟩ | ⟨hnot,hsame⟩
    · exact ⟨fun _ _ => hslots,fun hv => absurd (hopens.mp ho).1 hv⟩
    · exact ⟨fun hv hd => absurd (hopens.mpr ⟨hv,hd⟩) hnot,fun _ => hsame⟩

/-- A stand-in that keeps what it is given; its texts are manifests with that hash. -/
def samplePluginHost : PluginHost where
  json :=
    { parse := fun text => some (.object
        [("integrity",.object [("hash",.string text)]),
          ("meta",.object [("name",.string []),("version",.string [])])])
      dump := fun _ => none }
  what := fun _ => ""
  sha := ⟨Bytes,[],fun state part => state ++ part,Block.ofBytes 32⟩
  ndebug := false
  handlerInit := fun _ => some (0,some { name := some "echo" })

theorem samplePluginHost_streams : samplePluginHost.sha.Streams := by
  intro parts
  have hfold : ∀ state : Bytes, parts.foldl (fun state part => state ++ part) state =
      state ++ parts.flatten := by
    induction parts with
    | nil => simp
    | cons part parts ih => simp [ih]
  exact congrArg (Block.ofBytes 32) (hfold [])

/-- A file, its manifest, and a load. -/
def echoLoaded : List SiteEvent :=
  [.write "plugins/echo.so" [1,2,3],
    .write "plugins/echo.so.json" (samplePluginHost.hashText [1,2,3]),.load "plugins/echo.so"]

theorem opened_plugins_verified_echo :
    ∃ before path after, echoLoaded = before ++ .load path :: after ∧
      (run (PluginSite.act samplePluginHost) {} before).pm.slots = 0 ∧
      samplePluginHost.Verified (run (PluginSite.act samplePluginHost) {} before).disk path :=
  (opened_plugins_verified samplePluginHost samplePluginHost_streams echoLoaded).1 0
    (by decide +kernel)

/-- A file that is changed after its first load is not opened again. -/
example : (run (PluginSite.act samplePluginHost) {}
    (echoLoaded ++ [.unloadAll,.write "plugins/echo.so" [1,2,4],
      .load "plugins/echo.so"])).pm.openedSlots = [0] := by
  decide +kernel

end GoodNet
