import GoodNet.ConfigJson
import GoodNet.MachineId
import GoodNet.ManagerRun
import GoodNet.SshKeyPem
import Mathlib.Data.List.TakeWhile
set_option autoImplicit false

/-! `core/cm/identity.cpp` and `core/crypto/machine_id.cpp`: where a node takes its identity from.
A key is loaded from a file or generated and saved there, so that the next start finds it. -/

namespace GoodNet
open Codec LengthPrefixed

/-- Files under their numbers; two paths may lead to one file. -/
abbrev Files := Table Nat Bytes

/-- What a start depends on apart from the files. -/
structure Host where
  sodium : Sodium
  base64 : Base64Decoder
  seedKeypair : SeedKeypair
  hardware : Hardware := {}
  listing : List NetInterface := []
  /-- `HOME`. -/
  home : Option Bytes := none
  locate : Bytes → Nat
  reads : Nat → Bool := fun _ => true
  writes : Nat → Bool := fun _ => true
  /-- `fs::create_directories` makes it or finds it. -/
  makesDir : Bytes → Bool := fun _ => true

/-- What a start draws: two key pairs and 32 bytes. -/
structure Draws where
  user : Key × Block 64
  device : Key × Block 64
  machine : Key

/-- `fs::path`'s `operator/` with a name. -/
def joinPath (dir name : Bytes) : Bytes :=
  if dir = [] ∨ dir.getLast? = some 47 then dir ++ name else dir ++ 47 :: name

def userKeyName : Bytes := bytesOfString "user_key"
def deviceKeyName : Bytes := bytesOfString "device_key"
def machineIdName : Bytes := bytesOfString "machine_id"

section
variable (h : Host)

/-- What opening a file for reading gives. -/
def Host.open (files : Files) (path : Bytes) : Option Bytes :=
  if h.reads (h.locate path) then files.lookup (h.locate path) else none

/-- The directory is there by now; `none` is the exception. -/
def Host.saveKey (files : Files) (path : Bytes) (key : Block 64) : Option Files :=
  if h.writes (h.locate path) then some (files.insert (h.locate path) key.bytes) else none

/-- The content of a file of the right size that can be read. -/
def Host.storedKey (files : Files) (path : Bytes) : Option Bytes :=
  (h.open files path).filter (fun content => content.length = 64)

/-- The public key is the second half of the secret one. -/
def Host.loadOrGenKeypair (files : Files) (path : Bytes) (drawn : Key × Block 64) :
    Option ((Key × Block 64) × Files) :=
  match h.storedKey files path with
  | some content => some ((Block.ofBytes 32 (content.drop 32),Block.ofBytes 64 content),files)
  | none => (h.saveKey files path drawn.2).map (fun saved => (drawn,saved))

/-- `HOME/.ssh/id_ed25519`. -/
def Host.homeKey : Bytes :=
  joinPath (joinPath (h.home.getD (bytesOfString ".")) (bytesOfString ".ssh"))
    (bytesOfString "id_ed25519")

/-- `try_load_ssh_key` with what is already in the target. -/
def Host.tryKey (files : Files) (path : Bytes) (load : SshLoad) : Option SshLoad :=
  tryLoadSshKey h.base64 (h.open files path) load.outPub load.outSec

/-- The configured key, or else the one in the home directory. -/
def Host.loadSshKey (cfg : Config.Identity) (files : Files) : Option SshLoad :=
  let unset : SshLoad := ⟨false,Block.zero 32,Block.zero 64⟩
  (if cfg.sshKeyPath = [] then some unset else h.tryKey files cfg.sshKeyPath unset).bind
    (fun load =>
      if load.ok ∨ cfg.skipSshFallback then some load else h.tryKey files h.homeKey load)

def Host.loadUserKey (cfg : Config.Identity) (files : Files) (drawn : Key × Block 64) :
    Option ((Key × Block 64) × Files) :=
  (h.loadSshKey cfg files).bind (fun load =>
    if load.ok then some ((load.outPub,load.outSec),files)
    else h.loadOrGenKeypair files (joinPath cfg.dir userKeyName) drawn)

/-- `MachineId::get_or_create`. An id that cannot be written is used all the same. -/
def Host.getOrCreate (dir : Bytes) (files : Files) (drawn : Key) : Bytes × Files :=
  let id := bytesOfString (MachineId.read h.sodium h.hardware h.listing)
  let path := joinPath dir machineIdName
  let stored := readFile ((h.open files path).getD [])
  if id ≠ [] then (id,files)
  else if stored ≠ [] then (stored,files)
  else
    let made := bytesOfString (bytesToHex drawn.bytes)
    (made,if h.writes (h.locate path) then files.insert (h.locate path) made else files)

/-- `derive_device_keypair`. -/
def Host.deriveDeviceKeypair (mid : Bytes) (upk : Key) : Key × Block 64 :=
  h.seedKeypair (h.sodium.generichash [] (mid ++ upk.bytes))

def Host.loadDeviceKey (cfg : Config.Identity) (files : Files) (upk : Key) (draws : Draws) :
    Option ((Key × Block 64) × Files) :=
  let path := joinPath cfg.dir deviceKeyName
  if cfg.useMachineId then
    let mid := h.getOrCreate cfg.dir files draws.machine
    if mid.1 ≠ [] then some (h.deriveDeviceKeypair mid.1 upk,mid.2)
    else h.loadOrGenKeypair mid.2 path draws.device
  else h.loadOrGenKeypair files path draws.device

/-- `load_or_generate`; `none` is an exception. -/
def Host.loadOrGenerate (cfg : Config.Identity) (files : Files) (draws : Draws) :
    Option (NodeIdentity × Files) :=
  if h.makesDir cfg.dir then
    (h.loadUserKey cfg files draws.user).bind (fun user =>
      (h.loadDeviceKey cfg user.2 user.1.1 draws).map (fun device =>
        (⟨user.1.1,user.1.2,device.1.1,device.1.2⟩,device.2)))
  else none

/-- `rotate_identity_keys`: another start, and its identity from now on. -/
def Host.rotateIdentityKeys (cfg : Config.Identity) (draws : Draws) (st : Impl) (files : Files) :
    Option (Impl × Files) :=
  (h.loadOrGenerate cfg files draws).map (fun next => (st.rotateIdentityKeys next.1,next.2))

/-- The files are apart where they have to be, and what a start writes the next one can read. -/
structure Host.Sound (cfg : Config.Identity) : Prop where
  /-- The decoder has a buffer of the size of its text. -/
  short : ∀ text raw, h.base64 text = some raw → raw.length ≤ text.length
  readable : ∀ file, h.writes file = true → h.reads file = true
  device : ∀ path ∈ [joinPath cfg.dir userKeyName,cfg.sshKeyPath,h.homeKey],
    h.locate path ≠ h.locate (joinPath cfg.dir deviceKeyName)
  machine : ∀ path ∈ [joinPath cfg.dir userKeyName,cfg.sshKeyPath,h.homeKey,
      joinPath cfg.dir deviceKeyName],
    h.locate path ≠ h.locate (joinPath cfg.dir machineIdName)

/-- A machine id that is made up is also stored. -/
def Host.StoresMachineId (cfg : Config.Identity) : Prop :=
  cfg.useMachineId = true → MachineId.read h.sodium h.hardware h.listing = "" →
    h.writes (h.locate (joinPath cfg.dir machineIdName)) = true

/-- libsodium keeps the public key in the second half of the secret one. -/
def Draws.Halved (draws : Draws) : Prop :=
  draws.user.1.bytes = draws.user.2.bytes.drop 32 ∧
  draws.device.1.bytes = draws.device.2.bytes.drop 32

/-- The key of OpenSSH that is found under a path. -/
def Host.keyAt (files : Files) (path : Bytes) : Option (Bytes × Bytes) :=
  (h.open files path).bind (loadedKey h.base64)

/-- The one that is taken. -/
def Host.sshKeyAt (cfg : Config.Identity) (files : Files) : Option (Bytes × Bytes) :=
  (if cfg.sshKeyPath = [] then none else h.keyAt files cfg.sshKeyPath).or
    (if cfg.skipSshFallback then none else h.keyAt files h.homeKey)

end

section
variable {h : Host} {cfg : Config.Identity} {files files₁ files₂ : Files} {path : Bytes}

theorem Host.tryKey_eq (load : SshLoad) : h.tryKey files path load =
    some (match h.keyAt files path with
      | none => { load with ok := false }
      | some (pub,sec) => ⟨true,Block.ofBytes 32 pub,Block.ofBytes 64 sec⟩) := by
  unfold tryKey keyAt
  cases h.open files path with
  | none => rfl
  | some pem => exact tryLoadSshKey_eq h.base64 pem load.outPub load.outSec

theorem Host.loadUserKey_eq (drawn : Key × Block 64) : h.loadUserKey cfg files drawn =
    match h.sshKeyAt cfg files with
    | some (pub,sec) => some ((Block.ofBytes 32 pub,Block.ofBytes 64 sec),files)
    | none => h.loadOrGenKeypair files (joinPath cfg.dir userKeyName) drawn := by
  unfold loadUserKey loadSshKey sshKeyAt
  simp only [tryKey_eq]
  cases hssh : decide (cfg.sshKeyPath = []) <;> cases hskip : cfg.skipSshFallback <;>
    cases hkey : h.keyAt files cfg.sshKeyPath <;> cases hhome : h.keyAt files h.homeKey <;>
    simp_all

/-- A file of 64 bytes is too small for a container. -/
theorem loadedKey_small (hshort : ∀ text raw, h.base64 text = some raw → raw.length ≤ text.length)
    {pem : Bytes} (hpem : pem.length ≤ 64) : loadedKey h.base64 pem = none := by
  cases hkey : loadedKey h.base64 pem with
  | none => rfl
  | some pair =>
    obtain ⟨pub,sec⟩ := pair
    unfold loadedKey at hkey
    split at hkey
    · rename_i bp ep _ _
      have hc := parseContainer_eq_some.mp hkey
      have htext : (pemText pem bp ep).length ≤ 64 := by
        unfold pemText
        dsimp only
        split
        · rw [List.length_drop]
          omega
        · rw [List.length_take,List.length_drop]
          omega
      have hraw : (base64Decode h.base64 (pemText pem bp ep)).length ≤ 64 := by
        unfold base64Decode
        cases hd : h.base64 (pemText pem bp ep) with
        | none => simp
        | some raw => exact (hshort _ _ hd).trans htext
      obtain ⟨_,_,_,_,priv,_,_,hb,_,_,_,_,p,s,_,hs,_,hp,hsec,hpl,hsl⟩ := hc
      rw [hb] at hraw
      have hpriv : 96 ≤ priv.bytes.length := by
        rw [hs]
        simp only [List.length_append,Field.encode_length,hp,hsec,hpl,hsl]
        omega
      simp only [List.length_append,Field.encode_length] at hraw
      omega
    · cases hkey

theorem Host.open_congr (hl : files₁.lookup (h.locate path) = files.lookup (h.locate path)) :
    h.open files₁ path = h.open files path := by
  simp [Host.open,hl]

/-- After a call the key is in the file, and no other file has changed. -/
theorem Host.loadOrGenKeypair_file {drawn k : Key × Block 64}
    (hread : ∀ file, h.writes file = true → h.reads file = true)
    (hdrawn : drawn.1.bytes = drawn.2.bytes.drop 32)
    (hk : h.loadOrGenKeypair files path drawn = some (k,files₁)) :
    (∀ file, file ≠ h.locate path → files₁.lookup file = files.lookup file) ∧
    ∃ content, h.open files₁ path = some content ∧ content.length = 64 ∧
      k = (Block.ofBytes 32 (content.drop 32),Block.ofBytes 64 content) := by
  unfold loadOrGenKeypair at hk
  split at hk
  · rename_i content hc
    cases hk
    obtain ⟨ho,hlen⟩ := Option.filter_eq_some_iff.mp hc
    exact ⟨fun _ _ => rfl,content,ho,by simpa using hlen,rfl⟩
  · unfold saveKey at hk
    split at hk
    · rename_i hw
      cases hk
      refine ⟨fun file hf => AList.lookup_insert_ne hf,drawn.2.bytes,?_,drawn.2.size_eq,?_⟩
      · simp [Host.open,hread _ hw]
      · simp [← hdrawn]
    · cases hk

/-- Such a file is loaded. -/
theorem Host.loadOrGenKeypair_stored {content : Bytes} (ho : h.open files path = some content)
    (hlen : content.length = 64) (drawn : Key × Block 64) : h.loadOrGenKeypair files path drawn =
      some ((Block.ofBytes 32 (content.drop 32),Block.ofBytes 64 content),files) := by
  simp [loadOrGenKeypair,storedKey,ho,Option.filter,hlen]

/-- A key that was generated is not taken for one of OpenSSH. -/
theorem Host.keyAt_saved {path' content : Bytes}
    (hshort : ∀ text raw, h.base64 text = some raw → raw.length ≤ text.length)
    (hnone : h.keyAt files path' = none)
    (hother : ∀ file, file ≠ h.locate path → files₁.lookup file = files.lookup file)
    (ho : h.open files₁ path = some content) (hlen : content.length = 64)
    (hsame : files₂.lookup (h.locate path') = files₁.lookup (h.locate path')) :
    h.keyAt files₂ path' = none := by
  unfold keyAt at hnone ⊢
  rw [open_congr hsame]
  by_cases hp : h.locate path' = h.locate path
  · have hp' : h.open files₁ path' = some content := by
      rw [← ho]
      unfold Host.open
      rw [hp]
    rw [hp']
    exact loadedKey_small hshort hlen.le
  · rw [open_congr (hother _ hp)]
    exact hnone

/-- The user key is found again, whatever else has changed. -/
theorem Host.loadUserKey_again {drawn k : Key × Block 64} (hs : h.Sound cfg)
    (hdrawn : drawn.1.bytes = drawn.2.bytes.drop 32)
    (hk : h.loadUserKey cfg files drawn = some (k,files₁))
    (hsame : ∀ path ∈ [joinPath cfg.dir userKeyName,cfg.sshKeyPath,h.homeKey],
      files₂.lookup (h.locate path) = files₁.lookup (h.locate path)) (drawn' : Key × Block 64) :
    h.loadUserKey cfg files₂ drawn' = some (k,files₂) := by
  have huser := hsame (joinPath cfg.dir userKeyName) (by simp)
  have hssh := hsame cfg.sshKeyPath (by simp)
  have hhome := hsame h.homeKey (by simp)
  rw [loadUserKey_eq] at hk ⊢
  cases hfound : h.sshKeyAt cfg files with
  | some pair =>
    rw [hfound] at hk
    cases hk
    have hagain : h.sshKeyAt cfg files₂ = some pair := by
      rw [← hfound]
      simp only [sshKeyAt,keyAt,open_congr hssh,open_congr hhome]
    rw [hagain]
  | none =>
    rw [hfound] at hk
    obtain ⟨hother,content,ho,hlen,rfl⟩ := loadOrGenKeypair_file hs.readable hdrawn hk
    have hagain : h.sshKeyAt cfg files₂ = none := by
      obtain ⟨hone,htwo⟩ := Option.or_eq_none_iff.mp hfound
      refine Option.or_eq_none_iff.mpr ⟨?_,?_⟩
      · split
        · rfl
        · rename_i hne
          rw [if_neg hne] at hone
          exact keyAt_saved hs.short hone hother ho hlen hssh
      · split
        · rfl
        · rename_i hskip
          rw [if_neg hskip] at htwo
          exact keyAt_saved hs.short htwo hother ho hlen hhome
    rw [hagain]
    exact loadOrGenKeypair_stored ((open_congr huser).trans ho) hlen drawn'

theorem hexDigit_plain : ∀ n : Fin 16, let c := UInt8.ofNat (hexDigit n).toNat
    c ≠ 10 ∧ isSpace c = false ∧ c ≠ 45 := by decide

/-- A machine id is read as it was written. -/
theorem readFile_hex (b : Bytes) :
    readFile (bytesOfString (bytesToHex b)) = bytesOfString (bytesToHex b) := by
  have hplain : ∀ c ∈ bytesOfString (bytesToHex b), c ≠ 10 ∧ isSpace c = false ∧ c ≠ 45 := by
    intro c hc
    simp only [bytesOfString,bytesToHex,String.toList_ofList,List.mem_map,List.mem_flatMap] at hc
    obtain ⟨d,⟨x,_,hd⟩,rfl⟩ := hc
    have hx := x.toNat_lt
    simp only [List.mem_cons,List.not_mem_nil,or_false] at hd
    rcases hd with rfl | rfl
    · exact hexDigit_plain ⟨x.toNat/16,by omega⟩
    · exact hexDigit_plain ⟨x.toNat%16,by omega⟩
  have hline : (bytesOfString (bytesToHex b)).takeWhile (fun c => c ≠ 10) =
      bytesOfString (bytesToHex b) :=
    List.takeWhile_eq_self_iff.mpr (fun c hc => by simpa using (hplain c hc).1)
  unfold readFile
  rw [hline]
  exact List.filter_eq_self.mpr (fun c hc => by simp [hplain c hc])

theorem Host.getOrCreate_ne_nil (dir : Bytes) (drawn : Key) :
    (h.getOrCreate dir files drawn).1 ≠ [] := by
  unfold getOrCreate
  dsimp only
  split
  · assumption
  · split
    · assumption
    · have hlen : (bytesOfString (bytesToHex drawn.bytes)).length = 64 := by
        simp [bytesOfString,bytesToHex,List.length_flatMap]
      exact List.ne_nil_of_length_eq_add_one hlen

/-- The machine id is found again. -/
theorem Host.getOrCreate_again {dir mid : Bytes} {drawn : Key}
    (hread : ∀ file, h.writes file = true → h.reads file = true)
    (hstore : MachineId.read h.sodium h.hardware h.listing = "" →
      h.writes (h.locate (joinPath dir machineIdName)) = true)
    (hk : h.getOrCreate dir files drawn = (mid,files₁)) :
    (∀ file, file ≠ h.locate (joinPath dir machineIdName) →
      files₁.lookup file = files.lookup file) ∧
    ∀ files₂ : Files, files₂.lookup (h.locate (joinPath dir machineIdName)) =
      files₁.lookup (h.locate (joinPath dir machineIdName)) →
      ∀ drawn' : Key, h.getOrCreate dir files₂ drawn' = (mid,files₂) := by
  unfold getOrCreate at hk ⊢
  dsimp only at hk ⊢
  by_cases hid : bytesOfString (MachineId.read h.sodium h.hardware h.listing) = []
  · simp only [hid,ne_eq,not_true_eq_false,if_false] at hk ⊢
    split at hk
    · rename_i hstored
      cases hk
      refine ⟨fun _ _ => rfl,fun files₂ hsame drawn' => ?_⟩
      rw [open_congr hsame,if_pos hstored]
    · have hempty : MachineId.read h.sodium h.hardware h.listing = "" := by
        simpa [bytesOfString] using hid
      have hw := hstore hempty
      rw [if_pos hw] at hk
      cases hk
      refine ⟨fun file hf => AList.lookup_insert_ne hf,fun files₂ hsame drawn' => ?_⟩
      have hopen : h.open files₂ (joinPath dir machineIdName) =
          some (bytesOfString (bytesToHex drawn.bytes)) := by
        rw [open_congr hsame]
        simp [Host.open,hread _ hw]
      have hlen : (bytesOfString (bytesToHex drawn.bytes)).length = 64 := by
        simp [bytesOfString,bytesToHex,List.length_flatMap]
      rw [hopen,Option.getD_some,readFile_hex,if_pos (List.ne_nil_of_length_eq_add_one hlen)]
  · simp only [ne_eq,hid,not_false_eq_true,if_true] at hk ⊢
    cases hk
    exact ⟨fun _ _ => rfl,fun _ _ _ => rfl⟩

/-- The device key too, and for it only two files may have changed. -/
theorem Host.loadDeviceKey_again {draws : Draws} {upk : Key} {k : Key × Block 64}
    (hs : h.Sound cfg) (hm : h.StoresMachineId cfg) (hd : draws.Halved)
    (hk : h.loadDeviceKey cfg files upk draws = some (k,files₁)) :
    (∀ file, file ≠ h.locate (joinPath cfg.dir deviceKeyName) →
      file ≠ h.locate (joinPath cfg.dir machineIdName) → files₁.lookup file = files.lookup file) ∧
    ∀ later : Draws, h.loadDeviceKey cfg files₁ upk later = some (k,files₁) := by
  unfold loadDeviceKey at hk ⊢
  dsimp only at hk ⊢
  by_cases huse : cfg.useMachineId = true
  · simp only [if_pos huse,ne_eq,getOrCreate_ne_nil,not_false_eq_true,if_true] at hk ⊢
    cases hgot : h.getOrCreate cfg.dir files draws.machine with
    | mk mid files' =>
      rw [hgot] at hk
      cases hk
      obtain ⟨hother,hagain⟩ := getOrCreate_again hs.readable (hm huse) hgot
      refine ⟨fun file _ hf => hother file hf,fun later => ?_⟩
      rw [hagain _ rfl later.machine]
  · rw [if_neg huse] at hk
    simp only [if_neg huse]
    obtain ⟨hother,content,ho,hlen,rfl⟩ := loadOrGenKeypair_file hs.readable hd.2 hk
    exact ⟨fun file hf _ => hother file hf,fun later => loadOrGenKeypair_stored ho hlen later.device⟩

/-- What one start has left behind, any other start takes up as it is. -/
theorem Host.loadOrGenerate_again {draws : Draws} {id : NodeIdentity} (hs : h.Sound cfg)
    (hm : h.StoresMachineId cfg) (hd : draws.Halved)
    (hload : h.loadOrGenerate cfg files draws = some (id,files₁)) (later : Draws) :
    h.loadOrGenerate cfg files₁ later = some (id,files₁) := by
  unfold loadOrGenerate at hload ⊢
  split at hload
  · rename_i hdir
    obtain ⟨⟨user,mid⟩,huser,hload⟩ := Option.bind_eq_some_iff.mp hload
    obtain ⟨⟨device,last⟩,hdevice,hload⟩ := Option.map_eq_some_iff.mp hload
    cases hload
    obtain ⟨hother,hagain⟩ := loadDeviceKey_again hs hm hd hdevice
    have hsame : ∀ path ∈ [joinPath cfg.dir userKeyName,cfg.sshKeyPath,h.homeKey],
        last.lookup (h.locate path) = mid.lookup (h.locate path) := by
      intro path hp
      refine hother _ (hs.device path hp) (hs.machine path ?_)
      simp only [List.mem_cons,List.not_mem_nil,or_false] at hp ⊢
      grind
    rw [if_pos hdir,loadUserKey_again hs hd.1 huser hsame later.user,Option.bind_some,
      hagain later,Option.map_some]
  · cases hload

end

/-- The identities of some starts, one after the other. -/
def Host.starts (h : Host) (cfg : Config.Identity) :
    List Draws → Files → Option (List NodeIdentity × Files)
  | [], files => some ([],files)
  | draws :: rest, files =>
    (h.loadOrGenerate cfg files draws).bind (fun first =>
      (h.starts cfg rest first.2).map (fun others => (first.1 :: others.1,others.2)))

/-- Once a node has started, every later start gives the same identity, writes nothing and does not
fail, whatever is drawn; and rotating the keys of a running node changes nothing. -/
theorem identity_survives_restart (h : Host) (cfg : Config.Identity) (files files₁ : Files)
    (draws : Draws) (id : NodeIdentity) (hs : h.Sound cfg) (hm : h.StoresMachineId cfg)
    (hd : draws.Halved) (hload : h.loadOrGenerate cfg files draws = some (id,files₁)) :
    (∀ later : List Draws,
      h.starts cfg later files₁ = some (List.replicate later.length id,files₁)) ∧
    ∀ (later : Draws) (st : Impl), st.identity = id →
      h.rotateIdentityKeys cfg later st files₁ = some (st,files₁) := by
  have hagain := h.loadOrGenerate_again hs hm hd hload
  constructor
  · intro later
    induction later with
    | nil => rfl
    | cons draws rest ih => simp [Host.starts,hagain draws,ih,List.replicate_succ]
  · intro later st hst
    subst hst
    simp [Host.rotateIdentityKeys,hagain later,Impl.rotateIdentityKeys]

/-- A machine without an id, where nothing has been stored yet. -/
def newcomer : Host where
  sodium := Sodium.sample
  base64 text := (sampleBase64 text).filter (fun raw => raw.length ≤ text.length)
  seedKeypair seed := (seed,⟨seed.bytes ++ seed.bytes,by simp⟩)
  locate path := path.foldl (fun n c => 257*n+c.toNat+1) 0

def newcomerConfig : Config.Identity := { dir := bytesOfString "keys" }

theorem newcomer_sound : newcomer.Sound newcomerConfig where
  short text raw hraw := by simpa using (Option.filter_eq_some_iff.mp hraw).2
  readable _ _ := rfl
  device := by decide +kernel
  machine := by decide +kernel

def firstDraws : Draws := ⟨(storedPub,storedSec),(storedPub,storedSec),sampleKey 4⟩

def laterDraws : Draws := ⟨(sampleKey 1,foreignSec),(sampleKey 2,foreignSec),sampleKey 5⟩

theorem newcomer_starts :
    (newcomer.loadOrGenerate newcomerConfig ∅ firstDraws).isSome = true := by decide +kernel

def firstStart : NodeIdentity × Files :=
  (newcomer.loadOrGenerate newcomerConfig ∅ firstDraws).get newcomer_starts

theorem identity_survives_restart_newcomer :
    newcomer.rotateIdentityKeys newcomerConfig laterDraws (Impl.start firstStart.1) firstStart.2 =
      some (Impl.start firstStart.1,firstStart.2) :=
  (identity_survives_restart newcomer newcomerConfig ∅ firstStart.2 firstDraws firstStart.1
    newcomer_sound (fun _ _ => rfl) ⟨rfl,rfl⟩
    (Option.some_get newcomer_starts).symm).2 laterDraws _ rfl

/-- The key and the id that it had to make up have been stored. -/
example : firstStart.1.userPubkey = storedPub ∧ firstStart.2.keys.length = 2 := by decide +kernel

end GoodNet
