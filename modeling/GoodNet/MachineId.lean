import GoodNet.HandshakePayload
import GoodNet.Lib.CommutingWords
import Mathlib.Data.Set.Function
import Mathlib.Data.List.Permutation
set_option autoImplicit false

/-! `core/crypto/machine_id.cpp` as it is compiled for Linux: the identifiers of a machine, the
hash of all of them, and the key pair of the device. The network interfaces come in the order in
which `directory_iterator` gives them, which is not specified. -/

namespace GoodNet
open Codec CommutingWords

/-- `std::isspace` of the C locale. -/
def isSpace (c : UInt8) : Bool := c == 32 || (9 ≤ c && c ≤ 13)

/-- `read_file` of what a file holds: the first line without white space and dashes. A file that
cannot be opened is one that holds nothing. -/
def readFile (content : Bytes) : Bytes :=
  (content.takeWhile (fun c => c ≠ 10)).filter (fun c => !(isSpace c || c == 45))

/-- A directory of `/sys/class/net`. -/
structure NetInterface where
  filename : Bytes
  address : Bytes
  hasDevice : Bool
  deriving DecidableEq, Repr

/-- What one machine has to tell, apart from its network interfaces. -/
structure Hardware where
  etcMachineId : Bytes := []
  dbusMachineId : Bytes := []
  productUuid : Bytes := []
  /-- Registers of CPUID leaf 3, where the processor says that it has a serial number. -/
  processorSerial : Option (Block 12) := none
  netExists : Bool := true
  deriving DecidableEq, Repr

/-- `out.push_back(id)` unless it is empty. -/
def nonEmpty (id : Bytes) : List Bytes := if id = [] then [] else [id]

def collectPlatformIds (hw : Hardware) : List Bytes :=
  let ids := [hw.etcMachineId,hw.dbusMachineId].map readFile
  ((ids.find? (fun id => id ≠ [])).toList) ++ nonEmpty (readFile hw.productUuid) ++
    (hw.processorSerial.map (fun ser => bytesOfString (bytesToHex ser.bytes))).toList

/-- The address that an interface contributes, if it does. -/
def macOf (e : NetInterface) : Option Bytes :=
  let mac := readFile e.address
  if e.filename = bytesOfString "lo" then none
  else if mac ≠ [] ∧ mac ≠ bytesOfString "000000000000" ∧ e.hasDevice then some mac
  else none

def collectMacAddress (hw : Hardware) (listing : List NetInterface) : List Bytes :=
  if hw.netExists then listing.filterMap macOf else []

def machineSources (hw : Hardware) (listing : List NetInterface) : List Bytes :=
  collectPlatformIds hw ++ collectMacAddress hw listing

/-- `MachineId::read`; what the hash is updated with in turn it has hashed as one text. -/
def MachineId.read (S : Sodium) (hw : Hardware) (listing : List NetInterface) : String :=
  let sources := machineSources hw listing
  if sources = [] then "" else bytesToHex (S.generichash [] sources.flatten).bytes

/-- `crypto_sign_seed_keypair`. -/
abbrev SeedKeypair := Key → Key × Block 64

def MachineId.deriveDeviceKeypair (S : Sodium) (seedKeypair : SeedKeypair) (mid : String)
    (upk : Key) : Key × Block 64 :=
  seedKeypair (S.generichash [] (bytesOfString mid ++ upk.bytes))

/-- The machine id and the device key pairs are the same in every order of the listing. -/
def MachineId.OrderFree (S : Sodium) (seedKeypair : SeedKeypair) (hw : Hardware)
    (listing : List NetInterface) : Prop :=
  ∀ other, other.Perm listing →
    MachineId.read S hw other = MachineId.read S hw listing ∧
    ∀ upk, MachineId.deriveDeviceKeypair S seedKeypair (MachineId.read S hw other) upk =
      MachineId.deriveDeviceKeypair S seedKeypair (MachineId.read S hw listing) upk

/-- The texts that `read` hashes on this machine, over all orders. -/
def hashedTexts (hw : Hardware) (listing : List NetInterface) : Set Bytes :=
  { text | ∃ other, other.Perm listing ∧ text = (machineSources hw other).flatten }

/-- Any two addresses that are collected commute. -/
def MacsCommute (hw : Hardware) (listing : List NetInterface) : Prop :=
  ∀ x ∈ collectMacAddress hw listing, ∀ y ∈ collectMacAddress hw listing, x ++ y = y ++ x

/-- Addresses of one length commute only when there is but one. -/
theorem macsCommute_iff_eq {hw : Hardware} {listing : List NetInterface} {n : Nat}
    (hlen : ∀ x ∈ collectMacAddress hw listing, x.length = n) :
    MacsCommute hw listing ↔
      ∀ x ∈ collectMacAddress hw listing, ∀ y ∈ collectMacAddress hw listing, x = y := by
  constructor
  · intro h x hx y hy
    exact eq_of_append_comm ((hlen x hx).trans (hlen y hy).symm) (h x hx y hy)
  · intro h x hx y hy
    rw [h x hx y hy]

/-- What an interface adds to the text that is hashed. -/
def macWord (hw : Hardware) (e : NetInterface) : Bytes :=
  if hw.netExists then (macOf e).getD [] else []

theorem collectMacAddress_flatten (hw : Hardware) (listing : List NetInterface) :
    (collectMacAddress hw listing).flatten = listing.flatMap (macWord hw) := by
  unfold collectMacAddress macWord
  cases hw.netExists with
  | false => induction listing <;> simp_all
  | true =>
    induction listing with
    | nil => rfl
    | cons e listing ih =>
      simp only [if_true] at ih ⊢
      cases hmac : macOf e with
      | none => simp [hmac,ih]
      | some mac => simp [hmac,ih]

theorem macsCommute_iff (hw : Hardware) (listing : List NetInterface) :
    MacsCommute hw listing ↔ ∀ a ∈ listing, ∀ b ∈ listing,
      macWord hw a ++ macWord hw b = macWord hw b ++ macWord hw a := by
  unfold MacsCommute collectMacAddress macWord
  cases hw.netExists with
  | false => simp
  | true =>
    simp only [if_true,List.mem_filterMap]
    constructor
    · intro h a ha b hb
      cases hma : macOf a with
      | none => simp
      | some x =>
        cases hmb : macOf b with
        | none => simp
        | some y => exact h x ⟨a,ha,hma⟩ y ⟨b,hb,hmb⟩
    · rintro h x ⟨a,ha,hma⟩ y ⟨b,hb,hmb⟩
      simpa [hma,hmb] using h a ha b hb

theorem machineSources_flatten (hw : Hardware) (listing : List NetInterface) :
    (machineSources hw listing).flatten =
      (collectPlatformIds hw).flatten ++ listing.flatMap (macWord hw) := by
  rw [machineSources,List.flatten_append,collectMacAddress_flatten]

/-- Whether there is anything to hash does not depend on the order. -/
theorem machineSources_eq_nil (hw : Hardware) {l l' : List NetInterface} (h : l'.Perm l) :
    machineSources hw l' = [] ↔ machineSources hw l = [] := by
  have hperm : (machineSources hw l').Perm (machineSources hw l) := by
    unfold machineSources collectMacAddress
    cases hw.netExists with
    | false => exact .refl _
    | true => exact .append_left _ (h.filterMap macOf)
  constructor
  · intro hn
    exact (hn ▸ hperm).symm.eq_nil
  · intro hn
    exact (hn ▸ hperm).eq_nil

theorem MachineId.read_eq_iff {S : Sodium} {hw : Hardware} {l l' : List NetInterface}
    (hinj : Set.InjOn (S.generichash []) (hashedTexts hw l)) (h : l'.Perm l) :
    MachineId.read S hw l' = MachineId.read S hw l ↔
      l'.flatMap (macWord hw) = l.flatMap (macWord hw) := by
  have hnil := machineSources_eq_nil hw h
  have hflat := machineSources_flatten hw
  unfold MachineId.read
  by_cases hn : machineSources hw l = []
  · have hn' := hnil.2 hn
    have hl := hflat l
    have hl' := hflat l'
    rw [hn] at hl
    rw [hn'] at hl'
    have hsame := List.append_cancel_left (hl'.symm.trans hl)
    simp [hn,hn',hsame]
  · rw [if_neg hn,if_neg (mt hnil.1 hn),hflat,hflat]
    constructor
    · intro hhex
      have hhash := Block.ext (bytesToHex_inj hhex)
      rw [← hflat,← hflat] at hhash
      have htext := hinj ⟨l',h,rfl⟩ ⟨l,.refl l,rfl⟩ hhash
      rw [hflat,hflat] at htext
      exact List.append_cancel_left htext
    · intro hmacs
      rw [hmacs]

/-- The order of the interfaces is of no account exactly when the addresses commute. -/
theorem MachineId.orderFree_iff {S : Sodium} (seedKeypair : SeedKeypair) (hw : Hardware)
    (listing : List NetInterface)
    (hinj : Set.InjOn (S.generichash []) (hashedTexts hw listing)) :
    MachineId.OrderFree S seedKeypair hw listing ↔ MacsCommute hw listing := by
  rw [macsCommute_iff,← flatMap_perm_iff]
  constructor
  · intro h l' hl'
    exact (MachineId.read_eq_iff hinj hl').1 (h l' hl').1
  · intro h l' hl'
    have hread := (MachineId.read_eq_iff hinj hl').2 (h l' hl')
    refine ⟨hread,fun upk => ?_⟩
    rw [hread]

/-- A stand-in for the library whose hash keeps the end of a text. -/
def Sodium.lastBytes : Sodium :=
  { Sodium.sample with
    generichash := fun key data =>
      addBytes (Block.ofBytes 32 key) (Block.ofBytes 32 data.reverse) }

def desktop : Hardware where
  etcMachineId := bytesOfString "4f1d0c52a7e94f07b6c0f3d1e8a29b55\n"

def wiredCard : NetInterface := ⟨bytesOfString "eth0",bytesOfString "02:00:5e:10:00:01\n",true⟩

def wirelessCard : NetInterface := ⟨bytesOfString "wlan0",bytesOfString "02:00:5e:10:00:02\n",true⟩

theorem desktop_injOn :
    Set.InjOn (Sodium.lastBytes.generichash []) (hashedTexts desktop [wiredCard,wirelessCard]) := by
  have hdiffer : Sodium.lastBytes.generichash []
      (machineSources desktop [wiredCard,wirelessCard]).flatten ≠
      Sodium.lastBytes.generichash []
        (machineSources desktop [wirelessCard,wiredCard]).flatten := by
    decide +kernel
  rintro _ ⟨l,hl,rfl⟩ _ ⟨l',hl',rfl⟩ hsame
  rcases List.perm_pair.1 hl with rfl | rfl <;> rcases List.perm_pair.1 hl' with rfl | rfl
  · rfl
  · exact absurd hsame hdiffer
  · exact absurd hsame.symm hdiffer
  · rfl

theorem desktop_orderFree_iff :
    MachineId.OrderFree Sodium.lastBytes (fun seed => (seed,Block.zero 64)) desktop
      [wiredCard,wirelessCard] ↔ MacsCommute desktop [wiredCard,wirelessCard] :=
  MachineId.orderFree_iff _ desktop [wiredCard,wirelessCard] desktop_injOn

/-- A machine with two cards is another machine when they are listed the other way round. -/
theorem desktop_reordered :
    ¬∀ (S : Sodium) (seedKeypair : SeedKeypair) (hw : Hardware) (listing : List NetInterface),
      Set.InjOn (S.generichash []) (hashedTexts hw listing) →
        MachineId.OrderFree S seedKeypair hw listing := by
  intro h
  have hfree := h Sodium.lastBytes (fun seed => (seed,Block.zero 64)) desktop
    [wiredCard,wirelessCard] desktop_injOn [wirelessCard,wiredCard] (.swap _ _ _)
  exact absurd hfree.1 (by decide +kernel)

end GoodNet
