import GoodNet.SodiumPrimitives
set_option autoImplicit false

/-! `HandshakePayload` of `core/data/messages.hpp`: the identity block inside the second
and third Noise message, 265 packed bytes. -/

namespace GoodNet
open Codec

/-- Source strings are byte strings; a model string holds one character per byte. -/
def bytesOfString (s : String) : Bytes := s.toList.map (fun c => UInt8.ofNat c.toNat)

def stringOfBytes (b : Bytes) : String := String.ofList (b.map (fun x => Char.ofNat x.toNat))

def hexDigit (n : Nat) : Char := "0123456789abcdef".toList.getD n '0'

def bytesToHex (b : Bytes) : String :=
  String.ofList (b.flatMap (fun x => [hexDigit (x.toNat/16),hexDigit (x.toNat%16)]))

/-- Bytes with the same hexadecimal form are the same. -/
theorem bytesToHex_inj {a b : Bytes} (h : bytesToHex a = bytesToHex b) : a = b := by
  have hdigit : ∀ n m : Fin 16, hexDigit n = hexDigit m → n = m := by decide
  have hdigit' : ∀ n m : Nat, n < 16 → m < 16 → hexDigit n = hexDigit m → n = m :=
    fun n m hn hm he => congrArg Fin.val (hdigit ⟨n,hn⟩ ⟨m,hm⟩ he)
  have hlist := String.ofList_injective h
  clear h
  induction a generalizing b with
  | nil =>
    cases b with
    | nil => rfl
    | cons y b => simp at hlist
  | cons x a ih =>
    cases b with
    | nil => simp at hlist
    | cons y b =>
      simp only [List.flatMap_cons,List.cons_append,List.nil_append,List.cons.injEq] at hlist
      obtain ⟨hhigh,hlow,hrest⟩ := hlist
      have hx := x.toNat_lt
      have hy := y.toNat_lt
      have h1 := hdigit' _ _ (by omega) (by omega) hhigh
      have h2 := hdigit' _ _ (by omega) (by omega) hlow
      have hxy : x = y := UInt8.toNat_inj.mp (by omega)
      rw [hxy,ih hrest]

structure CoreMeta where
  coreVersion : UInt32 := 0
  capsMask : UInt32 := 0
  deriving DecidableEq, Repr

def coreCapZstd : UInt32 := 1
def coreCapIce : UInt32 := 2
def coreCapKeyrot : UInt32 := 4
def coreCapRelay : UInt32 := 8
def gnCoreVersion : UInt32 := 0x000100

def handshakeMaxSchemes : Nat := 8
def handshakeSchemeLen : Nat := 16

/-- `sizeof(HandshakePayload)`. -/
def handshakePayloadSize : Nat := 265

structure HandshakePayload where
  userPubkey : Key
  devicePubkey : Key
  signature : Signature
  schemesCount : UInt8
  schemes : Bytes
  coreMeta : CoreMeta
  deriving DecidableEq, Repr

/-- One slot of the scheme table as `strncpy` fills it. -/
def schemeSlot (s : String) : Bytes :=
  let b := ((bytesOfString s).takeWhile (· ≠ 0)).take (handshakeSchemeLen-1)
  b ++ List.replicate (handshakeSchemeLen-b.length) 0

/-- `set_schemes`: the count byte and the table. -/
def setSchemes (sv : List String) : UInt8 × Bytes :=
  let used := sv.take handshakeMaxSchemes
  (UInt8.ofNat used.length,
    used.flatMap schemeSlot ++ List.replicate (handshakeSchemeLen*(handshakeMaxSchemes-used.length)) 0)

/-- Offset of the scheme table. -/
def schemesOffset : Nat := 129

/-- `get_schemes` on the raw buffer: as many C strings as the count byte says, at the
slot offsets, the count itself unchecked. -/
def getSchemes (data : Bytes) : List String :=
  (List.range (data.getD 128 0).toNat).map (fun i =>
    stringOfBytes ((data.drop (schemesOffset+handshakeSchemeLen*i)).takeWhile (· ≠ 0)))

def HandshakePayload.encode (p : HandshakePayload) : Bytes :=
  p.userPubkey.bytes ++ p.devicePubkey.bytes ++ p.signature.bytes ++ [p.schemesCount] ++
    p.schemes ++ leBytes 4 p.coreMeta.coreVersion.toNat ++ leBytes 4 p.coreMeta.capsMask.toNat

/-- The structure a cast of the buffer yields. -/
def HandshakePayload.decode (b : Bytes) : HandshakePayload where
  userPubkey := Block.ofBytes 32 b
  devicePubkey := Block.ofBytes 32 (b.drop 32)
  signature := Block.ofBytes 64 (b.drop 64)
  schemesCount := b.getD 128 0
  schemes := (b.drop schemesOffset).take 128
  coreMeta :=
    { coreVersion := UInt32.ofNat (leNat ((b.drop 257).take 4)),
      capsMask := UInt32.ofNat (leNat ((b.drop 261).take 4)) }

end GoodNet
