import GoodNet.Lib.ByteCodec
import Mathlib.Data.List.Basic
set_option autoImplicit false

/-! `plugins/connectors/ice/stun.cpp`: STUN messages, their builders and the two parsers. Every
field is big-endian. HMAC-SHA1 of the TLS library is a parameter, key first. -/

namespace GoodNet.Ice
open Codec

def stunBindingRequest : UInt16 := 0x0001
def stunBindingResponse : UInt16 := 0x0101

def stunAttrMappedAddress : UInt16 := 0x0001
def stunAttrUsername : UInt16 := 0x0006
def stunAttrMessageIntegrity : UInt16 := 0x0008
def stunAttrXorMappedAddress : UInt16 := 0x0020
def stunAttrPriority : UInt16 := 0x0024
def stunAttrUseCandidate : UInt16 := 0x0025
def stunAttrFingerprint : UInt16 := 0x8028
def stunAttrIceControlled : UInt16 := 0x8029
def stunAttrIceControlling : UInt16 := 0x802A

def stunMagicCookie : UInt32 := 0x2112A442
def stunHeaderSize : Nat := 20
def stunHmacSize : Nat := 20

abbrev TransactionId := Block 12

abbrev HmacSha1 := Bytes → Bytes → Block 20

inductive IpAddress where
  | v4 (bytes : Block 4)
  | v6 (bytes : Block 16)
  deriving DecidableEq, Repr

def IpAddress.isV4 : IpAddress → Bool
  | .v4 _ => true
  | .v6 _ => false

def IpAddress.isUnspecified : IpAddress → Bool
  | .v4 b => b == Block.zero 4
  | .v6 b => b == Block.zero 16

/-- An address with a port: `StunAddress`, and the endpoint of a UDP socket. -/
structure StunAddress where
  ip : IpAddress := .v4 (Block.zero 4)
  port : UInt16 := 0
  deriving DecidableEq, Repr

structure StunResult where
  mapped : StunAddress := {}
  txnId : TransactionId
  deriving DecidableEq, Repr

structure StunRequest where
  txnId : TransactionId
  priority : UInt32 := 0
  useCandidate : Bool := false
  username : Bytes := []
  deriving DecidableEq, Repr

def readU16 (b : Bytes) : UInt16 := UInt16.ofNat (256*(b.getD 0 0).toNat+(b.getD 1 0).toNat)

def readU32 (b : Bytes) : UInt32 :=
  UInt32.ofNat (256*(256*(256*(b.getD 0 0).toNat+(b.getD 1 0).toNat)+(b.getD 2 0).toNat)+
    (b.getD 3 0).toNat)

def writeU16 (v : UInt16) : Bytes := [UInt8.ofNat (v.toNat/256),UInt8.ofNat v.toNat]

def writeU32 (v : UInt32) : Bytes := (leBytes 4 v.toNat).reverse

def writeU64 (v : UInt64) : Bytes := (leBytes 8 v.toNat).reverse

/-- One entry of `crc32_table`. -/
def crc32Entry (i : UInt32) : UInt32 :=
  (List.range 8).foldl (fun crc _ =>
    (crc >>> 1) ^^^ (if crc &&& 1 ≠ 0 then 0xEDB88320 else 0)) i

def crc32Table : List UInt32 := (List.range 256).map (fun i => crc32Entry (UInt32.ofNat i))

def crc32Step (crc : UInt32) (b : UInt8) : UInt32 :=
  (crc >>> 8) ^^^ crc32Table.getD ((crc ^^^ b.toUInt32) &&& 0xFF).toNat 0

def computeCrc32 (data : Bytes) : UInt32 := data.foldl crc32Step 0xFFFFFFFF ^^^ 0xFFFFFFFF

def stunFingerprint (data : Bytes) : UInt32 := computeCrc32 data ^^^ 0x5354554E

/-- A length rounded up to a multiple of four. -/
def padded (len : Nat) : Nat := (len+3)/4*4

/-- The value's length travels in 16 bits, and so does the room made for it. -/
def appendAttr (buf : Bytes) (type : UInt16) (value : Bytes) : Bytes :=
  let len := value.length%65536
  buf ++ writeU16 type ++ writeU16 (UInt16.ofNat len) ++ value.take len ++
    List.replicate (padded len%65536-len) 0

def appendAttrU32 (buf : Bytes) (type : UInt16) (v : UInt32) : Bytes :=
  appendAttr buf type (writeU32 v)

def appendAttrU64 (buf : Bytes) (type : UInt16) (v : UInt64) : Bytes :=
  appendAttr buf type (writeU64 v)

/-- `write_u16(buf.data() + 2, len)`. -/
def setMsgLength (buf : Bytes) (len : Nat) : Bytes :=
  buf.take 2 ++ writeU16 (UInt16.ofNat len) ++ buf.drop 4

def updateMsgLength (buf : Bytes) : Bytes := setMsgLength buf (buf.length-stunHeaderSize)

def writeHeader (type : UInt16) (txn : TransactionId) : Bytes :=
  writeU16 type ++ writeU16 0 ++ writeU32 stunMagicCookie ++ txn.bytes

/-- What MESSAGE-INTEGRITY is computed over: the message in front of the attribute, with a
length that includes it. -/
def integrityInput (front : Bytes) : Bytes :=
  setMsgLength front (front.length-stunHeaderSize+4+stunHmacSize)

def appendIntegrityAndFingerprint (hmac : HmacSha1) (buf password : Bytes) : Bytes :=
  let buf := integrityInput buf
  let buf := appendAttr buf stunAttrMessageIntegrity (hmac password buf).bytes
  let buf := setMsgLength buf (buf.length-stunHeaderSize+8)
  let buf := appendAttrU32 buf stunAttrFingerprint (stunFingerprint buf)
  updateMsgLength buf

def buildBindingRequest (txn : TransactionId) : Bytes :=
  updateMsgLength (writeHeader stunBindingRequest txn)

def buildCheckRequest (hmac : HmacSha1) (txn : TransactionId) (username password : Bytes)
    (priority : UInt32) (useCandidate controlling : Bool) (tieBreaker : UInt64) : Bytes :=
  let buf := writeHeader stunBindingRequest txn
  let buf := appendAttr buf stunAttrUsername username
  let buf := appendAttrU32 buf stunAttrPriority priority
  let buf :=
    if controlling then appendAttrU64 buf stunAttrIceControlling tieBreaker
    else appendAttrU64 buf stunAttrIceControlled tieBreaker
  let buf := if useCandidate then appendAttr buf stunAttrUseCandidate [] else buf
  appendIntegrityAndFingerprint hmac buf password

/-- `STUN_MAGIC_COOKIE >> 16`. -/
def cookiePort : UInt16 := (stunMagicCookie >>> 16).toUInt16

def xorBytes (a b : Bytes) : Bytes := List.zipWith (· ^^^ ·) a b

/-- What an IPv6 address is xored with. -/
def xorKey (txn : TransactionId) : Bytes := writeU32 stunMagicCookie ++ txn.bytes

def xorMappedAddress (txn : TransactionId) (addr : StunAddress) : Bytes :=
  match addr.ip with
  | .v4 b => [0,1] ++ writeU16 (addr.port ^^^ cookiePort) ++ writeU32 (readU32 b.bytes ^^^ stunMagicCookie)
  | .v6 b => [0,2] ++ writeU16 (addr.port ^^^ cookiePort) ++ xorBytes b.bytes (xorKey txn)

def buildCheckResponse (hmac : HmacSha1) (txn : TransactionId) (mapped : StunAddress)
    (password : Bytes) : Bytes :=
  appendIntegrityAndFingerprint hmac
    (appendAttr (writeHeader stunBindingResponse txn) stunAttrXorMappedAddress
      (xorMappedAddress txn mapped)) password

/-- An attribute as the loops of the parsers see it: where it starts, its type and the bytes
its length field spans. -/
structure StunAttr where
  offset : Nat
  type : UInt16
  value : Bytes
  deriving DecidableEq, Repr

/-- The attributes between `pos` and `stop`; the loop ends at the first that does not fit. -/
def stunAttrs (data : Bytes) (stop : Nat) : Nat → Nat → List StunAttr
  | 0, _ => []
  | fuel+1, pos =>
    let len := (readU16 (data.drop (pos+2))).toNat
    if stop < pos+4 ∨ stop < pos+4+padded len then []
    else
      ⟨pos,readU16 (data.drop pos),(data.drop (pos+4)).take len⟩ ::
        stunAttrs data stop fuel (pos+4+padded len)

/-- `STUN_HEADER_SIZE + msg_len`. -/
def stunEnd (data : Bytes) : Nat := stunHeaderSize+(readU16 (data.drop 2)).toNat

def attributes (data : Bytes) : List StunAttr :=
  stunAttrs data (stunEnd data) (stunEnd data) stunHeaderSize

/-- The checks both parsers start with. -/
def stunHeaderOk (type : UInt16) (data : Bytes) : Bool :=
  decide (stunHeaderSize ≤ data.length) && readU16 data == type &&
    readU32 (data.drop 4) == stunMagicCookie && decide (stunEnd data ≤ data.length)

def stunTxnId (data : Bytes) : TransactionId := Block.ofBytes 12 (data.drop 8)

/-- One round of the loop in `parse_binding_response`; the flag is `found_mapped`. -/
def StunResult.take (r : StunResult × Bool) (a : StunAttr) : StunResult × Bool :=
  let family := a.value.getD 1 0
  if a.type = stunAttrXorMappedAddress ∧ 8 ≤ a.value.length then
    let port := readU16 (a.value.drop 2) ^^^ cookiePort
    if family = 1 then
      let addr := writeU32 (readU32 (a.value.drop 4) ^^^ stunMagicCookie)
      ({ r.1 with mapped := ⟨.v4 (Block.ofBytes 4 addr),port⟩ },true)
    else if family = 2 ∧ 20 ≤ a.value.length then
      let addr := xorBytes (a.value.drop 4) (xorKey r.1.txnId)
      ({ r.1 with mapped := ⟨.v6 (Block.ofBytes 16 addr),port⟩ },true)
    else ({ r.1 with mapped := { r.1.mapped with port := port } },r.2)
  else if a.type = stunAttrMappedAddress ∧ r.2 = false ∧ 8 ≤ a.value.length then
    let port := readU16 (a.value.drop 2)
    if family = 1 then
      ({ r.1 with mapped := ⟨.v4 (Block.ofBytes 4 (a.value.drop 4)),port⟩ },true)
    else ({ r.1 with mapped := { r.1.mapped with port := port } },r.2)
  else r

def parseBindingResponse (data : Bytes) : Option StunResult :=
  if stunHeaderOk stunBindingResponse data then
    let r := (attributes data).foldl StunResult.take ({ txnId := stunTxnId data },false)
    if r.2 then some r.1 else none
  else none

/-- One round of the loop in `parse_binding_request`. -/
def StunRequest.take (req : StunRequest) (a : StunAttr) : StunRequest :=
  if a.type = stunAttrUsername then { req with username := a.value }
  else if a.type = stunAttrPriority then
    if 4 ≤ a.value.length then { req with priority := readU32 a.value } else req
  else if a.type = stunAttrUseCandidate then { req with useCandidate := true }
  else req

def StunAttr.isIntegrity (a : StunAttr) : Bool := a.type == stunAttrMessageIntegrity

/-- The last MESSAGE-INTEGRITY attribute, whose position the loop ends up with. -/
def integrityAttr (data : Bytes) : Option StunAttr :=
  ((attributes data).filter StunAttr.isIntegrity).getLast?

/-- The comparison of the parser at a MESSAGE-INTEGRITY attribute. It reads twenty bytes
whatever the attribute's own length is, also `beyond` the datagram. -/
def integrityMatches (hmac : HmacSha1) (data beyond password : Bytes) (offset : Nat) : Bool :=
  (hmac password (integrityInput (data.take offset))).bytes ==
    ((data ++ beyond).drop (offset+4)).take stunHmacSize

/-- `beyond` is what lies in memory behind the datagram. -/
def parseBindingRequest (hmac : HmacSha1) (data beyond password : Bytes) : Option StunRequest :=
  if stunHeaderOk stunBindingRequest data then
    let req := (attributes data).foldl StunRequest.take { txnId := stunTxnId data }
    match integrityAttr data with
    | none => some req
    | some a =>
      if password.isEmpty || integrityMatches hmac data beyond password a.offset then some req
      else none
  else none

def isStunPacket (data : Bytes) : Bool :=
  decide (stunHeaderSize ≤ data.length) && data.getD 0 0 &&& 0xC0 == 0 &&
    readU32 (data.drop 4) == stunMagicCookie

end GoodNet.Ice
