import GoodNet.Lib.ByteCodec
set_option autoImplicit false

/-! The 20-byte frame header of `sdk/types.h` and the constants that go with it.
The structure is packed and every field is little-endian. -/

namespace GoodNet
open Codec

def gnetMagic : UInt32 := 0x474E4554
def gnetProtoVer : UInt8 := 3
def gnetFlagTrusted : UInt8 := 0x01

def epFlagTrusted : UInt8 := 0x01
def epFlagOutbound : UInt8 := 0x02

def msgTypeNoiseInit : UInt32 := 1
def msgTypeNoiseResp : UInt32 := 2
def msgTypeNoiseFin : UInt32 := 3
def msgTypeHeartbeat : UInt32 := 4
def msgTypeRelay : UInt32 := 10
def msgTypeChat : UInt32 := 100

/-- The three message types that carry the Noise handshake itself. -/
def isHandshakeType (msgType : UInt32) : Bool :=
  msgType == msgTypeNoiseInit || msgType == msgTypeNoiseResp || msgType == msgTypeNoiseFin

structure Header where
  magic : UInt32
  protoVer : UInt8
  flags : UInt8
  payloadType : UInt16
  payloadLen : UInt32
  packetId : UInt64
  deriving DecidableEq, Repr

/-- `sizeof(header_t)`. -/
def headerSize : Nat := 20

def Header.encode (h : Header) : Bytes :=
  leBytes 4 h.magic.toNat ++ [h.protoVer,h.flags] ++ leBytes 2 h.payloadType.toNat ++
    leBytes 4 h.payloadLen.toNat ++ leBytes 8 h.packetId.toNat

/-- The header a cast of the first twenty bytes yields. -/
def Header.decode (b : Bytes) : Header where
  magic := UInt32.ofNat (leNat (b.take 4))
  protoVer := b.getD 4 0
  flags := b.getD 5 0
  payloadType := UInt16.ofNat (leNat ((b.drop 6).take 2))
  payloadLen := UInt32.ofNat (leNat ((b.drop 8).take 4))
  packetId := UInt64.ofNat (leNat ((b.drop 12).take 8))

def Header.type (h : Header) : UInt32 := h.payloadType.toUInt32

@[simp] theorem Header.encode_length (h : Header) : h.encode.length = headerSize := by
  simp [encode,headerSize]

theorem Header.decode_encode (h : Header) (tail : Bytes) :
    Header.decode (h.encode ++ tail) = h := by
  have h4 := leNat_leBytes_of_lt (w := 4) (n := h.magic.toNat) h.magic.toNat_lt
  have h2 := leNat_leBytes_of_lt (w := 2) (n := h.payloadType.toNat) h.payloadType.toNat_lt
  have hl := leNat_leBytes_of_lt (w := 4) (n := h.payloadLen.toNat) h.payloadLen.toNat_lt
  have hp := leNat_leBytes_of_lt (w := 8) (n := h.packetId.toNat) h.packetId.toNat_lt
  cases h
  simp_all [decode,encode,List.drop_append,List.getElem?_append,
    List.drop_eq_nil_of_le]

/-- A frame is its header followed by as many payload bytes as the header declares. -/
structure Frame where
  header : Header
  payload : Bytes
  length_eq : payload.length = header.payloadLen.toNat
  deriving DecidableEq, Repr

def Frame.wire (f : Frame) : Bytes := f.header.encode ++ f.payload

def Frame.total (f : Frame) : Nat := headerSize + f.header.payloadLen.toNat

@[simp] theorem Frame.wire_length (f : Frame) : f.wire.length = f.total := by
  simp [wire,total,f.length_eq]

end GoodNet
