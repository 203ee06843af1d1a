import GoodNet.NoiseHandshake
import GoodNet.NoiseSession
import GoodNet.HandshakePayload
import GoodNet.WireHeader
set_option autoImplicit false

/-! `core/types/connection.hpp`: the record of one connection and its transport paths.
Connection ids are drawn from a 64-bit counter that never wraps, here a `Nat`. -/

namespace GoodNet
open Codec

def connIdInvalid : Nat := 0

inductive ConnState where
  | connecting | noiseHandshake | established | closing | closed
  deriving DecidableEq, Repr

structure Endpoint where
  address : String
  port : UInt16
  pubkey : Key := Block.zero 32
  peerId : Nat := 0
  flags : UInt8 := 0
  deriving DecidableEq, Repr

/-- `address:port`, the key of `uri_index_`. -/
def Endpoint.key (ep : Endpoint) : String := ep.address ++ ":" ++ toString ep.port.toNat

def Endpoint.trusted (ep : Endpoint) : Bool := ep.flags &&& epFlagTrusted != 0

def Endpoint.outbound (ep : Endpoint) : Bool := ep.flags &&& epFlagOutbound != 0

structure TransportPath where
  transportConnId : Nat
  scheme : String
  priority : UInt8 := 255
  remote : Endpoint
  active : Bool := true
  lastRttUs : UInt64 := 0
  consecutiveErrors : UInt32 := 0
  deriving DecidableEq, Repr

structure PeerPathInfo where
  scheme : String
  active : Bool
  priority : UInt8
  rttCompressed : UInt16
  deriving DecidableEq, Repr

structure ConnectionRecord where
  id : Nat
  state : ConnState := .noiseHandshake
  remote : Endpoint
  localScheme : String := ""
  peerSchemes : List String := []
  negotiatedScheme : String := ""
  peerUserPubkey : Key := Block.zero 32
  peerDevicePubkey : Key := Block.zero 32
  peerAuthenticated : Bool := false
  isLocalhost : Bool := false
  localhostPassthrough : Bool := false
  isInitiator : Bool := false
  peerCoreMeta : CoreMeta := {}
  peerTransportInfo : List PeerPathInfo := []
  affinityPlugin : String := ""
  sendPacketId : UInt64 := 0
  lastHeartbeatRecv : Int := 0
  heartbeatSeq : UInt32 := 0
  missedHeartbeats : UInt32 := 0
  handshake : Option Noise.HandshakeState := none
  session : Option NoiseSession := none
  recvBuf : Bytes := []
  transportPaths : List TransportPath := []
  deriving DecidableEq, Repr

def ConnectionRecord.established (r : ConnectionRecord) : Bool := r.state == .established

/-- The hexadecimal key under which the peer is indexed. -/
def ConnectionRecord.pkHex (r : ConnectionRecord) : String := bytesToHex r.peerUserPubkey.bytes

/-- Least priority among the active paths, the earlier path on a tie. -/
def ConnectionRecord.bestPath (r : ConnectionRecord) : Option TransportPath :=
  r.transportPaths.foldl (fun best p =>
    if p.active then
      match best with
      | none => some p
      | some b => if p.priority < b.priority then some p else best
    else best) none

def ConnectionRecord.findPath (r : ConnectionRecord) (scheme : String) : Option TransportPath :=
  r.transportPaths.find? (fun p => p.scheme == scheme)

def ConnectionRecord.findPathByTransportId (r : ConnectionRecord) (tcid : Nat) :
    Option TransportPath :=
  r.transportPaths.find? (fun p => p.transportConnId == tcid)

/-- The scheme that is used when no path is left. -/
def ConnectionRecord.fallbackScheme (r : ConnectionRecord) : String :=
  if r.negotiatedScheme = "" then r.localScheme else r.negotiatedScheme

/-- `send_packet_id.fetch_add(1)`. -/
def ConnectionRecord.takePacketId (r : ConnectionRecord) : ConnectionRecord :=
  { r with sendPacketId := r.sendPacketId+1 }

/-- The handshake state as a Noise call leaves it. -/
def ConnectionRecord.withHandshake (hs : Noise.HandshakeState) (r : ConnectionRecord) :
    ConnectionRecord :=
  { r with handshake := some hs }

/-- The session as a decryption leaves it. -/
def ConnectionRecord.withSession (s : NoiseSession) (r : ConnectionRecord) : ConnectionRecord :=
  { r with session := some s }

def frameHeader (flags : UInt8) (msgType : UInt32) (len : Nat) (packetId : UInt64) : Header where
  magic := gnetMagic
  protoVer := gnetProtoVer
  flags := flags
  payloadType := msgType.toUInt16
  payloadLen := UInt32.ofNat len
  packetId := packetId

/-- The bytes `build_frame` assembles, for the packet id the record hands out next. -/
def ConnectionRecord.frame (S : Sodium) (Z : Zstd) (c : Compression) (r : ConnectionRecord)
    (msgType : UInt32) (payload : Bytes) : Bytes :=
  if r.localhostPassthrough && !isHandshakeType msgType then
    (frameHeader gnetFlagTrusted msgType payload.length r.sendPacketId).encode ++ payload
  else
    let final :=
      if !isHandshakeType msgType && !r.isLocalhost then
        match r.session with
        | some s => s.encrypt S Z payload r.sendPacketId c
        | none => payload
      else payload
    let flags := if r.isLocalhost then gnetFlagTrusted else 0
    (frameHeader flags msgType final.length r.sendPacketId).encode ++ final

end GoodNet
