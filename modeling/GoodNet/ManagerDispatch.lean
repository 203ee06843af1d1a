import GoodNet.ManagerLifecycle
set_option autoImplicit false

/-! `core/cm/dispatch.cpp` and `core/cm/relay.cpp`: what happens to one inbound frame. -/

namespace GoodNet
open Codec

def relayTtl : Nat := 30*10^9

def RelayFingerprint.same (a b : RelayFingerprint) : Bool :=
  a.senderHash == b.senderHash && a.packetId == b.packetId

/-- Dedup by packet id and type; entries past the limit go once the set is large. -/
def Impl.relaySeen (env : Env) (st : Impl) (inner : Header) : Impl × Bool :=
  let now := env.steady st.asked
  let st := st.ask
  let sh := env.hash inner.packetId ^^^ (inner.payloadType.toUInt64 <<< 32)
  let kept :=
    if 8192 < st.relayDedup.length then
      st.relayDedup.filter (fun f => decide (now ≤ f.ts+relayTtl))
    else st.relayDedup
  let fp : RelayFingerprint := ⟨sh,inner.packetId,now⟩
  if kept.any fp.same then ({ st with relayDedup := kept },true)
  else ({ st with relayDedup := fp :: kept },false)

/-- `sizeof(RelayPayload)`. -/
def relayHeaderSize : Nat := 33

def Impl.relay (env : Env) (st : Impl) (exclude : Nat) (ttl : UInt8) (dest : Key)
    (innerFrame : Bytes) : Impl :=
  let payload := ttl :: (dest.bytes ++ innerFrame)
  let direct := st.findConnByPubkey (bytesToHex dest.bytes)
  if direct ≠ connIdInvalid ∧ direct ≠ exclude then st.sendFrame env direct msgTypeRelay payload
  else st.sendAll env (st.ids.filter (fun id => id != exclude)) msgTypeRelay payload

/-- The second component is the inner frame when it is for this node: `dispatch_packet`
is then entered again with it as the last action. -/
def Impl.handleRelay (env : Env) (st : Impl) (id : Nat) (plaintext : Bytes) :
    Impl × Option (Header × Bytes) :=
  if plaintext.length < relayHeaderSize+headerSize then (st.emit (.drop id .relayDropped),none)
  else
    let ttl := plaintext.getD 0 0
    let dest : Key := Block.ofBytes 32 (plaintext.drop 1)
    if ttl = 0 then (st.emit (.drop id .relayDropped),none)
    else
      let inner := plaintext.drop relayHeaderSize
      let innerHdr := Header.decode inner
      if inner.length < headerSize+innerHdr.payloadLen.toNat then
        (st.emit (.drop id .relayDropped),none)
      else
        let seen := st.relaySeen env innerHdr
        if seen.2 then (seen.1,none)
        else if dest = st.identity.userPubkey then
          (seen.1,some (innerHdr,(inner.drop headerSize).take innerHdr.payloadLen.toNat))
        else (seen.1.relay env id (ttl-1) dest inner,none)

structure HeartbeatPayload where
  timestampUs : UInt64
  seq : UInt32
  flags : UInt8
  deriving DecidableEq, Repr

def heartbeatPayloadSize : Nat := 16
def heartbeatMaxPaths : Nat := 8
def heartbeatPathEntrySize : Nat := 20

def HeartbeatPayload.encode (hb : HeartbeatPayload) : Bytes :=
  leBytes 8 hb.timestampUs.toNat ++ leBytes 4 hb.seq.toNat ++ [hb.flags,0,0,0]

def HeartbeatPayload.decode (b : Bytes) : HeartbeatPayload where
  timestampUs := UInt64.ofNat (leNat (b.take 8))
  seq := UInt32.ofNat (leNat ((b.drop 8).take 4))
  flags := b.getD 12 0

def TransportPath.heartbeatEntry (p : TransportPath) : Bytes :=
  schemeSlot p.scheme ++ [if p.active then 1 else 0,p.priority] ++
    leBytes 2 (min (p.lastRttUs.toNat/10) 65535)

def parseHeartbeatEntry (b : Bytes) : PeerPathInfo where
  scheme := stringOfBytes ((b.take 16).takeWhile (· ≠ 0))
  active := b.getD 16 0 != 0
  priority := b.getD 17 0
  rttCompressed := UInt16.ofNat (leNat ((b.drop 18).take 2))

def heartbeatExtension (paths : List TransportPath) : Bytes :=
  let shown := paths.take heartbeatMaxPaths
  UInt8.ofNat shown.length :: shown.flatMap TransportPath.heartbeatEntry

/-- The path entries after the base payload, when at least one is complete. -/
def parseHeartbeatExtension (payload : Bytes) : List PeerPathInfo :=
  if payload.length ≤ heartbeatPayloadSize+1 then []
  else
    let entries := payload.drop (heartbeatPayloadSize+1)
    let count := min (payload.getD heartbeatPayloadSize 0).toNat heartbeatMaxPaths
    (List.range (min count (entries.length/heartbeatPathEntrySize))).map (fun i =>
      parseHeartbeatEntry ((entries.drop (heartbeatPathEntrySize*i)).take heartbeatPathEntrySize))

def Impl.sendHeartbeat (env : Env) (st : Impl) (id : Nat) : Impl :=
  match st.find id with
  | none => st
  | some r =>
    if !r.established then st
    else
      let hb : HeartbeatPayload := ⟨UInt64.ofNat (env.wall st.asked),r.heartbeatSeq,0⟩
      let st := st.ask.modify id (fun r => { r with heartbeatSeq := r.heartbeatSeq+1 })
      st.sendFrame env id msgTypeHeartbeat (hb.encode ++ heartbeatExtension r.transportPaths)

def TransportPath.measured (rtt : Nat) (p : TransportPath) : TransportPath :=
  { p with lastRttUs := UInt64.ofNat rtt }

/-- The round trip time of a PONG goes to the best path. -/
def ConnectionRecord.recordRtt (r : ConnectionRecord) (rtt : Nat) : ConnectionRecord :=
  match r.bestPath with
  | none => r
  | some best =>
    { r with transportPaths :=
        modifyPath r.transportPaths best.transportConnId (TransportPath.measured rtt) }

def ConnectionRecord.pong (r : ConnectionRecord) (steady wall : Nat) (hb : HeartbeatPayload) :
    ConnectionRecord :=
  let r := { r with lastHeartbeatRecv := Int.ofNat steady, missedHeartbeats := 0 }
  if hb.timestampUs.toNat < wall then r.recordRtt (wall-hb.timestampUs.toNat) else r

def ConnectionRecord.heardPaths (r : ConnectionRecord) (info : List PeerPathInfo) :
    ConnectionRecord :=
  if info.isEmpty then r else { r with peerTransportInfo := info }

def Impl.handleHeartbeat (env : Env) (st : Impl) (id : Nat) (payload : Bytes) : Impl :=
  if payload.length < heartbeatPayloadSize then st
  else
    let hb := HeartbeatPayload.decode payload
    let st := st.modify id (fun r => r.heardPaths (parseHeartbeatExtension payload))
    if hb.flags = 0 then
      st.sendFrame env id msgTypeHeartbeat ({ hb with flags := 1 } : HeartbeatPayload).encode
    else if hb.flags = 1 then
      st.ask.modify id (fun r => r.pong (env.steady st.asked) (env.wall st.asked) hb)
    else st

def Impl.checkHeartbeat (env : Env) (now : Nat) (st : Impl) (id : Nat) : Impl :=
  match st.find id with
  | none => st
  | some r =>
    if !r.established then st
    else if r.lastHeartbeatRecv = 0 then
      st.modify id (fun r => { r with lastHeartbeatRecv := Int.ofNat now })
    else if Int.ofNat now-r.lastHeartbeatRecv ≤ Int.ofNat heartbeatInterval then st
    else
      let missed := r.missedHeartbeats+1
      let st := st.modify id (fun r => { r with missedHeartbeats := missed })
      if maxMissedHeartbeats ≤ missed then st.disconnect env id else st.sendHeartbeat env id

def Impl.checkHeartbeatTimeouts (env : Env) (st : Impl) : Impl :=
  st.ids.foldl (Impl.checkHeartbeat env (env.steady st.asked)) st.ask

/-- `session->decrypt` through the record, with a note when the window took the id. -/
def Impl.decryptFor (env : Env) (st : Impl) (id : Nat) (s : NoiseSession) (hdr : Header)
    (payload : Bytes) : Impl × Bytes :=
  let d := s.decrypt env.sodium env.zstd payload hdr.packetId
  let st := st.modify id (ConnectionRecord.withSession d.1)
  if macLen ≤ payload.length ∧ (s.recvWindow.accept hdr.packetId).2 then
    (st.emit (.accepted id hdr.packetId),d.2)
  else (st,d.2)

/-- The plaintext of a frame on an established connection, or nothing when it is dropped. -/
def Impl.openPayload (env : Env) (st : Impl) (id : Nat) (r : ConnectionRecord) (hdr : Header)
    (payload : Bytes) : Impl × Option Bytes :=
  if r.localhostPassthrough then (st,some payload)
  else if hdr.flags &&& gnetFlagTrusted ≠ 0 then
    if !r.isLocalhost then (st.emit (.drop id .trustedFromRemote),none) else (st,some payload)
  else if r.isLocalhost then (st,some payload)
  else
    match r.session with
    | none => (st,some payload)
    | some s =>
      let d := st.decryptFor env id s hdr payload
      if d.2.isEmpty then (d.1.emit (.drop id .decryptFail),none) else (d.1,some d.2)

/-- The last leg: the signal bus, and session affinity by its answer. -/
def Impl.deliverToBus (env : Env) (st : Impl) (id : Nat) (r : ConnectionRecord) : Impl :=
  let answer := env.handler st.asked
  let st := st.ask
  if answer.result = .consumed ∧ r.affinityPlugin = "" then
    (st.modify id (fun r => { r with affinityPlugin := answer.consumedBy })).emit
      (.stat .consumed 1 id)
  else if answer.result = .reject then
    (st.emit (.drop id .rejectedByHandler)).emit (.stat .rejected 1 id)
  else st

def Impl.deliver (st : Impl) (id : Nat) (r : ConnectionRecord) (sink : Sink) (hdr : Header)
    (wire plain : Bytes) : Impl :=
  let st := (st.emit (.stat .rxBytes wire.length id)).emit (.stat .rxPacket 1 id)
  st.emit (.deliver r sink hdr { r.remote with peerId := id } wire plain)

/-- `dispatch_packet` with a bound on the depth of nested local delivery. -/
def Impl.dispatchNested (env : Env) : Nat → Impl → Nat → Header → Bytes → Impl
  | 0, st, _, _, _ => st
  | depth+1, st, id, hdr, payload =>
    if hdr.type = msgTypeNoiseInit then st.handleNoiseInit env id payload
    else if hdr.type = msgTypeNoiseResp then st.handleNoiseResp env id payload
    else if hdr.type = msgTypeNoiseFin then st.handleNoiseFin env id payload
    else
      match st.find id with
      | none => st.emit (.drop id .connNotFound)
      | some r =>
        if !r.established then st.emit (.drop id .stateNotEstablished)
        else
          match st.openPayload env id r hdr payload with
          | (st,none) => st
          | (st,some plain) =>
            if hdr.type = msgTypeHeartbeat then
              (st.deliver id r .heartbeat hdr payload plain).handleHeartbeat env id plain
            else if hdr.type = msgTypeRelay then
              match (st.deliver id r .relay hdr payload plain).handleRelay env id plain with
              | (st,none) => st
              | (st,some (innerHdr,innerPayload)) =>
                dispatchNested env depth st id innerHdr innerPayload
            else (st.deliver id r .bus hdr payload plain).deliverToBus env id r

/-- Nesting ends by itself: every encrypted level uses up a 64-bit packet id and every
clear one at least 53 bytes of a payload below 2^32, so this bound is never met. -/
def dispatchDepth : Nat := 2^65

def Impl.dispatchPacket (env : Env) (st : Impl) (id : Nat) (hdr : Header) (payload : Bytes) :
    Impl :=
  st.dispatchNested env dispatchDepth id hdr payload

end GoodNet
