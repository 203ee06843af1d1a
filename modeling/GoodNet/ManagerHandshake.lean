import GoodNet.ManagerTransport
import GoodNet.ManagerDisconnect
set_option autoImplicit false

/-! `core/cm/handshake.cpp`: the three Noise frames, the identity check and the commit. -/

namespace GoodNet
open Codec

def Impl.rotateIdentityKeys (st : Impl) (next : NodeIdentity) : Impl := { st with identity := next }

/-- Both keys move on by one HKDF step; window and packet counter start over. -/
def NoiseSession.rekey (S : Sodium) (s : NoiseSession) : NoiseSession :=
  { s with sendKey := (Noise.hkdf2 S s.sendKey []).1,
           recvKey := (Noise.hkdf2 S s.recvKey []).1,
           recvWindow := s.recvWindow.reset }

def Impl.rekeySession (env : Env) (st : Impl) (id : Nat) : Impl × Bool :=
  match st.find id with
  | none => (st,false)
  | some r =>
    match r.session with
    | none => (st,false)
    | some s =>
      if !r.established then (st,false)
      else
        ((st.modify id (fun r =>
          { r with session := some (s.rekey env.sodium), sendPacketId := 1 })).emit (.rekeyed id),
          true)

/-- `write_message` through the record: the fresh secret is drawn, the state it leaves
behind is stored. -/
def Impl.writeNoise (env : Env) (st : Impl) (id : Nat) (hs : Noise.HandshakeState)
    (payload : Bytes) : Impl × Noise.Written :=
  let secret := env.random st.asked
  let w := hs.writeMessage env.sodium secret payload
  ((st.ask.modify id (ConnectionRecord.withHandshake w.state)).emit
    (.noiseWrite id hs secret w),w)

/-- `read_message` through the record, with the size of the caller's buffer. -/
def Impl.readNoise (env : Env) (st : Impl) (id : Nat) (kind : NoiseFrame)
    (hs : Noise.HandshakeState) (msg : Bytes) (capacity : Nat) : Impl × Noise.Read :=
  let d := hs.readMessage env.sodium msg
  ((st.modify id (ConnectionRecord.withHandshake d.state)).emit
    (.noiseRead id kind hs msg capacity d),d)

def Impl.sendNoiseInit (env : Env) (st : Impl) (id : Nat) : Impl :=
  match (st.find id).bind ConnectionRecord.handshake with
  | none => st
  | some hs =>
    let w := st.writeNoise env id hs []
    if !w.2.ok then w.1.closeNow env id
    else w.1.sendFrame env id msgTypeNoiseInit w.2.out

def Impl.buildHandshakePayload (env : Env) (st : Impl) : Bytes :=
  let me := st.identity
  let schemes := setSchemes st.localSchemes
  HandshakePayload.encode
    { userPubkey := me.userPubkey,
      devicePubkey := me.devicePubkey,
      signature := env.sodium.signDetached me.userSeckey (me.userPubkey.bytes ++ me.devicePubkey.bytes),
      schemesCount := schemes.1,
      schemes := schemes.2,
      coreMeta := st.localCoreMeta }

/-- The commit of a verified identity; the first path takes the negotiated scheme. -/
def Impl.authenticate (st : Impl) (hp : HandshakePayload) (schemes : List String)
    (r : ConnectionRecord) : ConnectionRecord :=
  let r := { r with
    peerUserPubkey := hp.userPubkey,
    peerDevicePubkey := hp.devicePubkey,
    peerAuthenticated := true,
    peerSchemes := schemes,
    peerCoreMeta := hp.coreMeta }
  let scheme := st.negotiateScheme r
  let r := { r with negotiatedScheme := scheme }
  match r.transportPaths with
  | [] => r
  | tp :: rest =>
    let shown := if scheme = "" then "tcp" else scheme
    { r with transportPaths :=
        { tp with scheme := shown, priority := st.schemePriorityIndex shown } :: rest }

def Impl.processHandshakePayload (env : Env) (st : Impl) (id : Nat) (data : Bytes) :
    Impl × Bool :=
  if data.length < handshakePayloadSize then (st.emit (.drop id .authFail),false)
  else
    let hp := HandshakePayload.decode data
    let signed := hp.userPubkey.bytes ++ hp.devicePubkey.bytes
    if !env.sodium.verifyDetached hp.signature signed hp.userPubkey then
      (st.emit (.drop id .authFail),false)
    else
      match (st.find id).bind ConnectionRecord.handshake with
      | none => (st,false)
      | some hs =>
        match env.sodium.pkToCurve25519 hp.devicePubkey with
        | none => (st.emit (.drop id .authFail),false)
        | some expected =>
          if expected ≠ hs.rs then (st.emit (.drop id .authFail),false)
          else (st.modify id (st.authenticate hp (getSchemes data)),true)

/-- The scheme a record could be upgraded to: listed before its best path's scheme, with
a connector here, supported by the peer and not in use yet. -/
def Impl.upgradeScheme (st : Impl) (r : ConnectionRecord) (best : TransportPath) :
    Option String :=
  (st.schemePriority.takeWhile (fun s => s != best.scheme)).find? (fun scheme =>
    (st.findConnector scheme).isSome &&
    (if scheme = "ice" then r.peerCoreMeta.capsMask &&& coreCapIce != 0
     else r.peerSchemes.contains scheme) &&
    (r.findPath scheme).isNone)

def Impl.scheduleTransportUpgrade (st : Impl) (id : Nat) : Impl :=
  match st.find id with
  | none => st
  | some r =>
    if !r.established then st
    else
      match r.bestPath with
      | none => st
      | some best =>
        match st.upgradeScheme r best with
        | none => st
        | some scheme => st.emit (.connect scheme (scheme ++ "://" ++ r.pkHex))

/-- Whatever is left under the id and under the address of a rejected duplicate. -/
def Impl.removeDuplicate (st : Impl) (id : Nat) (r : ConnectionRecord) : Impl :=
  let st := st.emit (.duplicate id r st.toRegistry)
  { st with
    records := st.records.erase id,
    sendQueues := st.sendQueues.erase id,
    uriIndex := st.uriIndex.erase r.remote.key }

def Impl.rejectDuplicate (env : Env) (st : Impl) (id : Nat) (r : ConnectionRecord) : Impl :=
  (st.closeNow env id).removeDuplicate id r

/-- The split keys replace the handshake; a local connection drops its encryption. -/
def ConnectionRecord.committed (S : Sodium) (hs : Noise.HandshakeState) (r : ConnectionRecord) :
    ConnectionRecord :=
  let keys := hs.split S
  { r with
    session := some
      { sendKey := keys.1.key, recvKey := keys.2.key, handshakeHash := hs.symmetric.h },
    handshake := none,
    state := .established,
    localhostPassthrough := if r.isLocalhost then true else r.localhostPassthrough }

/-- Split and commit; the peer enters `pk_index_`. -/
def Impl.commitSession (env : Env) (st : Impl) (id : Nat) (r : ConnectionRecord)
    (hs : Noise.HandshakeState) : Impl :=
  let st := st.modify id (ConnectionRecord.committed env.sodium hs)
  let st := { st with pkIndex := st.pkIndex.insert r.pkHex id }
  st.emit (.established id r hs)

/-- Everything after the duplicate check. -/
def Impl.completeHandshake (env : Env) (st : Impl) (id : Nat) (r : ConnectionRecord)
    (hs : Noise.HandshakeState) : Impl :=
  let st := st.commitSession env id r hs
  let st := st.flushPendingMessages env r.remote.key id
  let st := st.emit (.notify r.pkHex .established)
  let st := st.emit (.stat .authOk 1 id)
  let st := st.emit (.connState id .established)
  if r.isInitiator then st.scheduleTransportUpgrade id else st

/-- Whether another connection of the same peer is indexed already. -/
def Impl.isDuplicate (st : Impl) (id : Nat) (r : ConnectionRecord) : Bool :=
  match st.pkIndex.lookup r.pkHex with
  | some existing => existing != id
  | none => false

def Impl.finalizeHandshake (env : Env) (st : Impl) (id : Nat) : Impl :=
  match st.find id with
  | none => st
  | some r =>
    match r.handshake with
    | none => st
    | some hs =>
      if st.isDuplicate id r then st.rejectDuplicate env id r
      else st.completeHandshake env id r hs

/-- The handshake a frame may act on: present, and in the right role. -/
def Impl.handshakeAs (st : Impl) (id : Nat) (initiator : Bool) : Option Noise.HandshakeState :=
  match (st.find id).bind ConnectionRecord.handshake with
  | some hs => if hs.initiator = initiator then some hs else none
  | none => none

/-- `uint8_t payload_out[1]` of `handle_noise_init`. -/
def initPayloadCapacity : Nat := 1

def Impl.handleNoiseInit (env : Env) (st : Impl) (id : Nat) (payload : Bytes) : Impl :=
  match st.handshakeAs id false with
  | none => st
  | some hs =>
    let d := st.readNoise env id .init hs payload initPayloadCapacity
    if !d.2.ok then (d.1.emit (.drop id .authFail)).closeNow env id
    else
      let w := d.1.writeNoise env id d.2.state (d.1.buildHandshakePayload env)
      if !w.2.ok then w.1.closeNow env id
      else w.1.sendFrame env id msgTypeNoiseResp w.2.out

/-- `handle_noise_resp` once the message has been read. -/
def Impl.afterResp (env : Env) (st : Impl) (id : Nat) (d : Noise.Read) : Impl :=
  if !d.ok then (st.emit (.drop id .authFail)).closeNow env id
  else
    let p := st.processHandshakePayload env id d.payloadOut
    if !p.2 then p.1.closeNow env id
    else
      let w := p.1.writeNoise env id d.state (p.1.buildHandshakePayload env)
      if !w.2.ok then w.1.closeNow env id
      else (w.1.sendFrame env id msgTypeNoiseFin w.2.out).finalizeHandshake env id

def Impl.handleNoiseResp (env : Env) (st : Impl) (id : Nat) (payload : Bytes) : Impl :=
  match st.handshakeAs id true with
  | none => st
  | some hs =>
    let d := st.readNoise env id .resp hs payload payload.length
    d.1.afterResp env id d.2

/-- `handle_noise_fin` once the message has been read. -/
def Impl.afterFin (env : Env) (st : Impl) (id : Nat) (d : Noise.Read) : Impl :=
  if !d.ok then (st.emit (.drop id .authFail)).closeNow env id
  else
    let p := st.processHandshakePayload env id d.payloadOut
    if !p.2 then p.1.closeNow env id
    else p.1.finalizeHandshake env id

def Impl.handleNoiseFin (env : Env) (st : Impl) (id : Nat) (payload : Bytes) : Impl :=
  match st.handshakeAs id false with
  | none => st
  | some hs =>
    let d := st.readNoise env id .fin hs payload payload.length
    d.1.afterFin env id d.2

end GoodNet
