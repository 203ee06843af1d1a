import GoodNet.ConnectionRecord
import Mathlib.Data.List.AList
import Mathlib.Data.List.Sort
set_option autoImplicit false

/-! The state of `ConnectionManager::Impl`, the environment it runs in and the trace of
what it does to that environment. -/

namespace GoodNet
open Codec

abbrev Table (κ υ : Type) := AList (fun _ : κ => υ)

inductive DropReason where
  | badMagic | badProtoVer | connNotFound | stateNotEstablished | authFail | decryptFail
  | perConnLimitExceeded | rejectedByHandler | relayDropped | trustedFromRemote
  | recvBufOverflow | connectorNotFound
  deriving DecidableEq, Repr

inductive StatKind where
  | rxBytes | txBytes | rxPacket | txPacket | authOk | backpressure | consumed | rejected
  | connect | disconnect
  deriving DecidableEq, Repr

inductive Propagation where
  | carryOn | consumed | reject
  deriving DecidableEq, Repr

structure EmitResult where
  result : Propagation := .carryOn
  consumedBy : String := ""
  deriving DecidableEq, Repr

/-- Where `dispatch_packet` hands a payload to. -/
inductive Sink where
  | bus | heartbeat | relay
  deriving DecidableEq, Repr

inductive NoiseFrame where
  | init | resp | fin
  deriving DecidableEq, Repr

/-- The records and the three indices over them. -/
structure Registry where
  records : Table Nat ConnectionRecord := ∅
  uriIndex : Table String Nat := ∅
  pkIndex : Table String Nat := ∅
  transportIndex : Table Nat Nat := ∅

/-- One observable action, or one fact about a step worth keeping: a record or registry
in it is the one the step found. -/
inductive Effect where
  | sendTo (owner : ConnectionRecord) (via : Nat) (scheme : String) (frame : Bytes) (ok : Bool)
  | sendGather (owner : ConnectionRecord) (via : Nat) (scheme : String) (frames : List Bytes)
      (ok : Bool)
  | connect (scheme uri : String)
  | close (scheme : String) (via : Nat)
  | closeNow (scheme : String) (via : Nat)
  | deliver (owner : ConnectionRecord) (sink : Sink) (hdr : Header) (remote : Endpoint)
      (wire payload : Bytes)
  | accepted (id : Nat) (packetId : UInt64)
  | rekeyed (id : Nat)
  | noiseRead (id : Nat) (kind : NoiseFrame) (before : Noise.HandshakeState) (msg : Bytes)
      (capacity : Nat) (result : Noise.Read)
  | noiseWrite (id : Nat) (before : Noise.HandshakeState) (secret : Key) (result : Noise.Written)
  | established (id : Nat) (owner : ConnectionRecord) (handshake : Noise.HandshakeState)
  | registered (key : String) (id : Nat)
  | disconnecting (id : Nat) (found : Registry)
  | duplicate (id : Nat) (owner : ConnectionRecord) (found : Registry)
  | direct (owner : ConnectionRecord) (msgType : UInt32)
  | stat (kind : StatKind) (value id : Nat)
  | drop (id : Nat) (why : DropReason)
  | connState (id : Nat) (state : ConnState)
  | notify (uri : String) (state : ConnState)
  | transportChange (peer : Nat) (scheme : String) (added : Bool)

structure PendingMessage where
  msgType : UInt32
  payload : Bytes
  queuedAt : Nat
  deriving DecidableEq, Repr

structure NodeIdentity where
  userPubkey : Key
  userSeckey : Block 64
  devicePubkey : Key
  deviceSeckey : Block 64
  deriving DecidableEq, Repr

/-- The optional entries of a connector's table of operations. -/
structure ConnectorOps where
  hasSendGather : Bool := false
  hasClose : Bool := true
  hasCloseNow : Bool := true
  deriving DecidableEq, Repr

structure RelayFingerprint where
  senderHash : UInt64
  packetId : UInt64
  ts : Nat
  deriving DecidableEq, Repr

def perConnMaxBytes : Nat := 8*1024*1024

structure PerConnQueue where
  frames : List Bytes := []
  pendingBytes : Nat := 0
  draining : Bool := false
  deriving DecidableEq, Repr

def PerConnQueue.tryPush (q : PerConnQueue) (frame : Bytes) : PerConnQueue × Bool :=
  if perConnMaxBytes < q.pendingBytes+frame.length then (q,false)
  else ({ q with frames := q.frames ++ [frame], pendingBytes := q.pendingBytes+frame.length },true)

def totalBytes (frames : List Bytes) : Nat := (frames.map List.length).sum

def PerConnQueue.drainBatch (q : PerConnQueue) (maxFrames : Nat) : PerConnQueue × List Bytes :=
  let batch := q.frames.take maxFrames
  ({ q with frames := q.frames.drop maxFrames,
            pendingBytes := q.pendingBytes-totalBytes batch },batch)

/-- What the world answers. Every question draws the next answer of its kind, so one
environment fixes the connectors, the handlers, the clocks and the random numbers of a
whole run. `closes` says whether a connector reports the disconnect before `close` or
`close_now` returns. -/
structure Env where
  sodium : Sodium
  zstd : Zstd
  random : Nat → Key
  sends : Nat → Bool
  closes : Nat → Bool
  handler : Nat → EmitResult
  steady : Nat → Nat
  wall : Nat → Nat
  hash : UInt64 → UInt64

structure Impl extends Registry where
  sendQueues : Table Nat PerConnQueue := ∅
  relayDedup : List RelayFingerprint := []
  config : Option Compression := none
  identity : NodeIdentity
  shuttingDown : Bool := false
  nextId : Nat := 1
  schemePriority : List String := ["tcp","ice"]
  connectors : Table String ConnectorOps := ∅
  pendingMessages : Table String (List PendingMessage) := ∅
  asked : Nat := 0
  log : List Effect := []

def pendingTtl : Nat := 30*10^9
def pendingMaxPerUri : Nat := 100
def heartbeatInterval : Nat := 30*10^9
def maxMissedHeartbeats : UInt32 := 3
def globalMaxInFlight : Nat := 512*1024*1024
def chunkSize : Nat := 1024*1024
def maxRecvBuf : Nat := 16*1024*1024

def Impl.find (st : Impl) (id : Nat) : Option ConnectionRecord := st.records.lookup id

def Impl.emit (st : Impl) (e : Effect) : Impl := { st with log := e :: st.log }

/-- One more question to the environment has been answered. -/
def Impl.ask (st : Impl) : Impl := { st with asked := st.asked+1 }

def Impl.setQueue (st : Impl) (id : Nat) (q : PerConnQueue) : Impl :=
  { st with sendQueues := st.sendQueues.insert id q }

/-- A write through the shared record pointer. -/
def Impl.modify (st : Impl) (id : Nat) (f : ConnectionRecord → ConnectionRecord) : Impl :=
  { st with records :=
      match st.find id with
      | none => st.records
      | some r => st.records.insert id (f r) }

theorem Impl.find_modify (st : Impl) (id j : Nat) (f : ConnectionRecord → ConnectionRecord) :
    (st.modify id f).find j = if j = id then (st.find id).map f else st.find j := by
  unfold modify
  cases h : st.find id with
  | none =>
    by_cases hj : j = id
    · subst hj
      simpa [find] using h
    · simp [find,hj]
  | some r =>
    by_cases hj : j = id
    · subst hj
      simp [find]
    · simp [find,hj,AList.lookup_insert_ne hj]

@[simp] theorem Impl.find_modify_self (st : Impl) (id : Nat)
    (f : ConnectionRecord → ConnectionRecord) : (st.modify id f).find id = (st.find id).map f := by
  simp [find_modify]

@[simp] theorem Impl.find_emit (st : Impl) (e : Effect) (id : Nat) :
    (st.emit e).find id = st.find id := rfl

@[simp] theorem Impl.find_ask (st : Impl) (id : Nat) : st.ask.find id = st.find id := rfl

@[simp] theorem Impl.log_emit (st : Impl) (e : Effect) : (st.emit e).log = e :: st.log := rfl

@[simp] theorem Impl.log_modify (st : Impl) (id : Nat)
    (f : ConnectionRecord → ConnectionRecord) : (st.modify id f).log = st.log := rfl

def Impl.ids (st : Impl) : List Nat := st.records.entries.map Sigma.fst

def Impl.findConnector (st : Impl) (scheme : String) : Option ConnectorOps :=
  st.connectors.lookup (if scheme = "" then "tcp" else scheme)

def Impl.findConnByPubkey (st : Impl) (pubkeyHex : String) : Nat :=
  (st.pkIndex.lookup pubkeyHex).getD connIdInvalid

def Impl.localSchemes (st : Impl) : List String := st.connectors.entries.map Sigma.fst

def Impl.schemePriorityIndex (st : Impl) (scheme : String) : UInt8 :=
  match st.schemePriority.findIdx? (fun s => s == scheme) with
  | some i => UInt8.ofNat i
  | none => 255

def Impl.negotiateScheme (st : Impl) (r : ConnectionRecord) : String :=
  match st.schemePriority.find? (fun prio =>
      st.localSchemes.contains prio && (r.peerSchemes.isEmpty || r.peerSchemes.contains prio)) with
  | some prio => prio
  | none => st.localSchemes.head?.getD "tcp"

def Impl.localCoreMeta (st : Impl) : CoreMeta where
  coreVersion := gnCoreVersion
  capsMask :=
    let base := coreCapZstd ||| coreCapKeyrot ||| coreCapRelay
    if (st.connectors.lookup "ice").isSome then base ||| coreCapIce else base

/-- What follows `://` in a URI, if anything does. -/
def afterScheme : List Char → Option (List Char × List Char)
  | [] => none
  | c :: cs =>
    match c :: cs with
    | ':' :: '/' :: '/' :: rest => some ([],rest)
    | _ => (afterScheme cs).map (fun p => (c :: p.1,p.2))

/-- Scheme and key of a URI, with `tcp` as the default scheme. -/
def splitUri (uri : String) : String × String :=
  match afterScheme uri.toList with
  | some (scheme,rest) => (String.ofList scheme,String.ofList rest)
  | none => ("tcp",uri)

def Impl.resolveUri (st : Impl) (uri : String) : Option Nat := st.uriIndex.lookup (splitUri uri).2

def Impl.getPendingBytes (st : Impl) : Nat :=
  (st.sendQueues.entries.map (fun e => e.2.pendingBytes)).sum

end GoodNet
