import GoodNet.ManagerState
set_option autoImplicit false

/-! `core/cm/transport.cpp`: framing, the per-connection queues and the send paths. -/

namespace GoodNet
open Codec

def Impl.compression (st : Impl) : Compression := st.config.getD {}

def Impl.buildFrame (env : Env) (st : Impl) (id : Nat) (msgType : UInt32) (payload : Bytes) :
    Impl × Bytes :=
  match st.find id with
  | none => (st,[])
  | some r =>
    (st.modify id ConnectionRecord.takePacketId,
      r.frame env.sodium env.zstd st.compression msgType payload)

/-- The `send_to` branch: every frame is tried, the verdict is their conjunction. -/
def Impl.sendEach (env : Env) (st : Impl) (owner : ConnectionRecord) (via : Nat) (scheme : String) :
    List Bytes → Impl × Bool
  | [] => (st,true)
  | f :: fs =>
    let ok := env.sends st.asked
    let st := st.ask.emit (.sendTo owner via scheme f ok)
    let st :=
      if ok then (st.emit (.stat .txBytes f.length via)).emit (.stat .txPacket 1 via) else st
    let rest := st.sendEach env owner via scheme fs
    (rest.1,ok && rest.2)

def Impl.flushFramesToConnector (env : Env) (st : Impl) (owner : ConnectionRecord) (via : Nat)
    (scheme : String) (ops : ConnectorOps) (frames : List Bytes) : Impl × Bool :=
  if frames.isEmpty then (st,true)
  else if ops.hasSendGather && decide (1 < frames.length) then
    let ok := env.sends st.asked
    let st := st.ask.emit (.sendGather owner via scheme frames ok)
    if ok then
      ((st.emit (.stat .txBytes (totalBytes frames) via)).emit
        (.stat .txPacket frames.length via),true)
    else (st,false)
  else st.sendEach env owner via scheme frames

def modifyPath (paths : List TransportPath) (via : Nat) (f : TransportPath → TransportPath) :
    List TransportPath :=
  paths.map (fun p => if p.transportConnId = via then f p else p)

def TransportPath.succeed (p : TransportPath) : TransportPath := { p with consecutiveErrors := 0 }

def TransportPath.fail (p : TransportPath) : TransportPath :=
  let errors := p.consecutiveErrors+1
  { p with consecutiveErrors := errors, active := if 3 ≤ errors then false else p.active }

def Impl.modifyPath (st : Impl) (id via : Nat) (f : TransportPath → TransportPath) : Impl :=
  st.modify id (fun r => { r with transportPaths := GoodNet.modifyPath r.transportPaths via f })

/-- The loop over the active paths, best priority first; `true` when one took the batch. -/
def Impl.tryPaths (env : Env) (st : Impl) (id : Nat) (owner : ConnectionRecord)
    (batch : List Bytes) : List TransportPath → Impl × Bool
  | [] => (st,false)
  | p :: ps =>
    match st.findConnector p.scheme with
    | none => st.tryPaths env id owner batch ps
    | some ops =>
      let sent := st.flushFramesToConnector env owner p.transportConnId p.scheme ops batch
      if sent.2 then (sent.1.modifyPath id p.transportConnId TransportPath.succeed,true)
      else
        (sent.1.modifyPath id p.transportConnId TransportPath.fail).tryPaths env id owner batch ps

/-- The active paths by priority, as `std::sort` leaves them. -/
def ConnectionRecord.activePaths (r : ConnectionRecord) : List TransportPath :=
  (r.transportPaths.filter (fun p => p.active)).insertionSort (fun a b => a.priority ≤ b.priority)

def Impl.flushQueue (env : Env) (st : Impl) (id : Nat) : Impl :=
  if st.shuttingDown then st
  else
    match st.find id, st.sendQueues.lookup id with
    | some r, some q =>
      let drained := q.drainBatch 64
      if drained.2.isEmpty then st
      else
        let st := st.setQueue id drained.1
        let paths := r.activePaths
        let tried := st.tryPaths env id r drained.2 paths
        if tried.2 then tried.1
        else
          match paths.isEmpty, tried.1.findConnector r.fallbackScheme with
          | true, some ops =>
            (tried.1.flushFramesToConnector env r id r.fallbackScheme ops drained.2).1
          | _, _ => tried.1.emit (.drop id .connectorNotFound)
    | _, _ => st

def Impl.getOrCreateQueue (st : Impl) (id : Nat) : Impl × PerConnQueue :=
  match st.sendQueues.lookup id with
  | some q => (st,q)
  | none => (st.setQueue id {},{})

/-- The second half of `send_frame`: reserve, append, flush. -/
def Impl.pushAndFlush (env : Env) (st : Impl) (id : Nat) (frame : Bytes) : Impl :=
  let q := st.getOrCreateQueue id
  let pushed := q.2.tryPush frame
  if pushed.2 then (q.1.setQueue id pushed.1).flushQueue env id
  else q.1.emit (.drop id .perConnLimitExceeded)

def Impl.sendFrame (env : Env) (st : Impl) (id : Nat) (msgType : UInt32) (payload : Bytes) : Impl :=
  if st.shuttingDown then st
  else
    let built := st.buildFrame env id msgType payload
    if built.2.isEmpty then built.1 else built.1.pushAndFlush env id built.2

/-- `payload` cut into pieces of `chunkSize`, the last one shorter. -/
def chunks (fuel : Nat) (payload : Bytes) : List Bytes :=
  match fuel, payload with
  | 0, _ => []
  | _, [] => []
  | fuel+1, b => b.take chunkSize :: chunks fuel (b.drop chunkSize)

def Impl.sendChunks (env : Env) (st : Impl) (id : Nat) (msgType : UInt32) (parts : List Bytes) :
    Impl :=
  parts.foldl (fun st part => st.sendFrame env id msgType part) st

/-- Append to the pending queue of a key, unless it is full. -/
def Impl.enqueuePending (env : Env) (st : Impl) (key : String) (msgType : UInt32)
    (payload : Bytes) : Impl × Bool :=
  let queue := (st.pendingMessages.lookup key).getD []
  if pendingMaxPerUri ≤ queue.length then
    ({ st with pendingMessages := st.pendingMessages.insert key queue },false)
  else
    ({ st.ask with pendingMessages :=
        st.pendingMessages.insert key (queue ++ [⟨msgType,payload,env.steady st.asked⟩]) },true)

/-- `send(uri, …)`. -/
def Impl.sendUri (env : Env) (st : Impl) (uri : String) (msgType : UInt32) (payload : Bytes) :
    Impl × Bool :=
  if uri = "" ∨ st.shuttingDown then (st,false)
  else
    let (scheme,key) := splitUri uri
    match st.resolveUri uri with
    | none =>
      let queued := st.enqueuePending env key msgType payload
      if !queued.2 then (queued.1,false)
      else
        match queued.1.findConnector scheme with
        | some _ => (queued.1.emit (.connect scheme uri),true)
        | none => (queued.1,true)
    | some id =>
      match st.find id with
      | none => (st,false)
      | some r =>
        if !r.established && !isHandshakeType msgType then
          st.enqueuePending env key msgType payload
        else if globalMaxInFlight < st.getPendingBytes+payload.length then
          (st.emit (.stat .backpressure 1 id),false)
        else if chunkSize*2 < payload.length then
          (st.sendChunks env id msgType (chunks payload.length payload),true)
        else (st.sendFrame env id msgType payload,true)

/-- `send(conn_id_t, …)`, which is also `send_response` of the plugin API. -/
def Impl.send (env : Env) (st : Impl) (id : Nat) (msgType : UInt32) (payload : Bytes) :
    Impl × Bool :=
  match st.find id with
  | none => (st,false)
  | some r => ((st.emit (.direct r msgType)).sendFrame env id msgType payload,true)

def Impl.establishedIn (st : Impl) (id : Nat) : Bool :=
  match st.find id with
  | some r => r.established
  | none => false

def Impl.sendAll (env : Env) (st : Impl) (ids : List Nat) (msgType : UInt32) (payload : Bytes) :
    Impl :=
  ids.foldl (fun st id =>
    if st.establishedIn id then st.sendFrame env id msgType payload else st) st

def Impl.broadcast (env : Env) (st : Impl) (msgType : UInt32) (payload : Bytes) : Impl :=
  st.sendAll env st.ids msgType payload

def Impl.sendMessages (env : Env) (st : Impl) (id : Nat) (messages : List PendingMessage) : Impl :=
  messages.foldl (fun st m => st.sendFrame env id m.msgType m.payload) st

def Impl.flushPendingMessages (env : Env) (st : Impl) (key : String) (id : Nat) : Impl :=
  match st.pendingMessages.lookup key with
  | none => st
  | some [] => st
  | some messages =>
    ({ st with pendingMessages := st.pendingMessages.erase key } : Impl).sendMessages env id messages

/-- A queue is touched only when its oldest message is past the limit. -/
def Impl.cleanupStalePending (env : Env) (st : Impl) : Impl :=
  let now := env.steady st.asked
  let stale := (st.pendingMessages.entries.filter (fun e =>
    match e.2 with
    | [] => false
    | m :: _ => decide (pendingTtl < now-m.queuedAt))).map Sigma.fst
  stale.foldl (fun st key =>
    match st.pendingMessages.lookup key with
    | none => st
    | some queue =>
      let kept := queue.filter (fun m => decide (now-m.queuedAt ≤ pendingTtl))
      if kept.isEmpty then { st with pendingMessages := st.pendingMessages.erase key }
      else { st with pendingMessages := st.pendingMessages.insert key kept }) st.ask

/-- `connect(uri)`: the scheme picks the connector. -/
def Impl.connect (st : Impl) (uri : String) : Impl :=
  let scheme := (splitUri uri).1
  match st.findConnector scheme with
  | some _ => st.emit (.connect scheme uri)
  | none => st

end GoodNet
