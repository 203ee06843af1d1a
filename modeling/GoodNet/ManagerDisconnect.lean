import GoodNet.ManagerState
set_option autoImplicit false

/-! `core/cm/disconnect.cpp`. -/

namespace GoodNet
open Codec

def ConnectionRecord.dropPath (id : Nat) (r : ConnectionRecord) : ConnectionRecord :=
  { r with transportPaths := r.transportPaths.filter (fun p => p.transportConnId != id) }

def Impl.eraseUri (st : Impl) (key : String) : Impl := { st with uriIndex := st.uriIndex.erase key }

def Impl.eraseTransport (st : Impl) (id : Nat) : Impl :=
  { st with transportIndex := st.transportIndex.erase id }

/-- The secondary branch: only the transport path goes. -/
def Impl.dropTransport (st : Impl) (id peerId : Nat) : Impl :=
  let st := st.eraseTransport id
  match st.find peerId with
  | none => st
  | some r =>
    match r.findPathByTransportId id with
    | none => st.modify peerId (ConnectionRecord.dropPath id)
    | some p =>
      let st := (st.eraseUri p.remote.key).modify peerId (ConnectionRecord.dropPath id)
      if p.scheme = "" then st else st.emit (.transportChange peerId p.scheme false)

/-- Every secondary path of a record leaves the transport index. -/
def eraseTransports (index : Table Nat Nat) (id : Nat) (paths : List TransportPath) :
    Table Nat Nat :=
  paths.foldl (fun index p =>
    if p.transportConnId = id then index else index.erase p.transportConnId) index

/-- A record and everything indexed under it. `uri_index_` and `pk_index_` are cleared by
key, the latter whenever the peer has been authenticated. -/
def Impl.forgetPeer (st : Impl) (id : Nat) (r : ConnectionRecord) : Impl :=
  { st with
    transportIndex := eraseTransports st.transportIndex id r.transportPaths,
    records := st.records.erase id,
    sendQueues := st.sendQueues.erase id,
    uriIndex := st.uriIndex.erase r.remote.key,
    pendingMessages := st.pendingMessages.erase r.remote.key,
    pkIndex := if r.peerAuthenticated then st.pkIndex.erase r.pkHex else st.pkIndex }

/-- The primary branch. -/
def Impl.dropPeer (st : Impl) (id : Nat) : Impl :=
  match st.find id with
  | none => st
  | some r =>
    ((st.forgetPeer id r).emit (.stat .disconnect 1 id)).emit (.notify r.remote.key .closed)

def Impl.handleDisconnect (st : Impl) (id : Nat) : Impl :=
  let st := st.emit (.disconnecting id st.toRegistry)
  match st.transportIndex.lookup id with
  | some peerId => st.dropTransport id peerId
  | none => st.dropPeer id

/-- A connector has been told to close; it may report back before returning. -/
def Impl.closed (env : Env) (st : Impl) (via : Nat) : Impl :=
  if env.closes st.asked then st.ask.handleDisconnect via else st.ask

/-- `ops->close` on one path, if the connector has it; `true` when it was called. -/
def Impl.closeVia (env : Env) (st : Impl) (scheme : String) (via : Nat) : Impl × Bool :=
  match st.findConnector scheme with
  | some ops => if ops.hasClose then ((st.emit (.close scheme via)).closed env via,true) else (st,false)
  | none => (st,false)

/-- `close_now` on one path, falling back to `close`. -/
def Impl.closeNowVia (env : Env) (st : Impl) (scheme : String) (via : Nat) : Impl × Bool :=
  match st.findConnector scheme with
  | some ops =>
    if ops.hasCloseNow then ((st.emit (.closeNow scheme via)).closed env via,true)
    else if ops.hasClose then ((st.emit (.close scheme via)).closed env via,true)
    else (st,false)
  | none => (st,false)

/-- The loop of both closing functions over the paths of the record they hold on to. -/
def Impl.closePaths (close : Impl → String → Nat → Impl × Bool) (st : Impl) :
    List TransportPath → Impl × Bool
  | [] => (st,false)
  | p :: ps =>
    let one := close st p.scheme p.transportConnId
    let rest := one.1.closePaths close ps
    (rest.1,one.2 || rest.2)

def Impl.markDraining (st : Impl) (id : Nat) : Impl :=
  match st.sendQueues.lookup id with
  | some q => st.setQueue id { q with draining := true }
  | none => st

def Impl.disconnect (env : Env) (st : Impl) (id : Nat) : Impl :=
  let st := st.markDraining id
  match st.find id with
  | none => st
  | some r =>
    let done := st.closePaths (Impl.closeVia env) (r.transportPaths.filter (fun p => p.active))
    if done.2 then done.1 else (done.1.closeVia env r.fallbackScheme id).1

def Impl.closeNow (env : Env) (st : Impl) (id : Nat) : Impl :=
  match st.find id with
  | none => st
  | some r =>
    let done := st.closePaths (Impl.closeNowVia env) r.transportPaths
    if done.2 then done.1 else (done.1.closeNowVia env r.fallbackScheme id).1

end GoodNet
