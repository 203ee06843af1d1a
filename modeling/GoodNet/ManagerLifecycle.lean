import GoodNet.ManagerHandshake
set_option autoImplicit false

/-! `core/cm/lifecycle.cpp`: how records and secondary transports come into being. -/

namespace GoodNet
open Codec

def Impl.newRecord (env : Env) (st : Impl) (ep : Endpoint) : ConnectionRecord where
  id := st.nextId
  state := .noiseHandshake
  remote := ep
  isLocalhost := ep.trusted
  isInitiator := ep.outbound
  handshake := some (Noise.HandshakeState.init env.sodium ep.outbound
    ((env.sodium.pkToCurve25519 st.identity.devicePubkey).getD (env.random st.asked))
    (env.sodium.skToCurve25519 st.identity.deviceSeckey))
  transportPaths :=
    [{ transportConnId := st.nextId, scheme := "tcp", priority := st.schemePriorityIndex "tcp",
       remote := ep }]

/-- The record, its address and its queue are registered under the next id. -/
def Impl.insertRecord (env : Env) (st : Impl) (ep : Endpoint) : Impl :=
  let id := st.nextId
  let r := st.newRecord env ep
  let st := { st.ask with
    nextId := id+1,
    records := st.records.insert id r,
    uriIndex := st.uriIndex.insert ep.key id,
    sendQueues := st.sendQueues.insert id {} }
  (st.emit (.registered ep.key id)).emit (.stat .connect 1 id)

def Impl.handleConnect (env : Env) (st : Impl) (ep : Endpoint) : Impl × Nat :=
  if st.shuttingDown then (st,connIdInvalid)
  else
    let id := st.nextId
    let st := st.insertRecord env ep
    (if ep.outbound then st.sendNoiseInit env id else st,id)

/-- A further path of a peer under the next id, its own address included. -/
def Impl.attachTransport (st : Impl) (peerId : Nat) (ep : Endpoint) (scheme : String) : Impl :=
  let transportId := st.nextId
  let tp : TransportPath :=
    { transportConnId := transportId, scheme := scheme,
      priority := st.schemePriorityIndex scheme, remote := ep }
  let st := st.modify peerId (fun r => { r with transportPaths := r.transportPaths ++ [tp] })
  let st := { st with
    nextId := transportId+1,
    transportIndex := st.transportIndex.insert transportId peerId,
    uriIndex := st.uriIndex.insert ep.key peerId }
  (st.emit (.registered ep.key peerId)).emit (.transportChange peerId scheme true)

def Impl.handleAddTransport (st : Impl) (pubkeyHex : String) (ep : Endpoint) (scheme : String) :
    Impl × Nat :=
  if st.shuttingDown then (st,connIdInvalid)
  else
    let peerId := st.findConnByPubkey pubkeyHex
    if peerId = connIdInvalid then (st,connIdInvalid)
    else
      match st.find peerId with
      | none => (st,connIdInvalid)
      | some r =>
        if !r.established then (st,connIdInvalid)
        else if (r.findPath scheme).isSome then (st,connIdInvalid)
        else (st.attachTransport peerId ep scheme,st.nextId)

def Impl.closeAll (env : Env) (st : Impl) (ids : List Nat) : Impl :=
  ids.foldl (fun st id => st.closeNow env id) st

def Impl.shutdown (env : Env) (st : Impl) : Impl :=
  ({ st with shuttingDown := true } : Impl).closeAll env st.ids

def Impl.registerConnector (st : Impl) (scheme : String) (ops : ConnectorOps) : Impl :=
  { st with connectors := st.connectors.insert scheme ops }

def Impl.setSchemePriority (st : Impl) (priority : List String) : Impl :=
  { st with schemePriority := priority }

end GoodNet
