import GoodNet.StunMessage
import GoodNet.Lib.History
import Mathlib.Data.List.Sort
set_option autoImplicit false

/-! `plugins/connectors/ice/session.cpp` and the STUN client it owns. A session is driven by
calls of the connector, by datagrams and by its timers. A timer that runs out, or a receive
that completes, puts its handler into the queue of the `io_context`; `cancel` and the closing
of the socket stop what has not got there yet. -/

namespace GoodNet.Ice
open Codec

inductive SessionState where
  | new | gathering | waitingRemote | checking | connected | failed
  deriving DecidableEq, Repr

inductive CandidateType where
  | host
  | srflx
  | other (raw : UInt8)
  deriving DecidableEq, Repr

def CandidateType.ofByte (raw : UInt8) : CandidateType :=
  if raw = 0 then .host else if raw = 1 then .srflx else .other raw

structure Candidate where
  type : CandidateType := .host
  endpoint : StunAddress := {}
  priority : UInt32 := 0
  deriving DecidableEq, Repr

def computePriority (type : CandidateType) (localPref : UInt16) : UInt32 :=
  let typePref : UInt32 := if type = .host then 126 else 100
  (typePref <<< 24) ||| (localPref.toUInt32 <<< 8) ||| 255

structure IceCredentials where
  ufrag : Bytes := []
  pwd : Bytes := []
  deriving DecidableEq, Repr

inductive PairState where
  | waiting | inProgress | succeeded | failed
  deriving DecidableEq, Repr

structure CandidatePair where
  localCand : Candidate
  remoteCand : Candidate
  priority : UInt64 := 0
  state : PairState := .waiting
  checkTxn : TransactionId := Block.zero 12
  deriving DecidableEq, Repr

def pairPriority (controllingPrio controlledPrio : UInt32) (weAreControlling : Bool) : UInt64 :=
  let g := if weAreControlling then controllingPrio.toUInt64 else controlledPrio.toUInt64
  let d := if weAreControlling then controlledPrio.toUInt64 else controllingPrio.toUInt64
  ((min g d) <<< 32)+2*max g d+(if d < g then 1 else 0)

structure IceCandidateWire where
  type : UInt8
  family : UInt8
  port : UInt16
  priority : UInt32
  addr : Block 16
  deriving DecidableEq, Repr

def wireToCandidate (w : IceCandidateWire) : Candidate where
  type := CandidateType.ofByte w.type
  priority := w.priority
  endpoint :=
    if w.family = 4 then ⟨.v4 (Block.ofBytes 4 w.addr.bytes),w.port⟩ else ⟨.v6 w.addr,w.port⟩

structure IceSignalData where
  ufrag : Block 16
  pwd : Block 24
  deriving DecidableEq, Repr

structure StunServer where
  host : String
  port : UInt16 := 19302
  deriving DecidableEq, Repr

/-- The durations are left out: when a timer runs out is up to the run. -/
structure IceConfig where
  stunServers : List StunServer
  consentMaxFailures : Int := 3
  deriving DecidableEq, Repr

inductive IceTimer where
  | check | timeout | keepalive | retry
  deriving DecidableEq, Repr

inductive IceHandler where
  | timer (t : IceTimer)
  | recv (bytes : Nat)
  deriving DecidableEq, Repr

structure StunClient where
  active : Bool := false
  pendingTxn : TransactionId := Block.zero 12
  stunEp : StunAddress := {}
  retries : Nat := 0
  deriving DecidableEq, Repr

/-- What the world answers, each question drawing the next answer: random transaction ids,
resolver results, whether a request of the STUN client could be sent, and the own address
found by connecting a probe socket to a STUN server. -/
structure IceWorld where
  hmac : HmacSha1
  random : Nat → TransactionId
  resolves : Nat → Option StunAddress
  sends : Nat → Bool
  probe : Nat → Option IpAddress
  localPort : UInt16

/-- Changes of state, calls of the callbacks, packets on the socket; `closing` marks the point
where `close` has set its flag. -/
inductive IceEffect where
  | transition (before after : SessionState)
  | onGathered
  | onConnected
  | onFailed
  | onData (data : Bytes)
  | sent (dest : StunAddress) (packet : Bytes)
  | closing
  deriving DecidableEq, Repr

/-- `recvBuf` holds the bytes that have been written to the receive buffer, which is zero
behind them. `armed`, `receiving` and `due` are the waits, the receive and the handlers of
this session that the `io_context` knows of. -/
structure IceSession where
  controlling : Bool
  config : IceConfig
  localCreds : IceCredentials
  tieBreaker : UInt64
  state : SessionState := .new
  remoteCreds : IceCredentials := {}
  socketOpen : Bool := true
  localCandidates : List Candidate := []
  remoteCandidates : List Candidate := []
  checkList : List CandidatePair := []
  nominated : Bool := false
  remoteEp : StunAddress := {}
  stunClient : StunClient := {}
  stunTryIdx : Nat := 0
  nextCheckIdx : Nat := 0
  keepaliveTxn : TransactionId := Block.zero 12
  consentMissed : Int := 0
  recvBuf : Bytes := []
  recvFrom : StunAddress := {}
  recvActive : Bool := false
  closed : Bool := false
  armed : List IceTimer := []
  receiving : Bool := false
  due : List IceHandler := []
  asked : Nat := 0
  log : List IceEffect := []
  deriving DecidableEq, Repr

def alphanumerics : Bytes :=
  ("abcdefghijklmnopqrstuvwxyzABCDEFGHIJKLMNOPQRSTUVWXYZ0123456789".toList).map
    (fun c => UInt8.ofNat c.toNat)

def randomAlphanumeric (random : Bytes) (len : Nat) : Bytes :=
  (List.range len).map (fun i => alphanumerics.getD ((random.getD i 0).toNat%62) 0)

def generateCredentials (ufrag pwd : Bytes) : IceCredentials :=
  ⟨randomAlphanumeric ufrag 16,randomAlphanumeric pwd 24⟩

/-- The constructor, with the random bytes it draws. -/
def IceSession.create (controlling : Bool) (config : IceConfig) (ufrag pwd : Bytes)
    (tieBreaker : UInt64) : IceSession :=
  { controlling := controlling, config := config, localCreds := generateCredentials ufrag pwd,
    tieBreaker := tieBreaker }

def IceSession.emit (s : IceSession) (e : IceEffect) : IceSession := { s with log := e :: s.log }

def IceSession.ask (s : IceSession) : IceSession := { s with asked := s.asked+1 }

def IceSession.transition (s : IceSession) (next : SessionState) : IceSession :=
  ({ s with state := next } : IceSession).emit (.transition s.state next)

/-- `expires_after` and `async_wait`: a wait that was still on is replaced. -/
def IceSession.arm (s : IceSession) (t : IceTimer) : IceSession :=
  { s with armed := t :: s.armed.filter (fun u => u != t) }

def IceSession.cancel (s : IceSession) (t : IceTimer) : IceSession :=
  { s with armed := s.armed.filter (fun u => u != t) }

def IceSession.sendTo (s : IceSession) (dest : StunAddress) (packet : Bytes) : IceSession :=
  if s.socketOpen then s.emit (.sent dest packet) else s

/-- The name a check carries: the peer's fragment, a colon, our own. -/
def IceSession.username (s : IceSession) : Bytes := s.remoteCreds.ufrag ++ 58 :: s.localCreds.ufrag

def IceSession.fail (s : IceSession) : IceSession := (s.transition .failed).emit .onFailed

def IceSession.checkPair (w : IceWorld) (s : IceSession) (i : Nat) : IceSession :=
  match s.checkList[i]? with
  | none => s
  | some pair =>
    let txn := w.random s.asked
    ({ s.ask with
      checkList := s.checkList.set i { pair with state := .inProgress, checkTxn := txn } } :
        IceSession).sendTo pair.remoteCand.endpoint
      (buildCheckRequest w.hmac txn s.username s.remoteCreds.pwd pair.localCand.priority
        s.controlling s.controlling s.tieBreaker)

def IceSession.isWaiting (s : IceSession) (i : Nat) : Bool :=
  match s.checkList[i]? with
  | some pair => pair.state == .waiting
  | none => false

/-- The loop over the check list, up to the first pair that waits. -/
def IceSession.checkNext (w : IceWorld) (s : IceSession) : IceSession :=
  match ((List.range s.checkList.length).drop s.nextCheckIdx).find? s.isWaiting with
  | some i => { s.checkPair w i with nextCheckIdx := i+1 }
  | none => { s with nextCheckIdx := max s.nextCheckIdx s.checkList.length }

def IceSession.sendNextCheck (w : IceWorld) (s : IceSession) : IceSession :=
  if s.state ≠ .checking ∨ s.closed = true then s
  else
    let s := s.checkNext w
    let anyWaiting := s.checkList.any (fun p => p.state == .waiting)
    let anyInProgress := s.checkList.any (fun p => p.state == .inProgress)
    if !anyWaiting && !anyInProgress && !s.nominated then s.fail
    else if anyWaiting then s.arm .check else s

/-- The pairs of one address family, best priority first. -/
def IceSession.formCheckList (s : IceSession) : IceSession :=
  let pairs := s.localCandidates.flatMap (fun l =>
    (s.remoteCandidates.filter (fun r => l.endpoint.ip.isV4 == r.endpoint.ip.isV4)).map (fun r =>
      ({ localCand := l, remoteCand := r,
         priority := pairPriority l.priority r.priority s.controlling } : CandidatePair)))
  { s with
    checkList := pairs.insertionSort (fun a b => b.priority ≤ a.priority),
    nextCheckIdx := 0 }

/-- Both ends have named their candidates. -/
def IceSession.beginChecks (w : IceWorld) (s : IceSession) : IceSession :=
  (((s.transition .checking).formCheckList).arm .timeout).sendNextCheck w

def IceSession.gatheringComplete (w : IceWorld) (s : IceSession) : IceSession :=
  if s.state ≠ .gathering then s
  else
    let s := if s.remoteCandidates.isEmpty then s.transition .waitingRemote else s.beginChecks w
    s.emit .onGathered

def srflxCandidate (addr : StunAddress) : Candidate :=
  { type := .srflx, endpoint := addr, priority := computePriority .srflx 65534 }

def IceSession.onSrflxResult (w : IceWorld) (s : IceSession) (addr : Option StunAddress) :
    IceSession :=
  match addr with
  | some a =>
    ({ s with localCandidates := s.localCandidates ++ [srflxCandidate a] } :
      IceSession).gatheringComplete w
  | none => s.gatheringComplete w

/-- The request of the STUN client is over; for an answer see `onSrflxResult`. -/
def IceSession.clientDone (s : IceSession) : IceSession :=
  { s with stunClient := { s.stunClient with active := false } }

/-- `StunClient::resolve` for one server; `false` when it has called back with nothing. -/
def IceSession.requestServer (w : IceWorld) (s : IceSession) : IceSession × Bool :=
  let s := { s with stunClient := { s.stunClient with active := true, retries := 0 } }
  match w.resolves s.asked with
  | none => (s.ask.clientDone,false)
  | some ep =>
    let txn := w.random s.asked
    let sendable := s.socketOpen && w.sends s.asked
    let s := ({ s.ask with
      stunClient := { s.stunClient with stunEp := ep, pendingTxn := txn } } : IceSession).sendTo ep
        (buildBindingRequest txn)
    if sendable then (s.arm .retry,true) else (s.clientDone,false)

/-- `try_next_stun_server` over the servers that are left: one that fails at once hands over
to the next. -/
def IceSession.tryServers (w : IceWorld) : List StunServer → IceSession → IceSession
  | [], s => s.onSrflxResult w none
  | _ :: rest, s =>
    let asked := s.requestServer w
    if asked.2 then asked.1
    else tryServers w rest { asked.1 with stunTryIdx := asked.1.stunTryIdx+1 }

def IceSession.tryNextStunServer (w : IceWorld) (s : IceSession) : IceSession :=
  s.tryServers w (s.config.stunServers.drop s.stunTryIdx)

/-- `finish(nullopt)`, which makes the session go on to the next server. -/
def IceSession.clientFailed (w : IceWorld) (s : IceSession) : IceSession :=
  ({ s.clientDone with stunTryIdx := s.stunTryIdx+1 } : IceSession).tryNextStunServer w

def loopback : IpAddress := .v4 ⟨[127,0,0,1],rfl⟩

/-- The address of the first probe that could be connected, or the loopback address. -/
def IceSession.hostAddress (w : IceWorld) (s : IceSession) : IpAddress :=
  match (List.range s.config.stunServers.length).findSome? (fun i => w.probe (s.asked+i)) with
  | some a => if a.isUnspecified then loopback else a
  | none => loopback

def IceSession.gatherHostCandidates (w : IceWorld) (s : IceSession) : IceSession :=
  { s with
    asked := s.asked+s.config.stunServers.length,
    localCandidates := s.localCandidates ++
      [{ type := .host, endpoint := ⟨s.hostAddress w,w.localPort⟩,
         priority := computePriority .host 65535 }] }

def IceSession.doRecv (s : IceSession) : IceSession :=
  if s.closed then s else { s with receiving := true }

def IceSession.startRecvLoop (s : IceSession) : IceSession :=
  if s.recvActive || s.closed then s else ({ s with recvActive := true } : IceSession).doRecv

/-- On a closed socket `local_endpoint` throws, after the first transition. -/
def IceSession.gather (w : IceWorld) (s : IceSession) : IceSession :=
  if s.state ≠ .new then s
  else
    let s := s.transition .gathering
    if !s.socketOpen then s
    else
      ({ (s.gatherHostCandidates w).startRecvLoop with stunTryIdx := 0 } :
        IceSession).tryNextStunServer w

/-- The characters of a fixed array up to the first zero. -/
def upToZero (b : Bytes) : Bytes := b.takeWhile (· ≠ 0)

def IceSession.setRemote (w : IceWorld) (s : IceSession) (remote : IceSignalData)
    (candidates : List IceCandidateWire) : IceSession :=
  let s := { s with
    remoteCreds := ⟨upToZero remote.ufrag.bytes,upToZero remote.pwd.bytes⟩,
    remoteCandidates := candidates.map wireToCandidate }
  if s.state = .waitingRemote then s.beginChecks w else s

def IceSession.startChecks (w : IceWorld) (s : IceSession) : IceSession :=
  if s.state = .waitingRemote ∧ s.remoteCandidates ≠ [] then s.beginChecks w else s

def IceSession.sendKeepalive (w : IceWorld) (s : IceSession) : IceSession :=
  if !s.nominated || s.closed || s.state != .connected then s
  else
    let txn := w.random s.asked
    let s := ({ s.ask with keepaliveTxn := txn } : IceSession).sendTo s.remoteEp
      (buildCheckRequest w.hmac txn s.username s.remoteCreds.pwd
        (match s.localCandidates with
         | [] => 0
         | c :: _ => c.priority) false s.controlling s.tieBreaker)
    ({ s with consentMissed := s.consentMissed+1 } : IceSession).arm .keepalive

def IceSession.startKeepalive (w : IceWorld) (s : IceSession) : IceSession :=
  ({ s with consentMissed := 0 } : IceSession).sendKeepalive w

def IceSession.nominate (w : IceWorld) (s : IceSession) (pairIdx : Nat) : IceSession :=
  match s.nominated, s.checkList[pairIdx]? with
  | false, some pair =>
    let s := { s with nominated := true, remoteEp := pair.remoteCand.endpoint }
    ((((s.cancel .check).cancel .timeout).transition .connected).startKeepalive w).emit .onConnected
  | _, _ => s

def IceSession.markSucceeded (s : IceSession) (i : Nat) : IceSession :=
  match s.checkList[i]? with
  | none => s
  | some pair => { s with checkList := s.checkList.set i { pair with state := .succeeded } }

def IceSession.handleStunResponse (w : IceWorld) (s : IceSession) (data : Bytes) : IceSession :=
  match parseBindingResponse data with
  | none => s
  | some result =>
    if s.nominated ∧ result.txnId = s.keepaliveTxn then { s with consentMissed := 0 }
    else
      match s.checkList.findIdx? (fun p =>
          p.state == .inProgress && p.checkTxn == result.txnId) with
      | none => s
      | some i =>
        let s := s.markSucceeded i
        if s.controlling && !s.nominated then s.nominate w i else s

/-- A candidate that was not listed: the peer is reached under an address we learn here. -/
def IceSession.reflexivePair (s : IceSession) (origin : StunAddress) (priority : UInt32) :
    CandidatePair :=
  let here := s.localCandidates.headD {}
  { localCand := here,
    remoteCand := { type := .host, endpoint := origin, priority := priority },
    state := .succeeded,
    priority := pairPriority here.priority priority s.controlling }

def IceSession.nominateFrom (w : IceWorld) (s : IceSession) (origin : StunAddress)
    (priority : UInt32) : IceSession :=
  match s.checkList.findIdx? (fun p => p.remoteCand.endpoint == origin) with
  | some i => (s.markSucceeded i).nominate w i
  | none =>
    ({ s with checkList := s.checkList ++ [s.reflexivePair origin priority] } :
      IceSession).nominate w s.checkList.length

/-- What is behind a datagram of `n` bytes in the receive buffer. -/
def IceSession.beyond (s : IceSession) (n : Nat) : Bytes :=
  s.recvBuf.drop n ++ List.replicate stunHmacSize 0

def IceSession.handleStunRequest (w : IceWorld) (s : IceSession) (data : Bytes) : IceSession :=
  match parseBindingRequest w.hmac data (s.beyond data.length) s.localCreds.pwd with
  | none => s
  | some req =>
    let s := s.sendTo s.recvFrom (buildCheckResponse w.hmac req.txnId s.recvFrom s.localCreds.pwd)
    if req.useCandidate && !s.controlling && !s.nominated then
      s.nominateFrom w s.recvFrom req.priority
    else s

def IceSession.handleStunPacket (w : IceWorld) (s : IceSession) (data : Bytes) : IceSession :=
  if readU16 data = stunBindingResponse then s.handleStunResponse w data
  else if readU16 data = stunBindingRequest then s.handleStunRequest w data
  else s

/-- What a datagram answers the pending request of the STUN client with, if it does. -/
def StunClient.feed (c : StunClient) (data : Bytes) : Option StunAddress :=
  if c.active && isStunPacket data then
    match parseBindingResponse data with
    | some result => if result.txnId = c.pendingTxn then some result.mapped else none
    | none => none
  else none

def IceSession.onRecv (w : IceWorld) (s : IceSession) (n : Nat) : IceSession :=
  let data := s.recvBuf.take n
  match s.stunClient.feed data with
  | some addr => ((s.cancel .retry).clientDone).onSrflxResult w (some addr)
  | none =>
    if isStunPacket data then s.handleStunPacket w data
    else if s.nominated ∧ s.state = .connected then s.emit (.onData data)
    else s

def maxRetries : Nat := 3

/-- The handler of the STUN client's timer: give up, or send a request with a new id. -/
def IceSession.retryExpired (w : IceWorld) (s : IceSession) : IceSession :=
  if !s.stunClient.active then s
  else
    let s := { s with stunClient := { s.stunClient with retries := s.stunClient.retries+1 } }
    if maxRetries ≤ s.stunClient.retries then s.clientFailed w
    else
      let txn := w.random s.asked
      (({ s.ask with stunClient := { s.stunClient with pendingTxn := txn } } : IceSession).sendTo
        s.stunClient.stunEp (buildBindingRequest txn)).arm .retry

def IceSession.timeoutExpired (s : IceSession) : IceSession :=
  if s.state = .checking ∧ s.nominated = false then s.fail else s

def IceSession.keepaliveExpired (w : IceWorld) (s : IceSession) : IceSession :=
  if s.config.consentMaxFailures ≤ s.consentMissed then (s.cancel .keepalive).fail
  else s.sendKeepalive w

def IceSession.fire (w : IceWorld) (s : IceSession) : IceHandler → IceSession
  | .timer .check => s.sendNextCheck w
  | .timer .timeout => s.timeoutExpired
  | .timer .keepalive => s.keepaliveExpired w
  | .timer .retry => s.retryExpired w
  | .recv n => (s.onRecv w n).doRecv

def IceSession.send (s : IceSession) (data : Bytes) : IceSession :=
  if !s.nominated || s.state != .connected || s.closed then s else s.sendTo s.remoteEp data

/-- `StunClient::cancel`. -/
def IceSession.cancelClient (w : IceWorld) (s : IceSession) : IceSession :=
  if s.stunClient.active then (s.cancel .retry).clientFailed w else s

def IceSession.close (w : IceWorld) (s : IceSession) : IceSession :=
  if s.closed then s
  else
    let s := (({ s with closed := true } : IceSession).emit .closing).cancelClient w
    { ((s.cancel .check).cancel .timeout).cancel .keepalive with
      socketOpen := false, receiving := false }

inductive IceEvent where
  | gather
  | setRemote (remote : IceSignalData) (candidates : List IceCandidateWire)
  | startChecks
  | send (data : Bytes)
  | close
  | elapse (t : IceTimer)
  | arrive (origin : StunAddress) (data : Bytes)
  | recvFailed
  | run (i : Nat)
  deriving DecidableEq, Repr

def recvBufSize : Nat := 65536

/-- A receive completes: the datagram is in the buffer, its handler is due. -/
def IceSession.receive (s : IceSession) (origin : StunAddress) (data : Bytes) : IceSession :=
  let data := data.take recvBufSize
  { s with
    receiving := false,
    recvBuf := data ++ s.recvBuf.drop data.length,
    recvFrom := origin,
    due := s.due ++ [.recv data.length] }

def IceSession.act (w : IceWorld) (s : IceSession) : IceEvent → IceSession
  | .gather => s.gather w
  | .setRemote remote candidates => s.setRemote w remote candidates
  | .startChecks => s.startChecks w
  | .send data => s.send data
  | .close => s.close w
  | .elapse t =>
    if t ∈ s.armed then { s.cancel t with due := s.due ++ [.timer t] } else s
  | .arrive origin data => if s.receiving then s.receive origin data else s
  | .recvFailed => if s.receiving then { s with receiving := false, recvActive := false } else s
  | .run i =>
    match s.due[i]? with
    | none => s
    | some h => ({ s with due := s.due.eraseIdx i } : IceSession).fire w h

/-! Much of the above sends packets, sets timers and marks pairs, and does nothing else. -/

def IceEffect.isSent : IceEffect → Bool
  | .sent _ _ => true
  | _ => false

structure OnlySends (s s' : IceSession) : Prop where
  state : s'.state = s.state
  closed : s'.closed = s.closed
  nominated : s'.nominated = s.nominated
  controlling : s'.controlling = s.controlling
  config : s'.config = s.config
  localCreds : s'.localCreds = s.localCreds
  localCandidates : s'.localCandidates = s.localCandidates
  remoteCandidates : s'.remoteCandidates = s.remoteCandidates
  log : ∃ packets, s'.log = packets ++ s.log ∧ ∀ e ∈ packets, e.isSent = true

theorem OnlySends.refl (s : IceSession) : OnlySends s s :=
  ⟨rfl,rfl,rfl,rfl,rfl,rfl,rfl,rfl,[],rfl,by simp⟩

theorem OnlySends.trans {a b c : IceSession} (hab : OnlySends a b) (hbc : OnlySends b c) :
    OnlySends a c where
  state := hbc.state.trans hab.state
  closed := hbc.closed.trans hab.closed
  nominated := hbc.nominated.trans hab.nominated
  controlling := hbc.controlling.trans hab.controlling
  config := hbc.config.trans hab.config
  localCreds := hbc.localCreds.trans hab.localCreds
  localCandidates := hbc.localCandidates.trans hab.localCandidates
  remoteCandidates := hbc.remoteCandidates.trans hab.remoteCandidates
  log := History.added_trans hab.log hbc.log

section OnlySends
variable (w : IceWorld) (s : IceSession)

theorem sendTo_onlySends (dest : StunAddress) (packet : Bytes) :
    OnlySends s (s.sendTo dest packet) := by
  unfold IceSession.sendTo
  split
  · exact { OnlySends.refl s with log := ⟨[.sent dest packet],rfl,by simp [IceEffect.isSent]⟩ }
  · exact .refl s

theorem checkPair_onlySends (i : Nat) : OnlySends s (s.checkPair w i) := by
  unfold IceSession.checkPair
  split
  · exact .refl s
  · have hset : ∀ l, OnlySends s { s.ask with checkList := l } := fun l =>
      { OnlySends.refl s with }
    exact (hset _).trans (sendTo_onlySends _ _ _)

theorem checkNext_onlySends : OnlySends s (s.checkNext w) := by
  unfold IceSession.checkNext
  split
  · exact (checkPair_onlySends w s _).trans { OnlySends.refl _ with }
  · exact { OnlySends.refl s with }

theorem arm_onlySends (t : IceTimer) : OnlySends s (s.arm t) := { OnlySends.refl s with }

theorem cancel_onlySends (t : IceTimer) : OnlySends s (s.cancel t) := { OnlySends.refl s with }

theorem formCheckList_onlySends : OnlySends s s.formCheckList := { OnlySends.refl s with }

theorem clientDone_onlySends : OnlySends s s.clientDone := { OnlySends.refl s with }

theorem requestServer_onlySends : OnlySends s (s.requestServer w).1 := by
  unfold IceSession.requestServer
  dsimp only
  split
  · exact { OnlySends.refl s with }
  · rename_i ep _
    have hready : ∀ c, OnlySends s { s.ask with stunClient := c } := fun c =>
      { OnlySends.refl s with }
    split
    · exact ((hready _).trans (sendTo_onlySends _ _ _)).trans (arm_onlySends _ _)
    · exact ((hready _).trans (sendTo_onlySends _ _ _)).trans (clientDone_onlySends _)

theorem markSucceeded_onlySends (i : Nat) : OnlySends s (s.markSucceeded i) := by
  unfold IceSession.markSucceeded
  split
  · exact .refl s
  · exact { OnlySends.refl s with }

theorem sendKeepalive_onlySends : OnlySends s (s.sendKeepalive w) := by
  unfold IceSession.sendKeepalive
  split
  · exact .refl s
  · have hready : ∀ txn, OnlySends s { s.ask with keepaliveTxn := txn } := fun txn =>
      { OnlySends.refl s with }
    exact ((hready _).trans (sendTo_onlySends _ _ _)).trans { OnlySends.refl _ with }

theorem startKeepalive_onlySends : OnlySends s (s.startKeepalive w) := by
  have hreset : OnlySends s { s with consentMissed := 0 } := { OnlySends.refl s with }
  exact hreset.trans (sendKeepalive_onlySends w _)

theorem doRecv_onlySends : OnlySends s s.doRecv := by
  unfold IceSession.doRecv
  split
  · exact .refl s
  · exact { OnlySends.refl s with }

theorem startRecvLoop_onlySends : OnlySends s s.startRecvLoop := by
  unfold IceSession.startRecvLoop
  split
  · exact .refl s
  · have hactive : OnlySends s { s with recvActive := true } := { OnlySends.refl s with }
    exact hactive.trans (doRecv_onlySends _)

theorem send_onlySends (data : Bytes) : OnlySends s (s.send data) := by
  unfold IceSession.send
  split
  · exact .refl s
  · exact sendTo_onlySends s _ _

/-- A timer runs out, a datagram comes in or a receive fails: the handler is only put in the
queue. -/
theorem elapse_onlySends (t : IceTimer) : OnlySends s (s.act w (.elapse t)) := by
  simp only [IceSession.act]
  split
  · exact { OnlySends.refl s with }
  · exact .refl s

theorem arrive_onlySends (origin : StunAddress) (data : Bytes) :
    OnlySends s (s.act w (.arrive origin data)) := by
  simp only [IceSession.act]
  split
  · exact { OnlySends.refl s with }
  · exact .refl s

theorem recvFailed_onlySends : OnlySends s (s.act w .recvFailed) := by
  simp only [IceSession.act]
  split
  · exact { OnlySends.refl s with }
  · exact .refl s

end OnlySends

end GoodNet.Ice
