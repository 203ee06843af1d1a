import GoodNet.IceTerminal
import Mathlib.Logic.Relation
set_option autoImplicit false

/-! What the functions of a session are made of. Sending packets, pairing candidates and pacing
the checks is left out; the rest is a short list of moves. -/

namespace GoodNet.Ice
open Codec

def IceEffect.isCallback : IceEffect → Bool
  | .sent _ _ => false
  | .transition _ _ => false
  | _ => true

/-- A session without its check list, the check timer and the packets it has sent. -/
def IceSession.core (s : IceSession) : IceSession :=
  { s with
    checkList := [],
    nextCheckIdx := 0,
    asked := 0,
    armed := s.armed.filter (fun t => t != .check),
    due := s.due.filter (fun h => h != .timer .check),
    log := s.log.filter IceEffect.isCallback }

/-- The moves; only those marked with `true` touch the gathering or close the session. -/
inductive Move : Bool → IceSession → IceSession → Prop where
  | idle {b : Bool} {s s' : IceSession} (h : s'.core = s.core) : Move b s s'
  | remote {b : Bool} (s : IceSession) (creds : IceCredentials) (candidates : List Candidate) :
      Move b s { s with remoteCreds := creds, remoteCandidates := candidates }
  | begin {b : Bool} {s : IceSession} (h : s.state = .gathering ∨ s.state = .waitingRemote) :
      Move b s (({ s with state := .checking } : IceSession).arm .timeout)
  | expire {b : Bool} {s : IceSession} (h : s.state = .checking) (hn : s.nominated = false) :
      Move b s s.fail
  | start {s : IceSession} (h : s.state = .new) : Move true s { s with state := .gathering }
  | await {s : IceSession} (h : s.state = .gathering) (hr : s.remoteCandidates = []) :
      Move true s { s with state := .waitingRemote }
  | gathered (s : IceSession) : Move true s (s.emit .onGathered)
  | candidate (s : IceSession) (c : Candidate) :
      Move true s { s with localCandidates := s.localCandidates ++ [c] }
  | client (s : IceSession) (c : StunClient) (i : Nat) :
      Move true s { s with stunClient := c, stunTryIdx := i }
  | retry (s : IceSession) : Move true s (s.arm .retry)
  | quit (s : IceSession) : Move true s (s.cancel .retry)
  | flag (s : IceSession) : Move true s (({ s with closed := true } : IceSession).emit .closing)
  | shut {s : IceSession} (h : s.closed = true) :
      Move true s { ((s.cancel .check).cancel .timeout).cancel .keepalive with
        socketOpen := false, receiving := false }

abbrev Moves (b : Bool) : IceSession → IceSession → Prop := Relation.ReflTransGen (Move b)

section
variable {b : Bool} {w : IceWorld} {s s' : IceSession}

theorem Moves.one (h : Move b s s') : Moves b s s' := Relation.ReflTransGen.single h

theorem Moves.idle (h : s'.core = s.core) : Moves b s s' := Moves.one (.idle h)

theorem core_field {α : Type} (f : IceSession → α) (hf : ∀ s : IceSession, f s.core = f s)
    (h : s'.core = s.core) : f s' = f s := by
  rw [← hf s',h,hf s]

theorem core_armed (h : s'.core = s.core) {t : IceTimer} (ht : t ≠ .check) :
    t ∈ s'.armed ↔ t ∈ s.armed := by
  have hmem : ∀ s : IceSession, t ∈ s.core.armed ↔ t ∈ s.armed := by
    intro s
    simp [IceSession.core,ht]
  rw [← hmem s',h,hmem s]

theorem core_due (h : s'.core = s.core) {x : IceHandler} (hx : x ≠ .timer .check) :
    x ∈ s'.due ↔ x ∈ s.due := by
  have hmem : ∀ s : IceSession, x ∈ s.core.due ↔ x ∈ s.due := by
    intro s
    simp [IceSession.core,hx]
  rw [← hmem s',h,hmem s]

theorem transition_core (s : IceSession) (next : SessionState) :
    (s.transition next).core = ({ s with state := next } : IceSession).core := rfl

theorem sendTo_core (s : IceSession) (dest : StunAddress) (packet : Bytes) :
    (s.sendTo dest packet).core = s.core := by
  unfold IceSession.sendTo
  split <;> rfl

theorem armCheck_core (s : IceSession) : (s.arm .check).core = s.core := by
  simp [IceSession.core,IceSession.arm,List.filter_filter]

theorem checkPair_core (w : IceWorld) (s : IceSession) (i : Nat) :
    (s.checkPair w i).core = s.core := by
  unfold IceSession.checkPair
  split
  · rfl
  · exact sendTo_core _ _ _

theorem checkNext_core (w : IceWorld) (s : IceSession) : (s.checkNext w).core = s.core := by
  unfold IceSession.checkNext
  split
  · rename_i i _
    exact checkPair_core w s i
  · rfl

theorem markSucceeded_core (s : IceSession) (i : Nat) : (s.markSucceeded i).core = s.core := by
  unfold IceSession.markSucceeded
  split <;> rfl

theorem send_core (s : IceSession) (data : Bytes) : (s.send data).core = s.core := by
  unfold IceSession.send
  split
  · rfl
  · exact sendTo_core s _ _

theorem sendNextCheck_moves (w : IceWorld) (s : IceSession) : Moves b s (s.sendNextCheck w) := by
  have hnext := checkNext_core w s
  unfold IceSession.sendNextCheck
  dsimp only
  split
  · exact .refl
  · rename_i hopen
    rw [not_or,not_not] at hopen
    split
    · rename_i hlost
      have hstate : (s.checkNext w).state = s.state := core_field _ (fun _ => rfl) hnext
      rw [Bool.and_eq_true,Bool.not_eq_true'] at hlost
      exact (Moves.idle hnext).tail (.expire (hstate.trans hopen.1) hlost.2)
    · split
      · exact (Moves.idle hnext).tail (.idle (armCheck_core _))
      · exact Moves.idle hnext

theorem beginChecks_moves (w : IceWorld) (h : s.state = .gathering ∨ s.state = .waitingRemote) :
    Moves b s (s.beginChecks w) := by
  have hready : (((s.transition .checking).formCheckList).arm .timeout).core =
      (({ s with state := .checking } : IceSession).arm .timeout).core := rfl
  exact ((Moves.one (.begin h)).tail (.idle hready)).trans (sendNextCheck_moves w _)

theorem setRemote_moves (w : IceWorld) (s : IceSession) (remote : IceSignalData)
    (candidates : List IceCandidateWire) : Moves false s (s.setRemote w remote candidates) := by
  have hset := Move.remote (b := false) s
    ⟨upToZero remote.ufrag.bytes,upToZero remote.pwd.bytes⟩ (candidates.map wireToCandidate)
  unfold IceSession.setRemote
  dsimp only
  split
  · rename_i hwait
    exact (Moves.one hset).trans (beginChecks_moves w (.inr hwait))
  · exact Moves.one hset

theorem startChecks_moves (w : IceWorld) (s : IceSession) : Moves false s (s.startChecks w) := by
  unfold IceSession.startChecks
  split
  · rename_i hwait
    exact beginChecks_moves w (.inr hwait.1)
  · exact .refl

theorem gatheringComplete_moves (w : IceWorld) (s : IceSession) :
    Moves true s (s.gatheringComplete w) := by
  unfold IceSession.gatheringComplete
  dsimp only
  split
  · exact .refl
  · rename_i hstate
    rw [not_not] at hstate
    refine Relation.ReflTransGen.tail ?_ (.gathered _)
    split
    · rename_i hr
      have hwait := Move.await hstate (List.isEmpty_iff.1 hr)
      exact (Moves.one hwait).tail (.idle (transition_core s .waitingRemote))
    · exact beginChecks_moves w (.inl hstate)

theorem onSrflxResult_moves (w : IceWorld) (s : IceSession) (addr : Option StunAddress) :
    Moves true s (s.onSrflxResult w addr) := by
  cases addr with
  | none => exact gatheringComplete_moves w s
  | some a => exact (Moves.one (.candidate s _)).trans (gatheringComplete_moves w _)

theorem requestServer_moves (w : IceWorld) (s : IceSession) :
    Moves true s (s.requestServer w).1 := by
  have hclient : ∀ c, Moves true s { s.ask with stunClient := c } := fun c =>
    (Moves.one (.client s c s.stunTryIdx)).tail (.idle rfl)
  unfold IceSession.requestServer
  dsimp only
  split
  · exact hclient _
  · rename_i ep _
    have hasked : ∀ c, Moves true s (({ s.ask with stunClient := c } : IceSession).sendTo ep
        (buildBindingRequest (w.random s.asked))) := fun c =>
      (hclient c).tail (.idle (sendTo_core _ _ _))
    split
    · exact (hasked _).tail (.retry _)
    · exact (hasked _).tail (.client _ _ _)

theorem tryServers_moves (w : IceWorld) (servers : List StunServer) (s : IceSession) :
    Moves true s (s.tryServers w servers) := by
  induction servers generalizing s with
  | nil => exact gatheringComplete_moves w s
  | cons server rest ih =>
    have hasked := requestServer_moves w s
    rw [IceSession.tryServers]
    dsimp only
    split
    · exact hasked
    · exact (hasked.tail (.client _ _ _)).trans (ih _)

theorem clientFailed_moves (w : IceWorld) (s : IceSession) : Moves true s (s.clientFailed w) :=
  (Moves.one (.client s _ _)).trans (tryServers_moves w _ _)

/-- Everything the retry timer can lead to: nothing, giving the server up, or asking it again. -/
theorem retryExpired_cases (w : IceWorld) (s : IceSession) :
    (s.stunClient.active = false ∧ s.retryExpired w = s) ∨
      (s.stunClient.active = true ∧ maxRetries ≤ s.stunClient.retries+1 ∧
        ∃ c, s.retryExpired w = ({ s with stunClient := c } : IceSession).clientFailed w) ∨
      (s.stunClient.active = true ∧ s.stunClient.retries+1 < maxRetries ∧
        ∃ c packet, c.active = true ∧ c.retries = s.stunClient.retries+1 ∧ s.retryExpired w =
          (({ s.ask with stunClient := c } : IceSession).sendTo s.stunClient.stunEp packet).arm
            .retry) := by
  unfold IceSession.retryExpired
  dsimp only
  split
  · rename_i ha
    exact .inl ⟨by simpa using ha,rfl⟩
  · rename_i ha
    rw [Bool.not_eq_true',Bool.not_eq_false] at ha
    split
    · rename_i hlast
      exact .inr (.inl ⟨ha,hlast,_,rfl⟩)
    · rename_i hagain
      exact .inr (.inr ⟨ha,Nat.lt_of_not_le hagain,
        { s.stunClient with retries := s.stunClient.retries+1, pendingTxn := w.random s.asked },
        buildBindingRequest (w.random s.asked),ha,rfl,rfl⟩)

theorem retryExpired_moves (w : IceWorld) (s : IceSession) : Moves true s (s.retryExpired w) := by
  have hclient : ∀ c, Moves true s { s with stunClient := c } := fun c =>
    Moves.one (.client s c s.stunTryIdx)
  rcases retryExpired_cases w s with ⟨-,heq⟩ | ⟨-,-,c,heq⟩ | ⟨-,-,c,packet,-,-,heq⟩
  · rw [heq]
  · rw [heq]
    exact (hclient c).trans (clientFailed_moves w _)
  · rw [heq]
    have hasked : Moves true s { s.ask with stunClient := c } := (hclient c).tail (.idle rfl)
    exact (hasked.tail (.idle (sendTo_core _ _ _))).tail (.retry _)

theorem cancelClient_moves (w : IceWorld) (s : IceSession) : Moves true s (s.cancelClient w) := by
  unfold IceSession.cancelClient
  split
  · exact (Moves.one (.quit s)).trans (clientFailed_moves w _)
  · exact .refl

theorem Moves.closed (h : Moves b s s') (hc : s.closed = true) : s'.closed = true := by
  induction h with
  | refl => exact hc
  | tail _ hm ih =>
    cases hm with
    | idle h => exact (core_field (fun s => s.closed) (fun _ => rfl) h).trans ih
    | flag => rfl
    | _ => exact ih

theorem Moves.config (h : Moves b s s') : s'.config = s.config := by
  induction h with
  | refl => rfl
  | tail _ hm ih =>
    cases hm with
    | idle h => exact (core_field (fun s => s.config) (fun _ => rfl) h).trans ih
    | _ => exact ih

/-- Only the end of the gathering makes a session wait for its peer. -/
theorem Moves.waits (h : Moves false s s') (hw : s'.state = .waitingRemote) :
    s.state = .waitingRemote := by
  induction h with
  | refl => exact hw
  | tail _ hm ih =>
    refine ih ?_
    cases hm with
    | idle h => exact (core_field (fun s => s.state) (fun _ => rfl) h).symm.trans hw
    | remote creds candidates => exact hw
    | begin h => cases hw
    | expire h hn => cases hw

theorem close_moves (w : IceWorld) (s : IceSession) : Moves true s (s.close w) := by
  unfold IceSession.close
  dsimp only
  split
  · exact .refl
  · have hquit := (Moves.one (.flag s)).trans (cancelClient_moves w _)
    exact hquit.tail (.shut ((cancelClient_moves w _).closed rfl))

theorem startRecvLoop_eq (s : IceSession) :
    s.startRecvLoop = if s.recvActive || s.closed then s
      else { s with recvActive := true, receiving := true } := by
  unfold IceSession.startRecvLoop IceSession.doRecv
  split
  · rfl
  · rename_i hidle
    rw [Bool.or_eq_true,not_or,Bool.not_eq_true] at hidle
    simp only [hidle.2,Bool.false_eq_true,if_false]

theorem cancel_closed (s : IceSession) (t : IceTimer) : (s.cancel t).closed = s.closed := rfl

theorem close_closed (w : IceWorld) (s : IceSession) : (s.close w).closed = true := by
  unfold IceSession.close
  dsimp only
  split
  · rename_i hc
    exact hc
  · have hquit := (cancelClient_moves w
      (({ s with closed := true } : IceSession).emit .closing)).closed rfl
    dsimp only
    rw [cancel_closed,cancel_closed,cancel_closed]
    exact hquit

/-- The session as it turns to the STUN servers. -/
def IceSession.hosted (w : IceWorld) (s : IceSession) : IceSession :=
  { ((s.transition .gathering).gatherHostCandidates w).startRecvLoop with stunTryIdx := 0 }

theorem gather_cases (w : IceWorld) (s : IceSession) :
    s.gather w = s ∨
      (s.state = .new ∧ s.socketOpen = false ∧ s.gather w = s.transition .gathering) ∨
      (s.state = .new ∧ s.socketOpen = true ∧ s.gather w = (s.hosted w).tryNextStunServer w) := by
  unfold IceSession.gather
  dsimp only
  split
  · exact .inl rfl
  · rename_i hnew
    rw [not_not] at hnew
    split
    · rename_i hshut
      rw [Bool.not_eq_true'] at hshut
      exact .inr (.inl ⟨hnew,hshut,rfl⟩)
    · rename_i hopen
      rw [Bool.not_eq_true',Bool.not_eq_false] at hopen
      exact .inr (.inr ⟨hnew,hopen,rfl⟩)

/-- Gathering begins with the receive loop. -/
theorem hosted_moves (w : IceWorld) (h : s.state = .new) :
    Moves true s.startRecvLoop (s.hosted w) := by
  have hstate : s.startRecvLoop.state = .new := (startRecvLoop_onlySends s).state.trans h
  have hhost := fun c => (Moves.one (.start hstate)).tail (.candidate _ c)
  have hloop : (((s.transition .gathering).gatherHostCandidates w).startRecvLoop).core =
      ({ s.startRecvLoop with
        state := .gathering, localCandidates := s.startRecvLoop.localCandidates ++
          [{ type := .host, endpoint := ⟨(s.transition .gathering).hostAddress w,w.localPort⟩,
             priority := computePriority .host 65535 }] } : IceSession).core := by
    rw [startRecvLoop_eq,startRecvLoop_eq]
    by_cases hidle : (s.recvActive || s.closed) = true
    · have hhosted : (((s.transition .gathering).gatherHostCandidates w).recvActive ||
          ((s.transition .gathering).gatherHostCandidates w).closed) = true := hidle
      rw [if_pos hidle,if_pos hhosted]
      rfl
    · have hhosted : ¬(((s.transition .gathering).gatherHostCandidates w).recvActive ||
          ((s.transition .gathering).gatherHostCandidates w).closed) = true := hidle
      rw [if_neg hidle,if_neg hhosted]
      rfl
  exact ((hhost _).tail (.idle hloop)).tail (.client _ _ _)

/-- The servers are asked the questions that come after those about the own address. -/
theorem hosted_asked (w : IceWorld) (s : IceSession) :
    (s.hosted w).asked = (s.gatherHostCandidates w).asked ∧
      (s.hosted w).socketOpen = s.socketOpen := by
  unfold IceSession.hosted
  rw [startRecvLoop_eq]
  split <;> exact ⟨rfl,rfl⟩

theorem nominateFrom_cases (w : IceWorld) (s : IceSession) (origin : StunAddress)
    (priority : UInt32) : ∃ (t : IceSession) (i : Nat), t.core = s.core ∧
      s.nominateFrom w origin priority = t.nominate w i := by
  unfold IceSession.nominateFrom
  split
  · rename_i i _
    exact ⟨_,i,markSucceeded_core s i,rfl⟩
  · exact ⟨{ s with checkList := s.checkList ++ [s.reflexivePair origin priority] },_,rfl,rfl⟩

theorem handleStunResponse_moves (w : IceWorld) (s : IceSession) (data : Bytes) :
    (s.handleStunResponse w data).core = s.core ∨
      (s.nominated = true ∧
        (∃ r, parseBindingResponse data = some r ∧ r.txnId = s.keepaliveTxn) ∧
        s.handleStunResponse w data = { s with consentMissed := 0 }) ∨
      (s.nominated = false ∧ ∃ (t : IceSession) (i : Nat), t.core = s.core ∧
        s.handleStunResponse w data = t.nominate w i) := by
  unfold IceSession.handleStunResponse
  cases hr : parseBindingResponse data with
  | none => exact .inl rfl
  | some r =>
    dsimp only
    split
    · rename_i hans
      exact .inr (.inl ⟨hans.1,⟨r,rfl,hans.2⟩,rfl⟩)
    · split
      · exact .inl rfl
      · rename_i i _
        have hmark := markSucceeded_core s i
        have hn : (s.markSucceeded i).nominated = s.nominated := core_field _ (fun _ => rfl) hmark
        split
        · rename_i hfree
          rw [hn,Bool.and_eq_true,Bool.not_eq_true'] at hfree
          exact .inr (.inr ⟨hfree.2,_,i,hmark,rfl⟩)
        · exact .inl hmark

theorem handleStunRequest_moves (w : IceWorld) (s : IceSession) (data : Bytes) :
    (s.handleStunRequest w data).core = s.core ∨
      (s.nominated = false ∧ ∃ (t : IceSession) (i : Nat), t.core = s.core ∧
        s.handleStunRequest w data = t.nominate w i) := by
  unfold IceSession.handleStunRequest
  cases hr : parseBindingRequest w.hmac data (s.beyond data.length) s.localCreds.pwd with
  | none => exact .inl rfl
  | some req =>
    have hsent := sendTo_core s s.recvFrom
      (buildCheckResponse w.hmac req.txnId s.recvFrom s.localCreds.pwd)
    dsimp only
    generalize s.sendTo s.recvFrom
      (buildCheckResponse w.hmac req.txnId s.recvFrom s.localCreds.pwd) = answered at hsent ⊢
    have hn : answered.nominated = s.nominated := core_field _ (fun _ => rfl) hsent
    split
    · rename_i hsel
      rw [hn,Bool.and_eq_true,Bool.not_eq_true'] at hsel
      obtain ⟨t,i,hcore,heq⟩ := nominateFrom_cases w answered answered.recvFrom req.priority
      exact .inr ⟨hsel.2,t,i,hcore.trans hsent,heq⟩
    · exact .inl hsent

/-- The handler of a datagram. -/
theorem onRecv_moves (w : IceWorld) (s : IceSession) (n : Nat) :
    (s.stunClient.feed (s.recvBuf.take n) ≠ none ∧ Moves true s (s.onRecv w n)) ∨
      s.stunClient.feed (s.recvBuf.take n) = none ∧
        ((s.onRecv w n).core = s.core ∨
          (s.nominated = true ∧ isStunPacket (s.recvBuf.take n) = true ∧
            readU16 (s.recvBuf.take n) = stunBindingResponse ∧
            (∃ r, parseBindingResponse (s.recvBuf.take n) = some r ∧ r.txnId = s.keepaliveTxn) ∧
            s.onRecv w n = { s with consentMissed := 0 }) ∨
          (isStunPacket (s.recvBuf.take n) = false ∧ s.nominated = true ∧ s.state = .connected ∧
            s.onRecv w n = s.emit (.onData (s.recvBuf.take n))) ∨
          (s.nominated = false ∧ ∃ (t : IceSession) (i : Nat), t.core = s.core ∧
            s.onRecv w n = t.nominate w i)) := by
  unfold IceSession.onRecv
  dsimp only
  cases hf : s.stunClient.feed (s.recvBuf.take n) with
  | some addr =>
    refine .inl ⟨by simp,?_⟩
    have hdone := (Moves.one (.quit s)).tail (.client _ { (s.cancel .retry).stunClient with
      active := false } (s.cancel .retry).stunTryIdx)
    exact hdone.trans (onSrflxResult_moves w _ _)
  | none =>
    refine .inr ⟨rfl,?_⟩
    dsimp only
    split
    · rename_i hstun
      unfold IceSession.handleStunPacket
      split
      · rename_i hresp
        rcases handleStunResponse_moves w s (s.recvBuf.take n) with h | ⟨hn,hr,heq⟩ | ⟨hn,hnom⟩
        · exact .inl h
        · exact .inr (.inl ⟨hn,hstun,hresp,hr,heq⟩)
        · exact .inr (.inr (.inr ⟨hn,hnom⟩))
      · split
        · rcases handleStunRequest_moves w s (s.recvBuf.take n) with h | ⟨hn,hnom⟩
          · exact .inl h
          · exact .inr (.inr (.inr ⟨hn,hnom⟩))
        · exact .inl rfl
    · rename_i hstun
      split
      · rename_i hconn
        exact .inr (.inr (.inl ⟨by simpa using hstun,hconn.1,hconn.2,rfl⟩))
      · exact .inl rfl

/-- A session whose peer has been chosen, before the first keepalive. -/
def IceSession.chosen (s : IceSession) (ep : StunAddress) : IceSession :=
  ((({ s with nominated := true, remoteEp := ep } : IceSession).cancel .check).cancel
    .timeout).transition .connected

theorem nominate_cases (w : IceWorld) (s : IceSession) (i : Nat) :
    s.nominate w i = s ∨ (s.nominated = false ∧ ∃ ep,
      s.nominate w i = ((s.chosen ep).startKeepalive w).emit .onConnected) := by
  unfold IceSession.nominate
  split
  · rename_i pair hn _
    exact .inr ⟨hn,pair.remoteCand.endpoint,rfl⟩
  · exact .inl rfl

/-- What one more keepalive leaves behind. -/
def IceSession.beaten (w : IceWorld) (s : IceSession) : IceSession :=
  ({ s with keepaliveTxn := w.random s.asked, consentMissed := s.consentMissed+1 } :
    IceSession).arm .keepalive

theorem sendKeepalive_cases (w : IceWorld) (s : IceSession) :
    (s.sendKeepalive w = s ∧ ¬(s.nominated = true ∧ s.closed = false ∧ s.state = .connected)) ∨
      (s.nominated = true ∧ s.closed = false ∧ s.state = .connected ∧
        (s.sendKeepalive w).core = (s.beaten w).core) := by
  unfold IceSession.sendKeepalive
  dsimp only
  split
  · rename_i hguard
    refine .inl ⟨rfl,?_⟩
    rintro ⟨hn,hc,hs⟩
    simp [hn,hc,hs] at hguard
  · rename_i hguard
    simp only [Bool.or_eq_true,Bool.not_eq_true',bne_iff_ne,not_or,Bool.not_eq_false,not_not,
      Bool.not_eq_true] at hguard
    refine .inr ⟨hguard.1.1,hguard.1.2,hguard.2,?_⟩
    unfold IceSession.sendTo
    split <;> rfl

end

end GoodNet.Ice
