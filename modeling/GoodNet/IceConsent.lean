import GoodNet.IcePending
set_option autoImplicit false

/-! Consent freshness. The counter of unanswered keepalives against the keepalives that have gone
out on the socket and the responses that have come in. -/

namespace GoodNet.Ice
open Codec Interleaving

/-- A buffer with a complete header, `txn` in it. -/
def HasTxn (txn : TransactionId) (buf : Bytes) : Prop :=
  stunHeaderSize ≤ buf.length ∧ (buf.drop 8).take 12 = txn.bytes

theorem HasTxn.header (type : UInt16) (txn : TransactionId) :
    HasTxn txn (writeHeader type txn) := by
  have hfront : (writeU16 type ++ writeU16 0 ++ writeU32 stunMagicCookie).length = 8 := by
    simp [writeU16,writeU32,leBytes]
  have hlen : txn.bytes.length = 12 := txn.size_eq
  refine ⟨?_,?_⟩
  · rw [writeHeader,List.length_append,hfront,hlen]
    decide
  · rw [writeHeader,List.drop_left' hfront]
    exact List.take_of_length_le hlen.le

theorem HasTxn.appendAttr {txn : TransactionId} {buf : Bytes} (h : HasTxn txn buf) (type : UInt16)
    (value : Bytes) : HasTxn txn (appendAttr buf type value) := by
  obtain ⟨hlen,htxn⟩ := h
  simp only [stunHeaderSize] at hlen
  have hroom : 12 ≤ (buf.drop 8).length := by
    rw [List.length_drop]
    omega
  simp only [Ice.appendAttr,List.append_assoc]
  refine ⟨?_,?_⟩
  · rw [List.length_append,stunHeaderSize]
    omega
  · rw [List.drop_append_of_le_length (by omega),List.take_append_of_le_length hroom]
    exact htxn

theorem HasTxn.setMsgLength {txn : TransactionId} {buf : Bytes} (h : HasTxn txn buf) (len : Nat) :
    HasTxn txn (setMsgLength buf len) := by
  obtain ⟨hlen,htxn⟩ := h
  simp only [stunHeaderSize] at hlen
  have hfront : (buf.take 2 ++ writeU16 (UInt16.ofNat len)).length = 4 := by
    simp only [writeU16,List.length_append,List.length_take,List.length_cons,List.length_nil]
    omega
  have hdrop : (Ice.setMsgLength buf len).drop 8 = buf.drop 8 := by
    calc (Ice.setMsgLength buf len).drop 8
        = ((Ice.setMsgLength buf len).drop 4).drop 4 := by rw [List.drop_drop]
      _ = (buf.drop 4).drop 4 := by rw [Ice.setMsgLength,List.drop_left' hfront]
      _ = buf.drop 8 := by rw [List.drop_drop]
  refine ⟨?_,?_⟩
  · rw [Ice.setMsgLength,List.length_append,hfront,List.length_drop,stunHeaderSize]
    omega
  · rw [hdrop]
    exact htxn

theorem HasTxn.stunTxnId {txn : TransactionId} {buf : Bytes} (h : HasTxn txn buf) :
    stunTxnId buf = txn := by
  obtain ⟨hlen,htxn⟩ := h
  have hroom : 12 ≤ (buf.drop 8).length := by
    rw [List.length_drop]
    simp only [stunHeaderSize] at hlen
    omega
  refine Block.ext ?_
  show ((buf.drop 8) ++ List.replicate 12 0).take 12 = txn.bytes
  rw [List.take_append_of_le_length hroom]
  exact htxn

/-- A check carries the id it was given. -/
theorem stunTxnId_check (hmac : HmacSha1) (txn : TransactionId) (username password : Bytes)
    (priority : UInt32) (useCandidate controlling : Bool) (tieBreaker : UInt64) :
    stunTxnId (buildCheckRequest hmac txn username password priority useCandidate controlling
      tieBreaker) = txn := by
  have hnamed := ((HasTxn.header stunBindingRequest txn).appendAttr stunAttrUsername
    username).appendAttr stunAttrPriority (writeU32 priority)
  refine HasTxn.stunTxnId (HasTxn.setMsgLength ?_ _)
  refine HasTxn.appendAttr
    (HasTxn.setMsgLength (HasTxn.appendAttr (HasTxn.setMsgLength ?_ _) _ _) _) _ _
  cases useCandidate with
  | true =>
    refine HasTxn.appendAttr ?_ _ _
    cases controlling with
    | true => exact hnamed.appendAttr _ _
    | false => exact hnamed.appendAttr _ _
  | false =>
    cases controlling with
    | true => exact hnamed.appendAttr _ _
    | false => exact hnamed.appendAttr _ _

/-- What counts for consent: a keepalive with its id, or a response to the one sent last. -/
inductive Beat where
  | keepalive (txn : TransactionId)
  | answer
  deriving DecidableEq, Repr

/-- The id of the keepalive sent last; beats are kept newest first. -/
def lastKeepalive : List Beat → Option TransactionId
  | [] => none
  | .keepalive txn :: _ => some txn
  | .answer :: older => lastKeepalive older

/-- The keepalives since the last response, or since the beginning. -/
def unanswered : List Beat → Nat
  | .keepalive _ :: older => unanswered older+1
  | _ => 0

def IceEffect.packet : IceEffect → Option Bytes
  | .sent _ packet => some packet
  | _ => none

def IceEffect.isTransition : IceEffect → Bool
  | .transition _ _ => true
  | _ => false

/-- The packets among some effects, as keepalives. -/
def keepalivesIn (effects : List IceEffect) : List Beat :=
  (effects.filterMap IceEffect.packet).map (fun packet => .keepalive (stunTxnId packet))

/-- A binding response to a request with this id. -/
def respondsTo (data : Bytes) (txn : TransactionId) : Bool :=
  isStunPacket data && readU16 data == stunBindingResponse &&
    (parseBindingResponse data).any (fun r => r.txnId == txn)

/-- The beats after a step, read off the packets on the socket. The count begins with what
follows the transition to `Connected`; what the keepalive timer sends is a keepalive; a response
that the STUN client takes for its own is none to a keepalive. -/
def IceSession.beat (w : IceWorld) (s : IceSession) (e : IceEvent) (beats : List Beat) :
    List Beat :=
  if s.nominated = false ∧ (s.act w e).nominated = true then
    keepalivesIn ((s.act w e).log.takeWhile (fun x => !x.isTransition))
  else
    match e with
    | .run i =>
      match s.due[i]? with
      | some (.timer .keepalive) =>
        keepalivesIn ((s.act w e).log.take ((s.act w e).log.length-s.log.length)) ++ beats
      | some (.recv n) =>
        if s.nominated = true ∧ s.stunClient.feed (s.recvBuf.take n) = none ∧
            (lastKeepalive beats).any (respondsTo (s.recvBuf.take n)) = true then
          .answer :: beats
        else beats
      | _ => beats
    | _ => beats

/-- A session and its beats. -/
structure Pulse where
  session : IceSession
  beats : List Beat := []

def Pulse.act (w : IceWorld) (p : Pulse) (e : IceEvent) : Pulse :=
  { session := p.session.act w e, beats := p.session.beat w e p.beats }

/-- Nothing that counts for consent has happened. -/
structure Calm (s s' : IceSession) : Prop where
  nominated : s'.nominated = s.nominated
  missed : s'.consentMissed = s.consentMissed
  txn : s'.keepaliveTxn = s.keepaliveTxn
  config : s'.config = s.config
  connected : s'.state = .connected ↔ s.state = .connected

structure Consenting (p : Pulse) : Prop where
  tended : Tended p.session
  live : p.session.state = .connected → p.session.nominated = true
  counted : p.session.consentMissed = unanswered p.beats
  bounded : p.session.consentMissed ≤ p.session.config.consentMaxFailures
  last : ∀ txn ∈ lastKeepalive p.beats, p.session.keepaliveTxn = txn

section
variable {b : Bool} {w : IceWorld} {s s' s'' : IceSession}

theorem Calm.refl (s : IceSession) : Calm s s := ⟨rfl,rfl,rfl,rfl,Iff.rfl⟩

theorem Calm.trans (h : Calm s s') (h' : Calm s' s'') : Calm s s'' :=
  ⟨h'.nominated.trans h.nominated,h'.missed.trans h.missed,h'.txn.trans h.txn,
    h'.config.trans h.config,h'.connected.trans h.connected⟩

theorem Calm.idle (h : s'.core = s.core) : Calm s s' :=
  ⟨core_field (fun s => s.nominated) (fun _ => rfl) h,
    core_field (fun s => s.consentMissed) (fun _ => rfl) h,
    core_field (fun s => s.keepaliveTxn) (fun _ => rfl) h,
    core_field (fun s => s.config) (fun _ => rfl) h,
    by rw [core_field (fun s => s.state) (fun _ => rfl) h]⟩

theorem Move.calm (h : Move b s s') : Calm s s' := by
  cases h with
  | idle h => exact Calm.idle h
  | begin h =>
    refine ⟨rfl,rfl,rfl,rfl,?_⟩
    rcases h with h | h <;> simp [IceSession.arm,h]
  | expire h hn =>
    refine ⟨rfl,rfl,rfl,rfl,?_⟩
    simp [IceSession.fail,IceSession.transition,IceSession.emit,h]
  | start h => exact ⟨rfl,rfl,rfl,rfl,by simp [h]⟩
  | await h hr => exact ⟨rfl,rfl,rfl,rfl,by simp [h]⟩
  | _ => exact ⟨rfl,rfl,rfl,rfl,Iff.rfl⟩

theorem Moves.calm (h : Moves b s s') : Calm s s' := by
  induction h with
  | refl => exact Calm.refl s
  | tail _ hm ih => exact ih.trans hm.calm

theorem Calm.taken (s : IceSession) (i : Nat) : Calm s (s.taken i) := ⟨rfl,rfl,rfl,rfl,Iff.rfl⟩

theorem doRecv_calm (s : IceSession) : Calm s s.doRecv := by
  unfold IceSession.doRecv
  split
  · exact Calm.refl s
  · exact ⟨rfl,rfl,rfl,rfl,Iff.rfl⟩

theorem doRecv_log (s : IceSession) : s.doRecv.log = s.log := by
  unfold IceSession.doRecv
  split <;> rfl

theorem gather_calm (w : IceWorld) (s : IceSession) : Calm s (s.gather w) := by
  rcases gather_cases w s with heq | ⟨hnew,-,heq⟩ | ⟨hnew,-,heq⟩
  · rw [heq]
    exact Calm.refl s
  · rw [heq]
    exact (Move.start hnew).calm.trans (Calm.idle (transition_core s .gathering))
  · have hloop : Calm s s.startRecvLoop := by
      rw [startRecvLoop_eq]
      split
      · exact Calm.refl s
      · exact ⟨rfl,rfl,rfl,rfl,Iff.rfl⟩
    rw [heq]
    exact (hloop.trans (hosted_moves w hnew).calm).trans (tryServers_moves w _ _).calm

/-- Every step but those of the keepalive timer and of a datagram is calm. -/
theorem act_calm (w : IceWorld) (s : IceSession) {e : IceEvent}
    (hkeep : ∀ i, e = .run i → s.due[i]? ≠ some (.timer .keepalive))
    (hrecv : ∀ i n, e = .run i → s.due[i]? ≠ some (.recv n)) : Calm s (s.act w e) := by
  cases e with
  | gather => exact gather_calm w s
  | setRemote remote candidates => exact (setRemote_moves w s remote candidates).calm
  | startChecks => exact (startChecks_moves w s).calm
  | send data => exact Calm.idle (send_core s data)
  | close => exact (close_moves w s).calm
  | elapse t =>
    simp only [IceSession.act]
    split
    · exact ⟨rfl,rfl,rfl,rfl,Iff.rfl⟩
    · exact Calm.refl s
  | arrive origin data =>
    simp only [IceSession.act]
    split
    · exact ⟨rfl,rfl,rfl,rfl,Iff.rfl⟩
    · exact Calm.refl s
  | recvFailed =>
    simp only [IceSession.act]
    split
    · exact ⟨rfl,rfl,rfl,rfl,Iff.rfl⟩
    · exact Calm.refl s
  | run i =>
    simp only [IceSession.act]
    cases hd : s.due[i]? with
    | none => exact Calm.refl s
    | some x =>
      have htaken := Calm.taken s i
      cases x with
      | timer t =>
        cases t with
        | check => exact htaken.trans (sendNextCheck_moves (b := false) w (s.taken i)).calm
        | timeout =>
          refine htaken.trans ?_
          show Calm (s.taken i) (s.taken i).timeoutExpired
          unfold IceSession.timeoutExpired
          split
          · rename_i hover
            exact (Move.expire (b := false) hover.1 hover.2).calm
          · exact Calm.refl _
        | keepalive => exact absurd hd (hkeep i rfl)
        | retry => exact htaken.trans (retryExpired_moves w (s.taken i)).calm
      | recv n => exact absurd hd (hrecv i n rfl)

theorem beat_calm {e : IceEvent} {beats : List Beat}
    (hkeep : ∀ i, e = .run i → s.due[i]? ≠ some (.timer .keepalive))
    (hrecv : ∀ i n, e = .run i → s.due[i]? ≠ some (.recv n)) : s.beat w e beats = beats := by
  have hn := (act_calm w s hkeep hrecv).nominated
  unfold IceSession.beat
  rw [if_neg (by rw [hn]; simp)]
  cases e with
  | run i =>
    dsimp only
    split
    · rename_i hd
      exact absurd hd (hkeep i rfl)
    · rename_i n hd
      exact absurd hd (hrecv i n rfl)
    · rfl
  | _ => rfl

theorem unanswered_of_none {beats : List Beat} (h : lastKeepalive beats = none) :
    unanswered beats = 0 := by
  cases beats with
  | nil => rfl
  | cons b older =>
    cases b with
    | keepalive txn => cases h
    | answer => rfl

theorem Consenting.calm {p p' : Pulse} (h : Consenting p) (ht : Tended p'.session)
    (hc : Calm p.session p'.session) (hb : p'.beats = p.beats) : Consenting p' where
  tended := ht
  live := by rw [hc.connected,hc.nominated]; exact h.live
  counted := by rw [hc.missed,hb]; exact h.counted
  bounded := by rw [hc.missed,hc.config]; exact h.bounded
  last := by rw [hc.txn,hb]; exact h.last

/-- A keepalive goes out. -/
theorem sendKeepalive_sent (w : IceWorld) (hn : s.nominated = true) (hc : s.closed = false)
    (hs : s.state = .connected) (ho : s.socketOpen = true) :
    ∃ packet, (s.sendKeepalive w).log = .sent s.remoteEp packet :: s.log ∧
      (s.sendKeepalive w).keepaliveTxn = stunTxnId packet ∧
      (s.sendKeepalive w).consentMissed = s.consentMissed+1 := by
  unfold IceSession.sendKeepalive IceSession.sendTo
  simp only [hn,hc,hs,ho,IceSession.ask,Bool.not_true,Bool.false_or,bne_self_eq_false,
    Bool.false_eq_true,if_false,if_true]
  exact ⟨_,rfl,(stunTxnId_check _ _ _ _ _ _ _ _).symm,rfl⟩

/-- The keepalive timer has run out: the peer is given up, or one more keepalive goes out. -/
theorem Consenting.expired {p : Pulse} (h : Consenting p) {i : Nat}
    (hd : p.session.due[i]? = some (.timer .keepalive)) : Consenting (p.act w (.run i)) := by
  have htended : Tended (p.act w (.run i)).session := h.tended.act w (.run i)
  have hact : p.session.act w (.run i) = (p.session.taken i).keepaliveExpired w := act_run w hd
  have hbeats : ∀ new, (p.session.act w (.run i)).nominated = p.session.nominated →
      (p.session.act w (.run i)).log = new ++ p.session.log →
        (p.act w (.run i)).beats = keepalivesIn new ++ p.beats := by
    intro new hn hlog
    have hnew : (new ++ p.session.log).take ((new ++ p.session.log).length-p.session.log.length) =
        new := by
      rw [List.length_append,Nat.add_sub_cancel,List.take_left]
    simp only [Pulse.act,IceSession.beat,hn,hd,hlog,hnew]
    rw [if_neg (by simp)]
  by_cases hover : p.session.config.consentMaxFailures ≤ p.session.consentMissed
  · have hfail : p.session.act w (.run i) = ((p.session.taken i).cancel .keepalive).fail := by
      rw [hact]
      exact if_pos hover
    have hnext : p.act w (.run i) = ⟨((p.session.taken i).cancel .keepalive).fail,p.beats⟩ :=
      congrArg₂ Pulse.mk hfail (hbeats [.onFailed,.transition p.session.state .failed]
        (by rw [hfail]; rfl) (by rw [hfail]; rfl))
    rw [hnext] at htended ⊢
    refine ⟨htended,fun hs => ?_,h.counted,h.bounded,h.last⟩
    cases hs
  · have hsend : p.session.act w (.run i) = (p.session.taken i).sendKeepalive w := by
      rw [hact]
      exact if_neg hover
    rcases sendKeepalive_cases w (p.session.taken i) with ⟨heq,-⟩ | ⟨hn,hc,hs,-⟩
    · have hsame := hbeats [] (by rw [hsend,heq]; rfl) (by rw [hsend,heq]; rfl)
      refine h.calm htended ?_ hsame
      show Calm p.session (p.session.act w (.run i))
      rw [hsend,heq]
      exact Calm.taken p.session i
    · have hopen : p.session.socketOpen = true := by
        by_contra ho
        have hclosed := h.tended.shut (Bool.not_eq_true _ ▸ ho)
        rw [show p.session.closed = false from hc] at hclosed
        cases hclosed
      have hkept := sendKeepalive_onlySends w (p.session.taken i)
      obtain ⟨packet,hlog,htxn,hmissed⟩ := sendKeepalive_sent w hn hc hs
        (show (p.session.taken i).socketOpen = true from hopen)
      have hnext : p.act w (.run i) = ⟨(p.session.taken i).sendKeepalive w,
          .keepalive (stunTxnId packet) :: p.beats⟩ :=
        congrArg₂ Pulse.mk hsend (hbeats [.sent (p.session.taken i).remoteEp packet]
          (by rw [hsend]; exact hkept.nominated) (by rw [hsend]; exact hlog))
      rw [hnext] at htended ⊢
      refine ⟨htended,fun _ => hkept.nominated.trans hn,?_,?_,?_⟩
      · have hcount : p.session.consentMissed+1 = ((unanswered p.beats+1 : Nat) : Int) := by
          rw [h.counted,Nat.cast_succ]
        exact hmissed.trans hcount
      · rw [hmissed,hkept.config]
        show p.session.consentMissed+1 ≤ p.session.config.consentMaxFailures
        omega
      · exact fun txn ht => htxn.trans (Option.some.inj ht)

theorem respondsTo_iff {data : Bytes} {txn : TransactionId} :
    respondsTo data txn = true ↔ isStunPacket data = true ∧ readU16 data = stunBindingResponse ∧
      ∃ r, parseBindingResponse data = some r ∧ r.txnId = txn := by
  simp only [respondsTo,Bool.and_eq_true,beq_iff_eq,Option.any_eq_true,and_assoc]

theorem onRecv_answered (w : IceWorld) {n : Nat} (hn : s.nominated = true)
    (hf : s.stunClient.feed (s.recvBuf.take n) = none)
    (h : respondsTo (s.recvBuf.take n) s.keepaliveTxn = true) :
    s.onRecv w n = { s with consentMissed := 0 } := by
  obtain ⟨hstun,hresp,r,hr,htxn⟩ := respondsTo_iff.1 h
  unfold IceSession.onRecv IceSession.handleStunPacket IceSession.handleStunResponse
  simp only [hf,hstun,hresp,hr,htxn,hn,and_self,if_true]

/-- What is chosen starts with one keepalive, unless the session has been closed. -/
theorem nominate_counts (w : IceWorld) {t : IceSession} (ep : StunAddress)
    (ho : t.socketOpen = false → t.closed = true) :
    let s := ((t.chosen ep).startKeepalive w).emit .onConnected
    let beats := keepalivesIn (s.log.takeWhile (fun x => !x.isTransition))
    s.nominated = true ∧ s.config = t.config ∧ s.consentMissed = unanswered beats ∧
      s.consentMissed ≤ 1 ∧ ∀ txn ∈ lastKeepalive beats, s.keepaliveTxn = txn := by
  intro s beats
  have hkept := startKeepalive_onlySends w (t.chosen ep)
  refine ⟨hkept.nominated,hkept.config,?_⟩
  rcases sendKeepalive_cases w { t.chosen ep with consentMissed := 0 } with ⟨heq,-⟩ | ⟨hn,hc,hs,-⟩
  · have hsame : s = ({ t.chosen ep with consentMissed := 0 } : IceSession).emit .onConnected :=
      congrArg (fun u : IceSession => u.emit .onConnected) heq
    have hnone : beats = [] := by
      simp only [beats,hsame]
      rfl
    rw [hnone,hsame]
    exact ⟨rfl,Int.zero_le_ofNat 1,fun txn h => by cases h⟩
  · have hopen : ({ t.chosen ep with consentMissed := 0 } : IceSession).socketOpen = true := by
      by_contra hshut
      have hclosed := ho (Bool.not_eq_true _ ▸ hshut)
      rw [show t.closed = false from hc] at hclosed
      cases hclosed
    obtain ⟨packet,hlog,htxn,hmissed⟩ := sendKeepalive_sent w hn hc hs hopen
    have hone : beats = [.keepalive (stunTxnId packet)] := by
      have hlog' : s.log = .onConnected :: .sent ep packet ::
          .transition t.state .connected :: t.log := congrArg (List.cons IceEffect.onConnected) hlog
      simp only [beats,hlog']
      rfl
    have hcount : s.consentMissed = 1 := hmissed
    rw [hone,hcount]
    refine ⟨rfl,le_refl 1,fun txn h => ?_⟩
    have hkeep : s.keepaliveTxn = stunTxnId packet := htxn
    exact hkeep.trans (Option.some.inj h)

theorem beat_recv {i n : Nat} (beats : List Beat) (hd : s.due[i]? = some (.recv n))
    (hn : (s.act w (.run i)).nominated = s.nominated) :
    s.beat w (.run i) beats = if s.nominated = true ∧
      s.stunClient.feed (s.recvBuf.take n) = none ∧
        (lastKeepalive beats).any (respondsTo (s.recvBuf.take n)) = true then
      .answer :: beats else beats := by
  simp only [IceSession.beat,hn,hd]
  rw [if_neg (by simp)]

/-- A response to the keepalive sent last starts the count anew. -/
theorem Consenting.answered {p : Pulse} (h : Consenting p)
    (hm : 0 ≤ p.session.config.consentMaxFailures) {i n : Nat}
    (hd : p.session.due[i]? = some (.recv n)) (hn : p.session.nominated = true)
    (hf : p.session.stunClient.feed (p.session.recvBuf.take n) = none)
    (hany : (lastKeepalive p.beats).any (respondsTo (p.session.recvBuf.take n)) = true) :
    Consenting (p.act w (.run i)) := by
  have htended : Tended (p.act w (.run i)).session := h.tended.act w (.run i)
  obtain ⟨txn,hlast,hresp⟩ := (Option.any_eq_true _ _).1 hany
  rw [← h.last txn hlast] at hresp
  have hreset : p.session.act w (.run i) =
      ({ p.session.taken i with consentMissed := 0 } : IceSession).doRecv :=
    (act_run w hd).trans
      (congrArg IceSession.doRecv (onRecv_answered w (s := p.session.taken i) hn hf hresp))
  have hc := doRecv_calm ({ p.session.taken i with consentMissed := 0 } : IceSession)
  have hbeat := beat_recv (w := w) p.beats hd (by rw [hreset]; exact hc.nominated)
  rw [if_pos ⟨hn,hf,hany⟩] at hbeat
  have hnext : p.act w (.run i) = ⟨_,_⟩ := congrArg₂ Pulse.mk hreset hbeat
  rw [hnext] at htended ⊢
  refine ⟨htended,fun _ => hc.nominated.trans hn,hc.missed,?_,fun txn ht => ?_⟩
  · rw [hc.missed,hc.config]
    exact hm
  · exact hc.txn.trans (h.last txn ht)

/-- What a nomination sends is the beginning of the count. -/
theorem Consenting.nominates {p : Pulse} (h : Consenting p)
    (hm : 1 ≤ p.session.config.consentMaxFailures) {i n : Nat}
    (hd : p.session.due[i]? = some (.recv n)) (hn : p.session.nominated = false)
    {t : IceSession} {ep : StunAddress} (ht : t.core = (p.session.taken i).core)
    (heq : (p.session.taken i).onRecv w n = ((t.chosen ep).startKeepalive w).emit .onConnected) :
    Consenting (p.act w (.run i)) := by
  have htended : Tended (p.act w (.run i)).session := h.tended.act w (.run i)
  have hshut : t.socketOpen = false → t.closed = true :=
    ((h.tended.taken hd (by simp)).idle ht).shut
  obtain ⟨hnow,hconfig,hcount,hone,hlast⟩ := nominate_counts w ep hshut
  have hact : p.session.act w (.run i) =
      (((t.chosen ep).startKeepalive w).emit .onConnected).doRecv :=
    (act_run w hd).trans (congrArg IceSession.doRecv heq)
  have hloop := doRecv_calm (((t.chosen ep).startKeepalive w).emit .onConnected)
  have hbeat : p.session.beat w (.run i) p.beats = keepalivesIn
      ((((t.chosen ep).startKeepalive w).emit .onConnected).log.takeWhile
        (fun x => !x.isTransition)) := by
    simp only [IceSession.beat,hact,doRecv_log]
    rw [if_pos ⟨hn,hloop.nominated.trans hnow⟩]
  have hnext : p.act w (.run i) = ⟨_,_⟩ := congrArg₂ Pulse.mk hact hbeat
  rw [hnext] at htended ⊢
  refine ⟨htended,fun _ => hloop.nominated.trans hnow,hloop.missed.trans hcount,?_,
    fun txn ht => hloop.txn.trans (hlast txn ht)⟩
  rw [hloop.missed,hloop.config,hconfig,core_field (fun s => s.config) (fun _ => rfl) ht]
  exact hone.trans hm

/-- A datagram is handled. -/
theorem Consenting.received {p : Pulse} (h : Consenting p)
    (hm : 1 ≤ p.session.config.consentMaxFailures) {i n : Nat}
    (hd : p.session.due[i]? = some (.recv n)) : Consenting (p.act w (.run i)) := by
  by_cases hans : p.session.nominated = true ∧
      p.session.stunClient.feed (p.session.recvBuf.take n) = none ∧
        (lastKeepalive p.beats).any (respondsTo (p.session.recvBuf.take n)) = true
  · obtain ⟨hn,hf,hany⟩ := hans
    exact h.answered (by omega) hd hn hf hany
  · -- whatever the datagram is, unless it nominates, nothing has to be counted
    have hsame : Calm p.session ((p.session.taken i).onRecv w n) →
        Consenting (p.act w (.run i)) := by
      intro hcalm
      have hc : Calm p.session (p.session.act w (.run i)) := by
        rw [act_run w hd]
        exact hcalm.trans (doRecv_calm _)
      exact h.calm (h.tended.act w (.run i)) hc
        ((beat_recv p.beats hd hc.nominated).trans (if_neg hans))
    have htaken := Calm.taken p.session i
    rcases onRecv_moves w (p.session.taken i) n with
      ⟨-,hmoves⟩ | ⟨hf,hcore | ⟨hn,hstun,hresp,hr,heq⟩ | ⟨-,-,-,heq⟩ | ⟨hn,t,j,ht,heq⟩⟩
    · exact hsame (htaken.trans hmoves.calm)
    · exact hsame (htaken.trans (Calm.idle hcore))
    · -- there is no keepalive to answer, so nothing has been counted either
      have hnone : lastKeepalive p.beats = none := by
        by_contra hsome
        obtain ⟨txn,hlast⟩ := Option.ne_none_iff_exists'.1 hsome
        refine hans ⟨hn,hf,?_⟩
        rw [hlast,Option.any_some,← h.last txn hlast]
        exact respondsTo_iff.2 ⟨hstun,hresp,hr⟩
      have hzero : p.session.consentMissed = 0 := by
        rw [h.counted,unanswered_of_none hnone]
        rfl
      refine hsame ?_
      rw [heq]
      exact ⟨rfl,hzero.symm,rfl,rfl,Iff.rfl⟩
    · refine hsame ?_
      rw [heq]
      exact ⟨rfl,rfl,rfl,rfl,Iff.rfl⟩
    · rcases nominate_cases w t j with hno | ⟨-,ep,hchosen⟩
      · refine hsame ?_
        rw [heq,hno]
        exact htaken.trans (Calm.idle ht)
      · exact h.nominates hm hd hn ht (heq.trans hchosen)

theorem Consenting.act {p : Pulse} (h : Consenting p)
    (hm : 1 ≤ p.session.config.consentMaxFailures) (e : IceEvent) : Consenting (p.act w e) := by
  by_cases hkeep : ∃ i, e = .run i ∧ p.session.due[i]? = some (.timer .keepalive)
  · obtain ⟨i,rfl,hd⟩ := hkeep
    exact h.expired hd
  · by_cases hrecv : ∃ i n, e = .run i ∧ p.session.due[i]? = some (.recv n)
    · obtain ⟨i,n,rfl,hd⟩ := hrecv
      exact h.received hm hd
    · have hk : ∀ i, e = .run i → p.session.due[i]? ≠ some (.timer .keepalive) :=
        fun i he hd => hkeep ⟨i,he,hd⟩
      have hr : ∀ i n, e = .run i → p.session.due[i]? ≠ some (.recv n) :=
        fun i n he hd => hrecv ⟨i,n,he,hd⟩
      exact h.calm (h.tended.act w e) (act_calm w p.session hk hr) (beat_calm hk hr)

theorem act_config (w : IceWorld) (s : IceSession) (e : IceEvent) :
    (s.act w e).config = s.config := by
  by_cases hkeep : ∃ i, e = .run i ∧ s.due[i]? = some (.timer .keepalive)
  · obtain ⟨i,rfl,hd⟩ := hkeep
    rw [act_run w hd]
    show ((s.taken i).keepaliveExpired w).config = s.config
    unfold IceSession.keepaliveExpired
    split
    · rfl
    · exact (sendKeepalive_onlySends w (s.taken i)).config
  · by_cases hrecv : ∃ i n, e = .run i ∧ s.due[i]? = some (.recv n)
    · obtain ⟨i,n,rfl,hd⟩ := hrecv
      rw [act_run w hd]
      refine (doRecv_onlySends ((s.taken i).onRecv w n)).config.trans ?_
      rcases onRecv_moves w (s.taken i) n with
        ⟨-,hm⟩ | ⟨-,hcore | ⟨-,-,-,-,heq⟩ | ⟨-,-,-,heq⟩ | ⟨-,t,j,ht,heq⟩⟩
      · exact hm.config
      · have hc := core_field (fun s => s.config) (fun _ => rfl) hcore
        exact hc
      · rw [heq]
        rfl
      · rw [heq]
        rfl
      · have htc := core_field (fun s => s.config) (fun _ => rfl) ht
        rw [heq]
        rcases nominate_cases w t j with heq | ⟨-,ep,heq⟩
        · rw [heq]
          exact htc
        · rw [heq]
          exact (startKeepalive_onlySends w (t.chosen ep)).config.trans htc
    · exact (act_calm w s (fun i he hd => hkeep ⟨i,he,hd⟩)
        (fun i n he hd => hrecv ⟨i,n,he,hd⟩)).config

/-- A connected session leaves its state in one way only. -/
theorem act_disconnects (w : IceWorld) {e : IceEvent} (hs : s.state = .connected)
    (hn : s.nominated = true) (hlost : (s.act w e).state ≠ .connected) :
    (∃ i, e = .run i ∧ s.due[i]? = some (.timer .keepalive)) ∧
      s.config.consentMaxFailures ≤ s.consentMissed ∧ (s.act w e).state = .failed := by
  by_cases hkeep : ∃ i, e = .run i ∧ s.due[i]? = some (.timer .keepalive)
  · refine ⟨hkeep,?_⟩
    obtain ⟨i,rfl,hd⟩ := hkeep
    rw [act_run w hd] at hlost ⊢
    have hrun : ((s.taken i).keepaliveExpired w).state ≠ .connected := hlost
    show s.config.consentMaxFailures ≤ s.consentMissed ∧
      ((s.taken i).keepaliveExpired w).state = .failed
    unfold IceSession.keepaliveExpired at hrun ⊢
    split
    · rename_i hover
      exact ⟨hover,rfl⟩
    · rename_i hover
      rw [if_neg hover] at hrun
      exact absurd ((sendKeepalive_onlySends w (s.taken i)).state.trans hs) hrun
  · exfalso
    apply hlost
    by_cases hrecv : ∃ i n, e = .run i ∧ s.due[i]? = some (.recv n)
    · obtain ⟨i,n,rfl,hd⟩ := hrecv
      rw [act_run w hd]
      refine (doRecv_onlySends ((s.taken i).onRecv w n)).state.trans ?_
      rcases onRecv_moves w (s.taken i) n with
        ⟨-,hm⟩ | ⟨-,hcore | ⟨-,-,-,-,heq⟩ | ⟨-,-,-,heq⟩ | ⟨hfree,-⟩⟩
      · exact hm.calm.connected.2 hs
      · exact (core_field (fun s => s.state) (fun _ => rfl) hcore).trans hs
      · rw [heq]
        exact hs
      · rw [heq]
        exact hs
      · rw [show s.nominated = false from hfree] at hn
        cases hn
    · exact (act_calm w s (fun i he hd => hkeep ⟨i,he,hd⟩)
        (fun i n he hd => hrecv ⟨i,n,he,hd⟩)).connected.2 hs

end

/-- The counter is the number of keepalives without an answer, a connected session never has more
than the allowed number of them, and it fails when the timer of the last of that many in a row
has run out; after a response to the keepalive sent last it stays connected. -/
theorem consent_counts_keepalives (w : IceWorld) (controlling : Bool) (config : IceConfig)
    (ufrag pwd : Bytes) (tieBreaker : UInt64) (events : List IceEvent)
    (hm : 1 ≤ config.consentMaxFailures) :
    let p := run (Pulse.act w) ⟨IceSession.create controlling config ufrag pwd tieBreaker,[]⟩ events
    let s := p.session
    (s.nominated = true → s.consentMissed = unanswered p.beats) ∧
      (s.state = .connected → s.consentMissed ≤ config.consentMaxFailures) ∧
      ∀ e, s.state = .connected →
        ((s.act w e).state ≠ .connected →
          (∃ i, e = .run i ∧ s.due[i]? = some (.timer .keepalive)) ∧
            (s.act w e).state = .failed ∧ unanswered p.beats = config.consentMaxFailures) ∧
        (p.beats.head? = some .answer → (s.act w e).state = .connected) := by
  intro p s
  have hstart : Consenting ⟨IceSession.create controlling config ufrag pwd tieBreaker,[]⟩ := by
    refine ⟨(create_tended controlling config ufrag pwd tieBreaker).1,fun h => ?_,rfl,?_,
      fun txn h => ?_⟩
    · cases h
    · show (0 : Int) ≤ config.consentMaxFailures
      omega
    · cases h
  obtain ⟨h,hconfig⟩ : Consenting p ∧ s.config = config :=
    run_invariant (I := fun p : Pulse => Consenting p ∧ p.session.config = config)
      (fun p e hi => ⟨hi.1.act (by rw [hi.2]; exact hm) e,(act_config w p.session e).trans hi.2⟩)
      ⟨hstart,rfl⟩ events
  have hbound := h.bounded
  rw [hconfig] at hbound
  refine ⟨fun _ => h.counted,fun _ => hbound,fun e hs => ⟨fun hlost => ?_,fun hanswer => ?_⟩⟩
  · obtain ⟨hkeep,hover,hfailed⟩ := act_disconnects w hs (h.live hs) hlost
    rw [hconfig] at hover
    exact ⟨hkeep,hfailed,h.counted.symm.trans (le_antisymm hbound hover)⟩
  · by_contra hlost
    obtain ⟨-,hover,-⟩ := act_disconnects w hs (h.live hs) hlost
    have hzero : unanswered p.beats = 0 := by
      cases hb : p.beats with
      | nil => rfl
      | cons b older =>
        rw [hb] at hanswer
        cases hanswer
        rfl
    have hcount := h.counted
    rw [hconfig,hcount,hzero] at hover
    exact absurd (hm.trans hover) (by decide)

/-- Three keepalives to a peer that has gone silent. -/
theorem consent_counts_keepalives_silent :
    let p := run (Pulse.act lanWorld) ⟨controlledSession,[]⟩
      [.gather,.arrive lanPeer signedCheck,.run 0,.elapse .keepalive,.run 0,.elapse .keepalive,
       .run 0,.elapse .keepalive]
    p.session.consentMissed = 3 ∧ (p.session.act lanWorld (.run 0)).state = .failed ∧
      unanswered p.beats = 3 := by
  intro p
  have hconn : p.session.state = .connected := by decide +kernel
  have hlost : (p.session.act lanWorld (.run 0)).state ≠ .connected := by decide +kernel
  obtain ⟨hcount,-,hstep⟩ := consent_counts_keepalives lanWorld false ⟨[],3⟩ [] [] 0
    [.gather,.arrive lanPeer signedCheck,.run 0,.elapse .keepalive,.run 0,.elapse .keepalive,
     .run 0,.elapse .keepalive] (by decide)
  obtain ⟨-,hfailed,hthree⟩ := (hstep (.run 0) hconn).1 hlost
  have hbeats : (unanswered p.beats : Int) = 3 := hthree
  have hnom : p.session.nominated = true := by decide +kernel
  exact ⟨(hcount hnom).trans hbeats,hfailed,by exact_mod_cast hbeats⟩

end GoodNet.Ice
