import GoodNet.IceSession
import GoodNet.Lib.Interleaving
set_option autoImplicit false

/-! What makes a session `Connected`. A nomination is the doing of one datagram: on the
controlled side a binding request with USE-CANDIDATE, on the controlling side the response to a
check. The parser of requests looks for MESSAGE-INTEGRITY and passes a request that has none,
compares at the last of them whatever follows it, and responses are not checked at all. -/

namespace GoodNet.Ice
open Codec Interleaving

/-- The value of a MESSAGE-INTEGRITY attribute is the one due under `password`. -/
def StunAttr.Verifies (hmac : HmacSha1) (data password : Bytes) (a : StunAttr) : Prop :=
  a.isIntegrity = true ∧
    a.value = (hmac password (integrityInput (data.take a.offset))).bytes

instance (hmac : HmacSha1) (data password : Bytes) (a : StunAttr) :
    Decidable (a.Verifies hmac data password) := inferInstanceAs (Decidable (_ ∧ _))

/-- What a request says in the attributes before `a`. -/
def requestBefore (data : Bytes) (a : StunAttr) : StunRequest :=
  ((attributes data).filter (fun b => b.offset < a.offset)).foldl StunRequest.take
    { txnId := stunTxnId data }

/-- A request all of whose fields an attribute in it authenticates. -/
def AuthenticRequest (hmac : HmacSha1) (data password : Bytes) (req : StunRequest) : Prop :=
  ∃ a ∈ attributes data, a.Verifies hmac data password ∧ req = requestBefore data a

def AuthenticResponse (hmac : HmacSha1) (data password : Bytes) : Prop :=
  ∃ a ∈ attributes data, a.Verifies hmac data password

/-- The attributes a request takes its fields from. -/
def StunAttr.isField (a : StunAttr) : Bool :=
  a.type == stunAttrUsername || a.type == stunAttrPriority || a.type == stunAttrUseCandidate

/-- The last MESSAGE-INTEGRITY attribute of a request is there, and if the comparison succeeds at
it then it has the length of a digest and no field comes after it. -/
def Sealed (hmac : HmacSha1) (data beyond password : Bytes) : Prop :=
  (integrityAttr data).isSome = true ∧ ∀ a ∈ integrityAttr data,
    integrityMatches hmac data beyond password a.offset = true →
      a.value.length = stunHmacSize ∧
        ∀ b ∈ attributes data, a.offset ≤ b.offset → b.isField = false

instance (hmac : HmacSha1) (data beyond password : Bytes) :
    Decidable (Sealed hmac data beyond password) := inferInstanceAs (Decidable (_ ∧ _))

theorem StunRequest.take_other {a : StunAttr} (h : a.isField = false) (req : StunRequest) :
    req.take a = req := by
  simp only [StunAttr.isField,Bool.or_eq_false_iff,beq_eq_false_iff_ne] at h
  simp [StunRequest.take,h.1.1,h.1.2,h.2]

theorem foldl_take_filter {p : StunAttr → Bool} {attrs : List StunAttr}
    (h : ∀ a ∈ attrs, p a = false → a.isField = false) (req : StunRequest) :
    attrs.foldl StunRequest.take req = (attrs.filter p).foldl StunRequest.take req := by
  induction attrs generalizing req with
  | nil => rfl
  | cons a rest ih =>
    have hrest := ih (fun b hb => h b (List.mem_cons_of_mem a hb))
    cases hp : p a with
    | true => simp only [List.foldl_cons,List.filter_cons,hp,if_true,hrest]
    | false =>
      have ha := StunRequest.take_other (h a List.mem_cons_self hp) req
      simp only [List.foldl_cons,List.filter_cons,hp,ha,hrest,Bool.false_eq_true,if_false]

theorem stunAttrs_value {data : Bytes} {stop fuel pos : Nat} {a : StunAttr}
    (h : a ∈ stunAttrs data stop fuel pos) : ∃ len, a.value = (data.drop (a.offset+4)).take len := by
  induction fuel generalizing pos with
  | zero => simp [stunAttrs] at h
  | succ fuel ih =>
    rw [stunAttrs] at h
    split at h
    · simp at h
    · rcases List.mem_cons.1 h with rfl | h
      · exact ⟨_,rfl⟩
      · exact ih h

/-- The twenty bytes the parser compares with are the attribute's value, if that is as long. -/
theorem attributes_digest {data beyond : Bytes} {a : StunAttr} (ha : a ∈ attributes data)
    (hlen : a.value.length = stunHmacSize) :
    ((data ++ beyond).drop (a.offset+4)).take stunHmacSize = a.value := by
  obtain ⟨len,hvalue⟩ := stunAttrs_value ha
  have hboth : stunHmacSize ≤ len ∧ stunHmacSize ≤ (data.drop (a.offset+4)).length := by
    rw [hvalue,List.length_take] at hlen
    omega
  have hin : a.offset+4 ≤ data.length := by
    have := hboth.2
    rw [List.length_drop] at this
    simp only [stunHmacSize] at this
    omega
  rw [List.drop_append_of_le_length hin,List.take_append_of_le_length hboth.2]
  have hmin : min stunHmacSize len = stunHmacSize := min_eq_left hboth.1
  calc (data.drop (a.offset+4)).take stunHmacSize
      = ((data.drop (a.offset+4)).take len).take stunHmacSize := by rw [List.take_take,hmin]
    _ = a.value.take stunHmacSize := by rw [hvalue]
    _ = a.value := List.take_of_length_le (le_of_eq hlen)

theorem integrityAttr_mem {data : Bytes} {a : StunAttr} (h : integrityAttr data = some a) :
    a ∈ attributes data ∧ a.isIntegrity = true := by
  have hmem := List.mem_of_getLast? h
  exact List.mem_filter.1 hmem

/-- A request the parser accepts is authentic, given the password and the seal. -/
theorem parseBindingRequest_authentic {hmac : HmacSha1} {data beyond password : Bytes}
    {req : StunRequest} (hp : password ≠ []) (hs : Sealed hmac data beyond password)
    (h : parseBindingRequest hmac data beyond password = some req) :
    AuthenticRequest hmac data password req := by
  unfold parseBindingRequest at h
  split at h
  · cases ha : integrityAttr data with
    | none => simp [Sealed,ha] at hs
    | some a =>
      have hempty : password.isEmpty = false := by simpa using hp
      simp only [ha,hempty,Bool.false_or] at h
      split at h
      · rename_i hmatch
        obtain ⟨hlen,hafter⟩ := hs.2 a ha hmatch
        obtain ⟨hmem,hint⟩ := integrityAttr_mem ha
        refine ⟨a,hmem,⟨hint,?_⟩,?_⟩
        · have heq := beq_iff_eq.1 hmatch
          rw [heq,attributes_digest hmem hlen]
        · rw [← Option.some.inj h]
          refine foldl_take_filter (fun b hb hlt => hafter b hb ?_) _
          exact Nat.le_of_not_lt (of_decide_eq_false hlt)
      · simp at h
  · simp at h

/-- What stays when nothing is nominated. -/
structure Steady (s s' : IceSession) : Prop where
  nominated : s'.nominated = s.nominated
  connected : s'.state = .connected → s.state = .connected
  localCreds : s'.localCreds = s.localCreds

theorem OnlySends.steady {s s' : IceSession} (h : OnlySends s s') : Steady s s' where
  nominated := h.nominated
  connected := fun hc => h.state.symm.trans hc
  localCreds := h.localCreds

theorem Steady.refl (s : IceSession) : Steady s s := ⟨rfl,id,rfl⟩

theorem Steady.trans {a b c : IceSession} (hab : Steady a b) (hbc : Steady b c) : Steady a c where
  nominated := hbc.nominated.trans hab.nominated
  connected := fun h => hab.connected (hbc.connected h)
  localCreds := hbc.localCreds.trans hab.localCreds

section Steady
variable (w : IceWorld) (s : IceSession)

theorem transition_steady {next : SessionState} (h : next ≠ .connected) :
    Steady s (s.transition next) := ⟨rfl,fun hc => absurd hc h,rfl⟩

theorem emit_steady (e : IceEffect) : Steady s (s.emit e) := ⟨rfl,id,rfl⟩

theorem fail_steady : Steady s s.fail :=
  (transition_steady s (by decide)).trans (emit_steady _ _)

theorem sendNextCheck_steady : Steady s (s.sendNextCheck w) := by
  have hnext := (checkNext_onlySends w s).steady
  unfold IceSession.sendNextCheck
  dsimp only
  split
  · exact .refl s
  · split
    · exact hnext.trans (fail_steady _)
    · split
      · exact hnext.trans (arm_onlySends _ _).steady
      · exact hnext

theorem beginChecks_steady : Steady s (s.beginChecks w) := by
  have hstart : Steady s (s.transition .checking) := transition_steady s (by decide)
  have harmed := ((formCheckList_onlySends (s.transition .checking)).trans (arm_onlySends _ .timeout))
  exact (hstart.trans harmed.steady).trans (sendNextCheck_steady w _)

theorem gatheringComplete_steady : Steady s (s.gatheringComplete w) := by
  unfold IceSession.gatheringComplete
  dsimp only
  split
  · exact .refl s
  · refine Steady.trans ?_ (emit_steady _ _)
    split
    · exact transition_steady s (by decide)
    · exact beginChecks_steady w s

theorem onSrflxResult_steady (addr : Option StunAddress) : Steady s (s.onSrflxResult w addr) := by
  cases addr with
  | none => exact gatheringComplete_steady w s
  | some a =>
    have hadd : ∀ l, Steady s { s with localCandidates := l } := fun l => ⟨rfl,id,rfl⟩
    exact (hadd _).trans (gatheringComplete_steady w _)

theorem tryIdx_steady (i : Nat) : Steady s { s with stunTryIdx := i } := ⟨rfl,id,rfl⟩

theorem tryServers_steady (servers : List StunServer) : Steady s (s.tryServers w servers) := by
  induction servers generalizing s with
  | nil => exact onSrflxResult_steady w s none
  | cons server rest ih =>
    have hasked := (requestServer_onlySends w s).steady
    rw [IceSession.tryServers]
    dsimp only
    split
    · exact hasked
    · exact (hasked.trans (tryIdx_steady _ _)).trans (ih _)

theorem clientFailed_steady : Steady s (s.clientFailed w) := by
  have hnext : ∀ i, Steady s { s.clientDone with stunTryIdx := i } := fun i => ⟨rfl,id,rfl⟩
  exact (hnext _).trans (tryServers_steady w _ _)

theorem gather_steady : Steady s (s.gather w) := by
  unfold IceSession.gather
  dsimp only
  split
  · exact .refl s
  · have hstart : Steady s (s.transition .gathering) := transition_steady s (by decide)
    split
    · exact hstart
    · have hhost : Steady (s.transition .gathering)
          ((s.transition .gathering).gatherHostCandidates w) := ⟨rfl,id,rfl⟩
      have hloop := hhost.trans (startRecvLoop_onlySends _).steady
      exact ((hstart.trans hloop).trans (tryIdx_steady _ _)).trans (tryServers_steady w _ _)

theorem setRemote_steady (remote : IceSignalData) (candidates : List IceCandidateWire) :
    Steady s (s.setRemote w remote candidates) := by
  have hset : ∀ creds cands,
      Steady s { s with remoteCreds := creds, remoteCandidates := cands } := fun _ _ => ⟨rfl,id,rfl⟩
  unfold IceSession.setRemote
  dsimp only
  split
  · exact (hset _ _).trans (beginChecks_steady w _)
  · exact hset _ _

theorem startChecks_steady : Steady s (s.startChecks w) := by
  unfold IceSession.startChecks
  split
  · exact beginChecks_steady w s
  · exact .refl s

theorem retryExpired_steady : Steady s (s.retryExpired w) := by
  have hclient : ∀ c, Steady s { s with stunClient := c } := fun c => ⟨rfl,id,rfl⟩
  unfold IceSession.retryExpired
  dsimp only
  split
  · exact .refl s
  · split
    · exact (hclient _).trans (clientFailed_steady w _)
    · have hsend : ∀ c, Steady s { s.ask with stunClient := c } := fun c => ⟨rfl,id,rfl⟩
      exact ((hsend _).trans (sendTo_onlySends _ _ _).steady).trans (arm_onlySends _ _).steady

theorem timeoutExpired_steady : Steady s s.timeoutExpired := by
  unfold IceSession.timeoutExpired
  split
  · exact fail_steady s
  · exact .refl s

theorem keepaliveExpired_steady : Steady s (s.keepaliveExpired w) := by
  unfold IceSession.keepaliveExpired
  split
  · exact (cancel_onlySends s _).steady.trans (fail_steady _)
  · exact (sendKeepalive_onlySends w s).steady

theorem cancelClient_steady : Steady s (s.cancelClient w) := by
  unfold IceSession.cancelClient
  split
  · exact (cancel_onlySends s _).steady.trans (clientFailed_steady w _)
  · exact .refl s

theorem close_steady : Steady s (s.close w) := by
  unfold IceSession.close
  dsimp only
  split
  · exact .refl s
  · have hflag : Steady s (({ s with closed := true } : IceSession).emit .closing) := ⟨rfl,id,rfl⟩
    have hshut : ∀ t : IceSession,
        Steady t { ((t.cancel .check).cancel .timeout).cancel .keepalive with
          socketOpen := false, receiving := false } := fun t => ⟨rfl,id,rfl⟩
    exact (hflag.trans (cancelClient_steady w _)).trans (hshut _)

end Steady

/-- A datagram answers a check that would make the controlling side nominate. -/
def IceSession.Answered (s : IceSession) (data : Bytes) : Prop :=
  s.controlling = true ∧ s.nominated = false ∧ ∃ r ∈ parseBindingResponse data,
    ∃ p ∈ s.checkList, p.state = .inProgress ∧ p.checkTxn = r.txnId

instance (s : IceSession) (data : Bytes) : Decidable (s.Answered data) :=
  inferInstanceAs (Decidable (_ ∧ _))

/-- A datagram asks the controlled side to nominate. -/
def IceSession.Selected (w : IceWorld) (s : IceSession) (data : Bytes) : Prop :=
  s.controlling = false ∧ s.nominated = false ∧
    ∃ req ∈ parseBindingRequest w.hmac data (s.beyond data.length) s.localCreds.pwd,
      req.useCandidate = true

instance (w : IceWorld) (s : IceSession) (data : Bytes) : Decidable (s.Selected w data) :=
  inferInstanceAs (Decidable (_ ∧ _))

theorem nominate_localCreds (w : IceWorld) (s : IceSession) (i : Nat) :
    (s.nominate w i).localCreds = s.localCreds := by
  unfold IceSession.nominate
  split
  · exact (startKeepalive_onlySends w _).localCreds
  · rfl

theorem nominateFrom_localCreds (w : IceWorld) (s : IceSession) (origin : StunAddress)
    (priority : UInt32) : (s.nominateFrom w origin priority).localCreds = s.localCreds := by
  unfold IceSession.nominateFrom
  split
  · exact (nominate_localCreds w _ _).trans (markSucceeded_onlySends s _).localCreds
  · exact nominate_localCreds w _ _

theorem handleStunResponse_cases (w : IceWorld) (s : IceSession) (data : Bytes) :
    OnlySends s (s.handleStunResponse w data) ∨
      s.Answered data ∧ (∃ i, s.handleStunResponse w data = (s.markSucceeded i).nominate w i) := by
  unfold IceSession.handleStunResponse
  cases hr : parseBindingResponse data with
  | none => exact .inl (.refl s)
  | some r =>
    dsimp only
    split
    · exact .inl { OnlySends.refl s with }
    · cases hi : s.checkList.findIdx? (fun p =>
          p.state == .inProgress && p.checkTxn == r.txnId) with
      | none => exact .inl (.refl s)
      | some i =>
        have hmark := markSucceeded_onlySends s i
        dsimp only
        split
        · rename_i hfree
          rw [hmark.controlling,hmark.nominated,Bool.and_eq_true,Bool.not_eq_true'] at hfree
          obtain ⟨hlt,hp,-⟩ := List.findIdx?_eq_some_iff_getElem.1 hi
          rw [Bool.and_eq_true,beq_iff_eq,beq_iff_eq] at hp
          exact .inr ⟨⟨hfree.1,hfree.2,r,hr,_,List.getElem_mem hlt,hp⟩,i,rfl⟩
        · exact .inl hmark

theorem handleStunRequest_cases (w : IceWorld) (s : IceSession) (data : Bytes) :
    OnlySends s (s.handleStunRequest w data) ∨
      s.Selected w data ∧ ∃ t req, OnlySends s t ∧
        s.handleStunRequest w data = t.nominateFrom w s.recvFrom req := by
  unfold IceSession.handleStunRequest
  cases hr : parseBindingRequest w.hmac data (s.beyond data.length) s.localCreds.pwd with
  | none => exact .inl (.refl s)
  | some req =>
    have hsent := sendTo_onlySends s s.recvFrom
      (buildCheckResponse w.hmac req.txnId s.recvFrom s.localCreds.pwd)
    have hfrom : (s.sendTo s.recvFrom
        (buildCheckResponse w.hmac req.txnId s.recvFrom s.localCreds.pwd)).recvFrom = s.recvFrom := by
      unfold IceSession.sendTo
      split <;> rfl
    dsimp only
    split
    · rename_i hsel
      rw [hsent.controlling,hsent.nominated,Bool.and_eq_true,Bool.and_eq_true,Bool.not_eq_true',
        Bool.not_eq_true'] at hsel
      exact .inr ⟨⟨hsel.1.2,hsel.2,req,hr,hsel.1.1⟩,_,req.priority,hsent,by rw [hfrom]⟩
    · exact .inl hsent

/-- A datagram nominates in one of the two ways, or not at all. -/
theorem onRecv_cases (w : IceWorld) (s : IceSession) (n : Nat) :
    Steady s (s.onRecv w n) ∨
      (s.onRecv w n).localCreds = s.localCreds ∧
        (s.stunClient.feed (s.recvBuf.take n) = none ∧ s.Answered (s.recvBuf.take n) ∨
          s.Selected w (s.recvBuf.take n)) := by
  unfold IceSession.onRecv
  dsimp only
  cases hf : s.stunClient.feed (s.recvBuf.take n) with
  | some addr =>
    have hdone : Steady s (s.cancel .retry).clientDone := ⟨rfl,id,rfl⟩
    exact .inl (hdone.trans (onSrflxResult_steady w _ _))
  | none =>
    dsimp only
    split
    · unfold IceSession.handleStunPacket
      split
      · rcases handleStunResponse_cases w s (s.recvBuf.take n) with h | ⟨hans,i,heq⟩
        · exact .inl h.steady
        · refine .inr ⟨?_,.inl ⟨rfl,hans⟩⟩
          rw [heq,nominate_localCreds,(markSucceeded_onlySends s i).localCreds]
      · split
        · rcases handleStunRequest_cases w s (s.recvBuf.take n) with h | ⟨hsel,t,p,hsent,heq⟩
          · exact .inl h.steady
          · refine .inr ⟨?_,.inr hsel⟩
            rw [heq,nominateFrom_localCreds,hsent.localCreds]
        · exact .inl (.refl s)
    · split
      · exact .inl (emit_steady s _)
      · exact .inl (.refl s)

/-- The datagram a step hands to the session. -/
def IceSession.message (s : IceSession) : IceEvent → Option Bytes
  | .run i =>
    match s.due[i]? with
    | some (.recv n) => some (s.recvBuf.take n)
    | _ => none
  | _ => none

/-- Only a datagram that is handled nominates. -/
theorem act_cases (w : IceWorld) (s : IceSession) (e : IceEvent) :
    Steady s (s.act w e) ∨
      (s.act w e).localCreds = s.localCreds ∧ ∃ data, s.message e = some data ∧
        (s.stunClient.feed data = none ∧ s.Answered data ∨ s.Selected w data) := by
  cases e with
  | gather => exact .inl (gather_steady w s)
  | setRemote remote candidates => exact .inl (setRemote_steady w s remote candidates)
  | startChecks => exact .inl (startChecks_steady w s)
  | send data => exact .inl (send_onlySends s data).steady
  | close => exact .inl (close_steady w s)
  | elapse t => exact .inl (elapse_onlySends w s t).steady
  | arrive origin data => exact .inl (arrive_onlySends w s origin data).steady
  | recvFailed => exact .inl (recvFailed_onlySends w s).steady
  | run i =>
    simp only [IceSession.act]
    cases hd : s.due[i]? with
    | none => exact .inl (.refl s)
    | some h =>
      have htaken : Steady s { s with due := s.due.eraseIdx i } := ⟨rfl,id,rfl⟩
      cases h with
      | timer t =>
        cases t with
        | check => exact .inl (htaken.trans (sendNextCheck_steady w _))
        | timeout => exact .inl (htaken.trans (timeoutExpired_steady _))
        | keepalive => exact .inl (htaken.trans (keepaliveExpired_steady w _))
        | retry => exact .inl (htaken.trans (retryExpired_steady w _))
      | recv n =>
        have hloop := doRecv_onlySends (({ s with due := s.due.eraseIdx i } : IceSession).onRecv w n)
        rcases onRecv_cases w { s with due := s.due.eraseIdx i } n with h | ⟨hcreds,hcause⟩
        · exact .inl ((htaken.trans h).trans hloop.steady)
        · refine .inr ⟨hloop.localCreds.trans hcreds,_,?_,hcause⟩
          simp only [IceSession.message,hd]

/-- Of a step that handles a binding request: the request is sealed. Of one that handles the
response to a check: the response carries the peer's MESSAGE-INTEGRITY. -/
def Vouched (w : IceWorld) (s : IceSession) (e : IceEvent) : Prop :=
  ∀ data ∈ s.message e,
    (stunHeaderOk stunBindingRequest data = true →
      Sealed w.hmac data (s.beyond data.length) s.localCreds.pwd) ∧
    (s.stunClient.feed data = none → s.Answered data →
      AuthenticResponse w.hmac data s.remoteCreds.pwd)

instance (hmac : HmacSha1) (data password : Bytes) :
    Decidable (AuthenticResponse hmac data password) := inferInstanceAs (Decidable (∃ a ∈ _,_))

instance (w : IceWorld) (s : IceSession) (e : IceEvent) : Decidable (Vouched w s e) :=
  inferInstanceAs (Decidable (∀ data ∈ s.message e,_))

/-- A step accepts only an authentic request, and nominates only on an authentic message. -/
structure Authenticated (w : IceWorld) (s : IceSession) (e : IceEvent) : Prop where
  request : ∀ data req, s.message e = some data →
    parseBindingRequest w.hmac data (s.beyond data.length) s.localCreds.pwd = some req →
      AuthenticRequest w.hmac data s.localCreds.pwd req
  connected :
    s.nominated = false ∧ (s.act w e).nominated = true ∨
        s.state ≠ .connected ∧ (s.act w e).state = .connected →
      ∃ data, s.message e = some data ∧
        ((∃ req, req.useCandidate = true ∧ AuthenticRequest w.hmac data s.localCreds.pwd req) ∨
          AuthenticResponse w.hmac data s.remoteCreds.pwd)

theorem parseBindingRequest_header {hmac : HmacSha1} {data beyond password : Bytes}
    {req : StunRequest} (h : parseBindingRequest hmac data beyond password = some req) :
    stunHeaderOk stunBindingRequest data = true := by
  by_contra hn
  simp [parseBindingRequest,hn] at h

theorem Vouched.authenticated {w : IceWorld} {s : IceSession} {e : IceEvent}
    (hp : s.localCreds.pwd ≠ []) (h : Vouched w s e) : Authenticated w s e := by
  have hreq : ∀ data req, s.message e = some data →
      parseBindingRequest w.hmac data (s.beyond data.length) s.localCreds.pwd = some req →
        AuthenticRequest w.hmac data s.localCreds.pwd req := by
    intro data req hm hparse
    have hsealed := (h data hm).1 (parseBindingRequest_header hparse)
    exact parseBindingRequest_authentic hp hsealed hparse
  refine ⟨hreq,?_⟩
  intro hconn
  rcases act_cases w s e with hsteady | ⟨-,data,hm,hcause⟩
  · rcases hconn with ⟨hn,hn'⟩ | ⟨hc,hc'⟩
    · rw [hsteady.nominated,hn] at hn'
      simp at hn'
    · exact absurd (hsteady.connected hc') hc
  · refine ⟨data,hm,?_⟩
    rcases hcause with ⟨hfeed,hans⟩ | ⟨-,-,req,hparse,huse⟩
    · exact .inr ((h data hm).2 hfeed hans)
    · exact .inl ⟨req,huse,hreq data req hm hparse⟩

theorem act_localCreds (w : IceWorld) (s : IceSession) (e : IceEvent) :
    (s.act w e).localCreds = s.localCreds := by
  rcases act_cases w s e with h | ⟨h,-⟩
  · exact h.localCreds
  · exact h

theorem create_pwd (controlling : Bool) (config : IceConfig) (ufrag pwd : Bytes)
    (tieBreaker : UInt64) : (IceSession.create controlling config ufrag pwd tieBreaker).localCreds.pwd ≠ [] := by
  have hlen : (randomAlphanumeric pwd 24).length = 24 := by simp [randomAlphanumeric]
  intro h
  have : (randomAlphanumeric pwd 24).length = 0 := congrArg List.length h
  omega

/-- A request is authentic if it is accepted, and a session that was created becomes connected
by authentic messages only. -/
theorem connected_by_authentic_message (w : IceWorld) :
    (∀ data beyond password, password ≠ [] → Sealed w.hmac data beyond password →
      ∀ req, parseBindingRequest w.hmac data beyond password = some req →
        AuthenticRequest w.hmac data password req) ∧
    ∀ controlling config ufrag pwd tieBreaker events,
      Along (IceSession.act w) (Vouched w)
          (IceSession.create controlling config ufrag pwd tieBreaker) events →
        Along (IceSession.act w) (Authenticated w)
          (IceSession.create controlling config ufrag pwd tieBreaker) events := by
  constructor
  · intro data beyond password hp hs req hparse
    exact parseBindingRequest_authentic hp hs hparse
  · intro controlling config ufrag pwd tieBreaker events h
    have hkeep : ∀ (s : IceSession) e, s.localCreds.pwd ≠ [] → Vouched w s e →
        (s.act w e).localCreds.pwd ≠ [] := by
      intro s e hp _
      rw [act_localCreds]
      exact hp
    exact h.promises hkeep (fun s e hp hv => hv.authenticated hp)
      (create_pwd controlling config ufrag pwd tieBreaker)

/-- A host whose STUN servers do not resolve. The digests are those of HMAC-SHA1 for the three
messages of the runs below: the peer's check, the response to it and the first keepalive. -/
def lanWorld : IceWorld where
  hmac := fun _ message =>
    if message.getD 0 0 = 1 then
      ⟨[185,32,147,185,101,116,180,213,205,88,106,115,49,219,161,125,203,179,108,60],rfl⟩
    else if message.length = 32 then
      ⟨[2,189,118,18,72,184,202,76,84,183,188,126,123,97,15,120,100,157,251,150],rfl⟩
    else ⟨[142,44,171,30,78,28,182,68,27,185,104,73,235,59,222,30,214,198,4,82],rfl⟩
  random := fun _ => Block.zero 12
  resolves := fun _ => none
  sends := fun _ => true
  probe := fun _ => none
  localPort := 4000

def lanPeer : StunAddress := ⟨.v4 ⟨[10,0,0,2],rfl⟩,5000⟩

/-- Header, PRIORITY and USE-CANDIDATE, without MESSAGE-INTEGRITY. -/
def bareCheck : Bytes :=
  [0,1,0,12,33,18,164,66,7,7,7,7,7,7,7,7,7,7,7,7,0,36,0,4,0,0,0,1,0,37,0,0]

/-- The same with the MESSAGE-INTEGRITY due under the password of `controlledSession`. -/
def signedCheck : Bytes :=
  [0,1,0,36,33,18,164,66,7,7,7,7,7,7,7,7,7,7,7,7,0,36,0,4,0,0,0,1,0,37,0,0,
   0,8,0,20,2,189,118,18,72,184,202,76,84,183,188,126,123,97,15,120,100,157,251,150]

def controlledSession : IceSession := IceSession.create false ⟨[],3⟩ [] [] 0

theorem connected_by_signed_check :
    (run (IceSession.act lanWorld) controlledSession
      [.gather,.arrive lanPeer signedCheck,.run 0]).state = .connected ∧
    Along (IceSession.act lanWorld) (Authenticated lanWorld) controlledSession
      [.gather,.arrive lanPeer signedCheck,.run 0] :=
  ⟨by decide +kernel,
    (connected_by_authentic_message lanWorld).2 false ⟨[],3⟩ [] [] 0 _ (by decide +kernel)⟩

theorem connected_by_bare_check :
    ¬ Along (IceSession.act lanWorld) (Authenticated lanWorld) controlledSession
      [.gather,.arrive lanPeer bareCheck,.run 0] := by
  rintro ⟨-,-,h,-⟩
  obtain ⟨data,hdata,hauth⟩ := h.connected (.inr (by decide +kernel))
  have hbare : data = bareCheck := by
    have hm : (run (IceSession.act lanWorld) controlledSession
        [.gather,.arrive lanPeer bareCheck]).message (.run 0) = some bareCheck := by decide +kernel
    exact Option.some.inj (hdata.symm.trans hm)
  have hnone : ∀ a ∈ attributes bareCheck, a.isIntegrity = false := by decide +kernel
  subst hbare
  rcases hauth with ⟨req,-,a,ha,hv,-⟩ | ⟨a,ha,hv⟩
  · exact absurd hv.1 (by simp [hnone a ha])
  · exact absurd hv.1 (by simp [hnone a ha])

end GoodNet.Ice
