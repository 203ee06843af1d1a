import GoodNet.IceAuthentication
import GoodNet.Lib.History
set_option autoImplicit false

/-! What a session does after it has failed and after it has been closed. `transition` takes any
change, the receive loop goes on after a failure, handlers that were due before `close` run after
it, and `close` itself ends the request of the STUN client, whose callback goes on gathering. -/

namespace GoodNet.Ice
open Codec Interleaving History

/-- What must not come after `on_failed`. -/
def IceEffect.revives : IceEffect → Bool
  | .transition _ next => next == .connected
  | .onGathered => true
  | .onConnected => true
  | .onData _ => true
  | _ => false

/-- What must not come after `close`. -/
def IceEffect.acts : IceEffect → Bool
  | .sent _ _ => false
  | .closing => false
  | _ => true

def Terminal (e : IceEffect) (older : List IceEffect) : Prop :=
  (.onFailed ∈ older → e.revives = false) ∧ (.closing ∈ older → e.acts = false)

structure Settled (s : IceSession) : Prop where
  terminal : Justified Terminal s.log
  failed : .onFailed ∈ s.log → s.state = .failed
  closed : .closing ∈ s.log → s.closed = true

section Settled
variable {s : IceSession}

theorem Settled.congr {s' : IceSession} (h : Settled s) (hlog : s'.log = s.log)
    (hstate : s'.state = s.state) (hclosed : s'.closed = s.closed) : Settled s' where
  terminal := by rw [hlog]; exact h.terminal
  failed := by rw [hlog,hstate]; exact h.failed
  closed := by rw [hlog,hclosed]; exact h.closed

theorem Settled.emit (h : Settled s) {e : IceEffect} (hf : s.state = .failed → e.revives = false)
    (hc : s.closed = true → e.acts = false) (hfail : e = .onFailed → s.state = .failed)
    (hclose : e = .closing → s.closed = true) : Settled (s.emit e) where
  terminal := ⟨⟨fun hm => hf (h.failed hm),fun hm => hc (h.closed hm)⟩,h.terminal⟩
  failed := by
    intro hm
    rcases List.mem_cons.1 hm with he | hm
    · exact hfail he.symm
    · exact h.failed hm
  closed := by
    intro hm
    rcases List.mem_cons.1 hm with he | hm
    · exact hclose he.symm
    · exact h.closed hm

theorem Settled.transition (h : Settled s) {next : SessionState} (hc : s.closed = false)
    (hf : s.state = .failed → next = .failed) : Settled (s.transition next) where
  terminal := by
    refine ⟨⟨fun hm => ?_,fun hm => ?_⟩,h.terminal⟩
    · rw [hf (h.failed hm)]
      rfl
    · rw [h.closed hm] at hc
      exact absurd hc (by simp)
  failed := by
    intro hm
    rcases List.mem_cons.1 hm with he | hm
    · exact absurd he (by simp)
    · exact hf (h.failed hm)
  closed := by
    intro hm
    rcases List.mem_cons.1 hm with he | hm
    · exact absurd he (by simp)
    · exact h.closed hm

theorem Settled.fail (h : Settled s) (hc : s.closed = false) : Settled s.fail := by
  refine (h.transition hc (fun _ => rfl)).emit (fun _ => rfl) ?_ (fun _ => rfl) (by simp)
  intro hclosed
  exact absurd (hclosed.symm.trans hc) (by simp)

theorem isSent_terminal {e : IceEffect} (he : e.isSent = true) (older : List IceEffect) :
    Terminal e older := by
  cases e with
  | sent dest packet => exact ⟨fun _ => rfl,fun _ => rfl⟩
  | _ => simp [IceEffect.isSent] at he

theorem Settled.onlySends {s' : IceSession} (h : Settled s) (hs : OnlySends s s') : Settled s' := by
  obtain ⟨packets,hlog,hsent⟩ := hs.log
  have hold : ∀ e, e.isSent = false → e ∈ s'.log → e ∈ s.log := by
    intro e he hm
    rw [hlog] at hm
    rcases List.mem_append.1 hm with hp | hm
    · exact absurd (hsent e hp) (by simp [he])
    · exact hm
  refine ⟨?_,fun hm => ?_,fun hm => ?_⟩
  · rw [hlog]
    exact h.terminal.append (fun e he older => isSent_terminal (hsent e he) older)
  · rw [hs.state]
    exact h.failed (hold _ rfl hm)
  · rw [hs.closed]
    exact h.closed (hold _ rfl hm)

theorem Settled.sendNextCheck (w : IceWorld) (h : Settled s) : Settled (s.sendNextCheck w) := by
  have hnext := checkNext_onlySends w s
  unfold IceSession.sendNextCheck
  dsimp only
  split
  · exact h
  · rename_i hopen
    rw [not_or,Bool.not_eq_true] at hopen
    split
    · exact (h.onlySends hnext).fail (hnext.closed.trans hopen.2)
    · split
      · exact (h.onlySends hnext).onlySends (arm_onlySends _ _)
      · exact h.onlySends hnext

theorem Settled.beginChecks (w : IceWorld) (h : Settled s) (hc : s.closed = false)
    (hf : s.state ≠ .failed) : Settled (s.beginChecks w) := by
  have hstart : Settled (s.transition .checking) := h.transition hc (fun hs => absurd hs hf)
  have harmed := (formCheckList_onlySends (s.transition .checking)).trans (arm_onlySends _ .timeout)
  exact (hstart.onlySends harmed).sendNextCheck w

end Settled

/-- The candidates of both ends form a pair, as far as the peer's are known. -/
def IceSession.Paired (s : IceSession) : Prop :=
  s.remoteCandidates = [] ∨ ∃ l ∈ s.localCandidates, ∃ r ∈ s.remoteCandidates,
    l.endpoint.ip.isV4 = r.endpoint.ip.isV4

instance (s : IceSession) : Decidable s.Paired := inferInstanceAs (Decidable (_ ∨ _))

theorem OnlySends.paired {s s' : IceSession} (h : OnlySends s s') (hp : s.Paired) : s'.Paired := by
  unfold IceSession.Paired
  rw [h.localCandidates,h.remoteCandidates]
  exact hp

theorem formCheckList_waiting {s : IceSession} {p : CandidatePair}
    (h : p ∈ s.formCheckList.checkList) : p.state = .waiting := by
  have hp := (List.perm_insertionSort _ _).mem_iff.1 h
  obtain ⟨l,-,hl⟩ := List.mem_flatMap.1 hp
  obtain ⟨r,-,rfl⟩ := List.mem_map.1 hl
  rfl

theorem formCheckList_ne_nil {s : IceSession} (hp : s.Paired) (hr : s.remoteCandidates ≠ []) :
    s.formCheckList.checkList ≠ [] := by
  obtain ⟨l,hl,r,hr',hfam⟩ := hp.resolve_left hr
  have hmem : ∀ (pairs : List CandidatePair) (le : CandidatePair → CandidatePair → Prop)
      [DecidableRel le] (p : CandidatePair), p ∈ pairs → pairs.insertionSort le ≠ [] := by
    intro pairs le _ p hp
    exact List.ne_nil_of_mem ((List.perm_insertionSort le pairs).mem_iff.2 hp)
  refine hmem _ _ _ (List.mem_flatMap.2 ⟨l,hl,List.mem_map.2 ⟨r,?_,rfl⟩⟩)
  exact List.mem_filter.2 ⟨hr',by simp [hfam]⟩

/-- The first round of checks has one to make. -/
theorem checkNext_inProgress (w : IceWorld) {s : IceSession} (hne : s.checkList ≠ [])
    (hwait : ∀ p ∈ s.checkList, p.state = .waiting) (hidx : s.nextCheckIdx = 0) :
    (s.checkNext w).checkList.any (fun p => p.state == .inProgress) = true := by
  unfold IceSession.checkNext
  rw [hidx,List.drop_zero]
  cases hfind : (List.range s.checkList.length).find? s.isWaiting with
  | none =>
    have hpos : 0 < s.checkList.length := List.length_pos_of_ne_nil hne
    have hzero := List.find?_eq_none.1 hfind 0 (List.mem_range.2 hpos)
    simp [IceSession.isWaiting,List.getElem?_eq_getElem hpos,
      hwait _ (List.getElem_mem hpos)] at hzero
  | some i =>
    have hlt : i < s.checkList.length := List.mem_range.1 (List.mem_of_find?_eq_some hfind)
    have hsend : ∀ (t : IceSession) dest packet, (t.sendTo dest packet).checkList = t.checkList := by
      intro t dest packet
      unfold IceSession.sendTo
      split <;> rfl
    simp only [IceSession.checkPair,List.getElem?_eq_getElem hlt,hsend]
    refine List.any_eq_true.2 ⟨_,List.mem_set hlt _,by simp⟩

theorem sendNextCheck_closed (w : IceWorld) (s : IceSession) :
    (s.sendNextCheck w).closed = s.closed := by
  have hnext := (checkNext_onlySends w s).closed
  unfold IceSession.sendNextCheck
  dsimp only
  split
  · rfl
  · split
    · exact hnext
    · split <;> exact hnext

theorem beginChecks_closed (w : IceWorld) (s : IceSession) :
    (s.beginChecks w).closed = s.closed := sendNextCheck_closed w _

theorem beginChecks_checking (w : IceWorld) {s : IceSession} (hc : s.closed = false)
    (hp : s.Paired) (hr : s.remoteCandidates ≠ []) : (s.beginChecks w).state = .checking := by
  have hbusy : (((s.transition .checking).formCheckList.arm .timeout).checkNext w).checkList.any
      (fun p => p.state == .inProgress) = true :=
    checkNext_inProgress w (formCheckList_ne_nil hp hr) (fun _ hp => formCheckList_waiting hp) rfl
  have hstate := (checkNext_onlySends w ((s.transition .checking).formCheckList.arm .timeout)).state
  have hopen : ((s.transition .checking).formCheckList.arm .timeout).closed = false := hc
  unfold IceSession.beginChecks IceSession.sendNextCheck
  simp only [hopen,hbusy,Bool.not_true,Bool.and_false,Bool.false_and]
  split
  · rename_i h
    exact absurd h (by simp [IceSession.arm,IceSession.formCheckList,IceSession.transition,
      IceSession.emit])
  · rw [if_neg (by simp)]
    split <;> exact hstate

/-- The question drawn with number `k` finds a STUN server and gets a request to it. -/
def IceWorld.reaches (w : IceWorld) (k : Nat) : Bool := (w.resolves k).isSome && w.sends k

/-- None of the next `n` servers can be asked. -/
def IceSession.NoneReached (w : IceWorld) (s : IceSession) (n : Nat) : Prop :=
  ∀ i < n, (s.socketOpen && w.reaches (s.asked+i)) = false

instance (w : IceWorld) (s : IceSession) (n : Nat) : Decidable (s.NoneReached w n) :=
  inferInstanceAs (Decidable (∀ i < n,_))

theorem sendTo_asked (s : IceSession) (dest : StunAddress) (packet : Bytes) :
    (s.sendTo dest packet).asked = s.asked ∧ (s.sendTo dest packet).socketOpen = s.socketOpen := by
  unfold IceSession.sendTo
  split <;> exact ⟨rfl,rfl⟩

theorem requestServer_asked (w : IceWorld) (s : IceSession) :
    (s.requestServer w).1.asked = s.asked+1 ∧ (s.requestServer w).1.socketOpen = s.socketOpen := by
  unfold IceSession.requestServer
  dsimp only
  split
  · exact ⟨rfl,rfl⟩
  · split <;> exact sendTo_asked _ _ _

theorem requestServer_reached (w : IceWorld) (s : IceSession) :
    (s.requestServer w).2 = (s.socketOpen && w.reaches s.asked) := by
  unfold IceSession.requestServer IceWorld.reaches
  dsimp only
  cases hr : w.resolves s.asked with
  | none => simp
  | some ep =>
    cases ho : s.socketOpen && w.sends s.asked <;> simp_all

section Gathering
variable (w : IceWorld) {s : IceSession}

/-- A server that cannot be asked, and then the others. -/
theorem noneReached_cons {n : Nat} (h : ¬(s.requestServer w).2 = true)
    (hn : ({ (s.requestServer w).1 with stunTryIdx := (s.requestServer w).1.stunTryIdx+1 } :
      IceSession).NoneReached w n) : s.NoneReached w (n+1) := by
  intro i hi
  cases i with
  | zero =>
    rw [Nat.add_zero,← requestServer_reached]
    simpa using h
  | succ i =>
    have hi' := hn i (Nat.lt_of_succ_lt_succ hi)
    have hcount : s.asked+1+i = s.asked+(i+1) := by omega
    simpa only [(requestServer_asked w s).1,(requestServer_asked w s).2,hcount] using hi'

theorem Settled.gatheringComplete (h : Settled s)
    (hg : s.state = .gathering → s.closed = false ∧ s.Paired) : Settled (s.gatheringComplete w) := by
  unfold IceSession.gatheringComplete
  dsimp only
  split
  · exact h
  · rename_i hstate
    rw [not_not] at hstate
    obtain ⟨hc,hp⟩ := hg hstate
    have hnf : s.state ≠ .failed := by simp [hstate]
    split
    · have hwait : Settled (s.transition .waitingRemote) := h.transition hc (fun hs => absurd hs hnf)
      refine hwait.emit (by simp [IceSession.transition,IceSession.emit]) ?_ (by simp) (by simp)
      intro hclosed
      exact absurd (hclosed.symm.trans hc) (by simp)
    · rename_i hr
      have hchecking := beginChecks_checking w hc hp (by simpa using hr)
      refine (h.beginChecks w hc hnf).emit (by simp [hchecking]) ?_ (by simp) (by simp)
      intro hclosed
      exact absurd (hclosed.symm.trans ((beginChecks_closed w s).trans hc)) (by simp)

theorem Settled.tryServers {servers : List StunServer} (h : Settled s)
    (hg : s.state = .gathering → s.NoneReached w servers.length → s.closed = false ∧ s.Paired) :
    Settled (s.tryServers w servers) := by
  induction servers generalizing s with
  | nil => exact h.gatheringComplete w (fun hs => hg hs (fun i hi => absurd hi (Nat.not_lt_zero i)))
  | cons server rest ih =>
    have hasked := requestServer_onlySends w s
    rw [IceSession.tryServers]
    dsimp only
    split
    · exact h.onlySends hasked
    · rename_i hrefused
      have hnext : ∀ i, OnlySends s { (s.requestServer w).1 with stunTryIdx := i } :=
        fun i => hasked.trans { OnlySends.refl _ with }
      refine ih (h.onlySends (hnext _)) (fun hs hnone => ?_)
      have hall := noneReached_cons w hrefused hnone
      obtain ⟨hc,hp⟩ := hg ((hnext 0).state.symm.trans hs) hall
      exact ⟨hasked.closed.trans hc,(hnext _).paired hp⟩

/-- The failure of the server that is being asked ends the gathering. -/
def IceSession.GatheringEnds (w : IceWorld) (s : IceSession) : Prop :=
  s.state = .gathering ∧ s.NoneReached w (s.config.stunServers.length-(s.stunTryIdx+1))

instance (w : IceWorld) (s : IceSession) : Decidable (s.GatheringEnds w) :=
  inferInstanceAs (Decidable (_ ∧ _))

theorem Settled.clientFailed (h : Settled s)
    (hg : s.GatheringEnds w → s.closed = false ∧ s.Paired) : Settled (s.clientFailed w) := by
  have hdone : ∀ i, OnlySends s { s.clientDone with stunTryIdx := i } := fun i =>
    { OnlySends.refl s with }
  refine (h.onlySends (hdone _)).tryServers w (fun hs hnone => hg ⟨hs,?_⟩)
  rw [List.length_drop] at hnone
  exact hnone

theorem Settled.nominate (h : Settled s) (hc : s.closed = false) (hf : s.state ≠ .failed) (i : Nat) :
    Settled (s.nominate w i) := by
  unfold IceSession.nominate
  split
  · rename_i pair _ _
    have hready : Settled
        ((({ s with nominated := true, remoteEp := pair.remoteCand.endpoint } : IceSession).cancel
          .check).cancel .timeout) := h.congr rfl rfl rfl
    have hconn : Settled
        (((({ s with nominated := true, remoteEp := pair.remoteCand.endpoint } : IceSession).cancel
          .check).cancel .timeout).transition .connected) :=
      hready.transition hc (fun hs => absurd hs hf)
    have halive := startKeepalive_onlySends w
      (((({ s with nominated := true, remoteEp := pair.remoteCand.endpoint } : IceSession).cancel
        .check).cancel .timeout).transition .connected)
    refine (hconn.onlySends halive).emit ?_ ?_ (by simp) (by simp)
    · intro hs
      exact absurd (halive.state.symm.trans hs) (by simp [IceSession.transition,IceSession.emit])
    · intro hclosed
      exact absurd ((halive.closed.symm.trans hclosed).symm.trans hc) (by simp)
  · exact h

theorem Settled.nominateFrom (h : Settled s) (hc : s.closed = false) (hf : s.state ≠ .failed)
    (origin : StunAddress) (priority : UInt32) : Settled (s.nominateFrom w origin priority) := by
  unfold IceSession.nominateFrom
  split
  · rename_i i _
    have hmark := markSucceeded_onlySends s i
    exact (h.onlySends hmark).nominate w (hmark.closed.trans hc) (by rw [hmark.state]; exact hf) i
  · have hadd : Settled { s with checkList := s.checkList ++ [s.reflexivePair origin priority] } :=
      h.congr rfl rfl rfl
    exact hadd.nominate w hc hf _

/-- The answer of a STUN server adds a candidate. -/
def IceSession.addSrflx (s : IceSession) (addr : StunAddress) : IceSession :=
  { s with localCandidates := s.localCandidates ++ [srflxCandidate addr] }

theorem Settled.onSrflxResult (h : Settled s) {addr : StunAddress}
    (hg : s.state = .gathering → s.closed = false ∧ (s.addSrflx addr).Paired) :
    Settled ((s.cancel .retry).clientDone.onSrflxResult w (some addr)) := by
  have hadd : Settled ((s.cancel .retry).clientDone.addSrflx addr) := h.congr rfl rfl rfl
  exact hadd.gatheringComplete w hg

end Gathering

/-- What a datagram must not do to a session that is closed or has failed, and to one whose
gathering it ends. -/
def IceSession.Harmless (w : IceWorld) (s : IceSession) (data : Bytes) : Prop :=
  (∀ addr ∈ s.stunClient.feed data,
    s.state = .gathering → s.closed = false ∧ (s.addSrflx addr).Paired) ∧
  (s.stunClient.feed data = none →
    (s.closed = true ∨ s.state = .failed → ¬ s.Answered data ∧ ¬ s.Selected w data) ∧
    (s.closed = true → ¬ (isStunPacket data = false ∧ s.nominated = true ∧ s.state = .connected)))

instance (w : IceWorld) (s : IceSession) (data : Bytes) : Decidable (s.Harmless w data) :=
  inferInstanceAs (Decidable (_ ∧ _))

theorem Settled.onRecv (w : IceWorld) {s : IceSession} (h : Settled s) {n : Nat}
    (hh : s.Harmless w (s.recvBuf.take n)) : Settled (s.onRecv w n) := by
  unfold IceSession.onRecv
  dsimp only
  cases hf : s.stunClient.feed (s.recvBuf.take n) with
  | some addr => exact h.onSrflxResult w (hh.1 addr hf)
  | none =>
    obtain ⟨hdead,hdata⟩ := hh.2 hf
    have hfree : s.Answered (s.recvBuf.take n) ∨ s.Selected w (s.recvBuf.take n) →
        s.closed = false ∧ s.state ≠ .failed := by
      intro hcause
      have hnot : ¬ (s.closed = true ∨ s.state = .failed) := by
        intro hd
        rcases hcause with hcause | hcause
        · exact (hdead hd).1 hcause
        · exact (hdead hd).2 hcause
      rw [not_or,Bool.not_eq_true] at hnot
      exact hnot
    dsimp only
    split
    · unfold IceSession.handleStunPacket
      split
      · rcases handleStunResponse_cases w s (s.recvBuf.take n) with hs | ⟨hans,i,heq⟩
        · exact h.onlySends hs
        · have hmark := markSucceeded_onlySends s i
          obtain ⟨hc,hnf⟩ := hfree (.inl hans)
          rw [heq]
          exact (h.onlySends hmark).nominate w (hmark.closed.trans hc) (by rw [hmark.state]; exact hnf) i
      · split
        · rcases handleStunRequest_cases w s (s.recvBuf.take n) with hs | ⟨hsel,t,p,hsent,heq⟩
          · exact h.onlySends hs
          · obtain ⟨hc,hnf⟩ := hfree (.inr hsel)
            rw [heq]
            exact (h.onlySends hsent).nominateFrom w (hsent.closed.trans hc)
              (by rw [hsent.state]; exact hnf) _ _
        · exact h
    · rename_i hstun
      split
      · rename_i hconn
        refine h.emit (by simp [hconn.2]) ?_ (by simp) (by simp)
        intro hclosed
        exact absurd ⟨by simpa using hstun,hconn.1,hconn.2⟩ (hdata hclosed)
      · exact h

/-- What a handler must find when it runs. -/
def IceSession.Ready (w : IceWorld) (s : IceSession) : IceHandler → Prop
  | .timer .check => True
  | .timer .timeout => s.closed = true → ¬ (s.state = .checking ∧ s.nominated = false)
  | .timer .keepalive => s.closed = true → s.consentMissed < s.config.consentMaxFailures
  | .timer .retry =>
    s.stunClient.active = true → maxRetries ≤ s.stunClient.retries+1 → s.GatheringEnds w →
      s.closed = false ∧ s.Paired
  | .recv n => s.Harmless w (s.recvBuf.take n)

instance (w : IceWorld) (s : IceSession) : (h : IceHandler) → Decidable (s.Ready w h)
  | .timer .check => inferInstanceAs (Decidable True)
  | .timer .timeout => inferInstanceAs (Decidable (_ → _))
  | .timer .keepalive => inferInstanceAs (Decidable (_ → _))
  | .timer .retry => inferInstanceAs (Decidable (_ → _))
  | .recv _ => inferInstanceAs (Decidable (IceSession.Harmless _ _ _))

theorem Settled.fire (w : IceWorld) {s : IceSession} (h : Settled s) (handler : IceHandler)
    (hr : s.Ready w handler) : Settled (s.fire w handler) := by
  cases handler with
  | timer t =>
    cases t with
    | check => exact h.sendNextCheck w
    | timeout =>
      simp only [IceSession.fire,IceSession.timeoutExpired]
      split
      · rename_i hstale
        exact h.fail (by simpa [IceSession.Ready,hstale] using hr)
      · exact h
    | keepalive =>
      simp only [IceSession.fire,IceSession.keepaliveExpired]
      split
      · rename_i hmissed
        have hopen : s.closed = false := by
          by_contra hc
          have hlt := hr (by simpa using hc)
          omega
        exact (h.onlySends (cancel_onlySends s .keepalive)).fail hopen
      · exact h.onlySends (sendKeepalive_onlySends w s)
    | retry =>
      simp only [IceSession.fire,IceSession.retryExpired]
      split
      · exact h
      · rename_i hactive
        have hclient : ∀ c, Settled { s with stunClient := c } := fun c => h.congr rfl rfl rfl
        split
        · rename_i hlast
          refine (hclient _).clientFailed w ?_
          exact hr (by simpa using hactive) hlast
        · have hsend : ∀ c, Settled { s.ask with stunClient := c } := fun c => h.congr rfl rfl rfl
          exact ((hsend _).onlySends (sendTo_onlySends _ _ _)).onlySends (arm_onlySends _ _)
  | recv n => exact (h.onRecv w hr).onlySends (doRecv_onlySends _)

/-- What a step must find. -/
def Timely (w : IceWorld) (s : IceSession) : IceEvent → Prop
  | .gather =>
    s.state = .new → s.closed = false ∧
      ((s.gatherHostCandidates w).NoneReached w s.config.stunServers.length →
        (s.gatherHostCandidates w).Paired)
  | .setRemote _ _ => s.state = .waitingRemote → s.closed = false
  | .startChecks => s.state = .waitingRemote → s.remoteCandidates = [] ∨ s.closed = false
  | .close => s.closed = false → s.stunClient.active = true → ¬ s.GatheringEnds w
  | .run i => ∀ h ∈ s.due[i]?, s.Ready w h
  | _ => True

instance (w : IceWorld) (s : IceSession) : (e : IceEvent) → Decidable (Timely w s e)
  | .gather => inferInstanceAs (Decidable (_ → _))
  | .setRemote _ _ => inferInstanceAs (Decidable (_ → _))
  | .startChecks => inferInstanceAs (Decidable (_ → _))
  | .close => inferInstanceAs (Decidable (_ → _))
  | .run i => inferInstanceAs (Decidable (∀ h ∈ s.due[i]?,s.Ready w h))
  | .send _ => inferInstanceAs (Decidable True)
  | .elapse _ => inferInstanceAs (Decidable True)
  | .arrive _ _ => inferInstanceAs (Decidable True)
  | .recvFailed => inferInstanceAs (Decidable True)

theorem Settled.gather (w : IceWorld) {s : IceSession} (h : Settled s) (ht : Timely w s .gather) :
    Settled (s.gather w) := by
  unfold IceSession.gather
  dsimp only
  split
  · exact h
  · rename_i hnew
    rw [not_not] at hnew
    obtain ⟨hc,hpair⟩ := ht hnew
    have hstart : Settled (s.transition .gathering) := h.transition hc (by simp [hnew])
    split
    · exact hstart
    · have hhost : Settled ((s.transition .gathering).gatherHostCandidates w) :=
        hstart.congr rfl rfl rfl
      have hloop := startRecvLoop_onlySends ((s.transition .gathering).gatherHostCandidates w)
      have hasked : ((s.transition .gathering).gatherHostCandidates w).startRecvLoop.asked =
          (s.gatherHostCandidates w).asked ∧
          ((s.transition .gathering).gatherHostCandidates w).startRecvLoop.socketOpen =
          s.socketOpen := by
        unfold IceSession.startRecvLoop IceSession.doRecv
        split
        · exact ⟨rfl,rfl⟩
        · split <;> exact ⟨rfl,rfl⟩
      have hready : ∀ i, OnlySends ((s.transition .gathering).gatherHostCandidates w)
          { ((s.transition .gathering).gatherHostCandidates w).startRecvLoop with
            stunTryIdx := i } := fun i => hloop.trans { OnlySends.refl _ with }
      refine (hhost.onlySends (hready 0)).tryServers w (fun _ hnone => ?_)
      refine ⟨hloop.closed.trans hc,(hready 0).paired (hpair ?_)⟩
      intro i hi
      have hconfig : ((s.transition .gathering).gatherHostCandidates w).startRecvLoop.config =
          s.config := hloop.config
      have hi' := hnone i (by rw [hconfig]; exact hi)
      rw [hasked.1,hasked.2] at hi'
      exact hi'

theorem Settled.close (w : IceWorld) {s : IceSession} (h : Settled s) (ht : Timely w s .close) :
    Settled (s.close w) := by
  unfold IceSession.close
  dsimp only
  split
  · exact h
  · rename_i hopen
    rw [Bool.not_eq_true] at hopen
    have hflag : Settled (({ s with closed := true } : IceSession).emit .closing) := by
      refine Settled.emit ?_ (by simp [IceEffect.revives]) (by simp [IceEffect.acts]) (by simp)
        (fun _ => rfl)
      exact ⟨h.terminal,h.failed,fun _ => rfl⟩
    have hclient : Settled ((({ s with closed := true } : IceSession).emit .closing).cancelClient w) := by
      unfold IceSession.cancelClient
      split
      · rename_i hactive
        refine (hflag.onlySends (cancel_onlySends _ .retry)).clientFailed w ?_
        rintro ⟨hstate,hnone⟩
        exact absurd ⟨hstate,fun i hi => hnone i hi⟩ (ht hopen hactive)
      · exact hflag
    have hshut : ∀ t : IceSession, Settled t →
        Settled { ((t.cancel .check).cancel .timeout).cancel .keepalive with
          socketOpen := false, receiving := false } := fun t ht => ht.congr rfl rfl rfl
    exact hshut _ hclient

theorem Settled.act (w : IceWorld) {s : IceSession} (h : Settled s) (e : IceEvent)
    (ht : Timely w s e) : Settled (s.act w e) := by
  cases e with
  | gather => exact h.gather w ht
  | setRemote remote candidates =>
    simp only [IceSession.act,IceSession.setRemote]
    have hset : ∀ creds cands,
        Settled { s with remoteCreds := creds, remoteCandidates := cands } :=
      fun _ _ => h.congr rfl rfl rfl
    split
    · rename_i hwait
      refine (hset _ _).beginChecks w (ht hwait) ?_
      rw [hwait]
      decide
    · exact hset _ _
  | startChecks =>
    simp only [IceSession.act,IceSession.startChecks]
    split
    · rename_i hwait
      refine h.beginChecks w ((ht hwait.1).resolve_left hwait.2) ?_
      rw [hwait.1]
      decide
    · exact h
  | send data => exact h.onlySends (send_onlySends s data)
  | close => exact h.close w ht
  | elapse t => exact h.onlySends (elapse_onlySends w s t)
  | arrive origin data => exact h.onlySends (arrive_onlySends w s origin data)
  | recvFailed => exact h.onlySends (recvFailed_onlySends w s)
  | run i =>
    simp only [IceSession.act]
    cases hd : s.due[i]? with
    | none => exact h
    | some handler =>
      have htaken : Settled { s with due := s.due.eraseIdx i } := h.congr rfl rfl rfl
      refine htaken.fire w handler ?_
      have hr := ht handler hd
      cases handler with
      | timer t => cases t <;> exact hr
      | recv n => exact hr

/-- After `on_failed` nothing brings a session back to life, and after `close` nothing happens
at all. -/
theorem failed_and_closed_terminal (w : IceWorld) (controlling : Bool) (config : IceConfig)
    (ufrag pwd : Bytes) (tieBreaker : UInt64) (events : List IceEvent)
    (h : Along (IceSession.act w) (Timely w)
      (IceSession.create controlling config ufrag pwd tieBreaker) events) :
    Settled (run (IceSession.act w) (IceSession.create controlling config ufrag pwd tieBreaker)
      events) :=
  h.invariant (fun _ e hs ht => hs.act w e ht) ⟨trivial,by simp [IceSession.create],
    by simp [IceSession.create]⟩

/-- A host that reaches its one STUN server. -/
def wanWorld : IceWorld :=
  { lanWorld with resolves := fun _ => some ⟨.v4 ⟨[10,0,0,9],rfl⟩,19302⟩ }

def wanSession : IceSession := IceSession.create true ⟨[⟨"stun.example",19302⟩],3⟩ [] [] 0

def lanCandidate : IceCandidateWire :=
  { type := 0, family := 4, port := 5000, priority := 1, addr := ⟨10 :: 0 :: 0 :: 2 :: List.replicate 12 0,rfl⟩ }

theorem failed_and_closed_after_timeout :
    .onFailed ∈ (run (IceSession.act lanWorld) controlledSession
      [.gather,.setRemote ⟨Block.zero 16,Block.zero 24⟩ [lanCandidate],.elapse .timeout,.run 0,
       .close]).log ∧
    Settled (run (IceSession.act lanWorld) controlledSession
      [.gather,.setRemote ⟨Block.zero 16,Block.zero 24⟩ [lanCandidate],.elapse .timeout,.run 0,
       .close]) :=
  ⟨by decide +kernel,
    failed_and_closed_terminal lanWorld false ⟨[],3⟩ [] [] 0 _ (by decide +kernel)⟩

/-- `close` during gathering ends the gathering, `on_gathered` included; and a session that has
timed out is connected by the next request. -/
theorem closed_gathers_and_failed_connects :
    ¬ Settled (run (IceSession.act wanWorld) wanSession [.gather,.close]) ∧
    ¬ Settled (run (IceSession.act lanWorld) controlledSession
      [.gather,.setRemote ⟨Block.zero 16,Block.zero 24⟩ [lanCandidate],.elapse .timeout,.run 0,
       .arrive lanPeer bareCheck,.run 0]) := by
  constructor
  · intro h
    have hlog : (run (IceSession.act wanWorld) wanSession [.gather,.close]).log =
        .onGathered :: .transition .gathering .waitingRemote :: .closing ::
          (run (IceSession.act wanWorld) wanSession [.gather]).log := by decide +kernel
    have hgathered := h.terminal
    rw [hlog] at hgathered
    exact absurd (hgathered.1.2 (by simp)) (by decide)
  · intro h
    have hfailed : .onFailed ∈ (run (IceSession.act lanWorld) controlledSession
        [.gather,.setRemote ⟨Block.zero 16,Block.zero 24⟩ [lanCandidate],.elapse .timeout,.run 0,
         .arrive lanPeer bareCheck,.run 0]).log := by decide +kernel
    exact absurd (h.failed hfailed) (by decide +kernel)

end GoodNet.Ice
