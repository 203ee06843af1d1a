import GoodNet.IceMoves
set_option autoImplicit false

/-! What a session that is not yet connected is waiting for. The request to a STUN server has
its retry timer, the checks have the session timeout; the wait for the peer's candidates has
nothing. -/

namespace GoodNet.Ice
open Codec Interleaving

/-- The timer is on, or it has run out and its handler is due. -/
def IceSession.Awaits (s : IceSession) (t : IceTimer) : Prop := t ∈ s.armed ∨ .timer t ∈ s.due

instance (s : IceSession) (t : IceTimer) : Decidable (s.Awaits t) :=
  inferInstanceAs (Decidable (_ ∨ _))

/-- An event that must fire some time is pending for a session that has not come to an end. -/
def IceSession.Pending (s : IceSession) : Prop :=
  s.closed = false →
    (s.state = .gathering → s.stunClient.active = true ∧ s.Awaits .retry) ∧
      (s.state = .waitingRemote ∨ s.state = .checking → s.Awaits .timeout)

instance (s : IceSession) : Decidable s.Pending := inferInstanceAs (Decidable (_ → _))

structure Tended (s : IceSession) : Prop where
  chosen : s.nominated = true → s.state = .connected ∨ s.state = .failed
  untimed : s.state = .new ∨ s.state = .gathering ∨ s.state = .waitingRemote → ¬s.Awaits .timeout
  timed : s.closed = false → s.state = .checking → s.Awaits .timeout
  shut : s.socketOpen = false → s.closed = true

/-- While candidates are gathered, a STUN server is being asked. -/
structure Asking (s : IceSession) : Prop where
  active : s.stunClient.active = true
  retry : s.Awaits .retry
  server : s.stunTryIdx < s.config.stunServers.length
  retries : s.stunClient.retries < maxRetries

section
variable {b : Bool} {w : IceWorld} {s s' : IceSession}

theorem core_awaits (h : s'.core = s.core) {t : IceTimer} (ht : t ≠ .check) :
    s'.Awaits t ↔ s.Awaits t := by
  have hdue : .timer t ∈ s'.due ↔ .timer t ∈ s.due := core_due h (by simpa using ht)
  exact or_congr (core_armed h ht) hdue

theorem arm_awaits (s : IceSession) (t : IceTimer) : (s.arm t).Awaits t := .inl List.mem_cons_self

theorem arm_other (s : IceSession) {t u : IceTimer} (ht : t ≠ u) :
    (s.arm u).Awaits t ↔ s.Awaits t := by
  simp [IceSession.Awaits,IceSession.arm,ht]

theorem cancel_other (s : IceSession) {t u : IceTimer} (ht : t ≠ u) :
    (s.cancel u).Awaits t ↔ s.Awaits t := by
  simp [IceSession.Awaits,IceSession.cancel,ht]

theorem Tended.congr (h : Tended s) (hn : s'.nominated = s.nominated) (hs : s'.state = s.state)
    (hc : s'.closed = s.closed) (ho : s'.socketOpen = s.socketOpen)
    (ha : s'.Awaits .timeout ↔ s.Awaits .timeout) : Tended s' where
  chosen := by rw [hn,hs]; exact h.chosen
  untimed := by rw [hs,ha]; exact h.untimed
  timed := by rw [hc,hs,ha]; exact h.timed
  shut := by rw [ho,hc]; exact h.shut

theorem Tended.idle (h : Tended s) (hcore : s'.core = s.core) : Tended s' :=
  h.congr (core_field (fun s => s.nominated) (fun _ => rfl) hcore)
    (core_field (fun s => s.state) (fun _ => rfl) hcore)
    (core_field (fun s => s.closed) (fun _ => rfl) hcore)
    (core_field (fun s => s.socketOpen) (fun _ => rfl) hcore) (core_awaits hcore (by decide))

/-- A session that is at an end has nothing to wait for. -/
theorem Tended.ended (h : Tended s) (hs : s'.state = .connected ∨ s'.state = .failed)
    (hc : s'.closed = s.closed) (ho : s'.socketOpen = s.socketOpen) : Tended s' where
  chosen := fun _ => hs
  untimed := by rcases hs with hs | hs <;> simp [hs]
  timed := by rcases hs with hs | hs <;> simp [hs]
  shut := by rw [ho,hc]; exact h.shut

theorem Move.tended (h : Move b s s') (ht : Tended s) : Tended s' := by
  cases h with
  | idle h => exact ht.idle h
  | remote creds candidates => exact ht.congr rfl rfl rfl rfl Iff.rfl
  | begin h =>
    refine ⟨fun hn => ?_,fun hs => by simp [IceSession.arm] at hs,fun _ _ => arm_awaits _ _,ht.shut⟩
    have hover := ht.chosen hn
    rcases h with h | h <;> simp [h] at hover
  | expire h hn => exact ht.ended (.inr rfl) rfl rfl
  | start h =>
    refine ⟨fun hn => ?_,fun _ => ht.untimed (.inl h),fun _ hs => by simp at hs,ht.shut⟩
    have hover := ht.chosen hn
    simp [h] at hover
  | await h hr =>
    refine ⟨fun hn => ?_,fun _ => ht.untimed (.inr (.inl h)),fun _ hs => by simp at hs,ht.shut⟩
    have hover := ht.chosen hn
    simp [h] at hover
  | gathered => exact ht.congr rfl rfl rfl rfl Iff.rfl
  | candidate c => exact ht.congr rfl rfl rfl rfl Iff.rfl
  | client c i => exact ht.congr rfl rfl rfl rfl Iff.rfl
  | retry => exact ht.congr rfl rfl rfl rfl (arm_other s (by decide))
  | quit => exact ht.congr rfl rfl rfl rfl (cancel_other s (by decide))
  | flag => exact ⟨ht.chosen,ht.untimed,fun hc _ => (by cases hc),fun _ => rfl⟩
  | shut h =>
    refine ⟨ht.chosen,fun hs ha => ht.untimed hs ?_,fun hc _ => ?_,fun _ => h⟩
    · exact .inr (by simpa [IceSession.Awaits,IceSession.cancel] using ha)
    · have hclosed : s.closed = false := hc
      rw [h] at hclosed
      cases hclosed

theorem Moves.tended (h : Moves b s s') (ht : Tended s) : Tended s' := by
  induction h with
  | refl => exact ht
  | tail _ hm ih => exact hm.tended ih

theorem Asking.congr (h : Asking s) (hc : s'.stunClient = s.stunClient)
    (hi : s'.stunTryIdx = s.stunTryIdx) (hf : s'.config = s.config)
    (ha : s.Awaits .retry → s'.Awaits .retry) : Asking s' where
  active := by rw [hc]; exact h.active
  retry := ha h.retry
  server := by rw [hi,hf]; exact h.server
  retries := by rw [hc]; exact h.retries

theorem Asking.idle (h : Asking s) (hcore : s'.core = s.core) : Asking s' :=
  h.congr (core_field (fun s => s.stunClient) (fun _ => rfl) hcore)
    (core_field (fun s => s.stunTryIdx) (fun _ => rfl) hcore)
    (core_field (fun s => s.config) (fun _ => rfl) hcore) (core_awaits hcore (by decide)).2

def IceSession.Gathers (s : IceSession) : Prop :=
  s.closed = false → s.state = .gathering → Asking s

/-- Moves that leave the STUN client alone do not bring a session back to gathering. -/
theorem Move.gathers (h : Move false s s') (hg : s.Gathers) : s'.Gathers := by
  cases h with
  | idle h =>
    intro hc hs
    rw [core_field (fun s => s.closed) (fun _ => rfl) h] at hc
    rw [core_field (fun s => s.state) (fun _ => rfl) h] at hs
    exact (hg hc hs).idle h
  | remote creds candidates => exact fun hc hs => (hg hc hs).congr rfl rfl rfl id
  | begin h => exact fun _ hs => by cases hs
  | expire h hn => exact fun _ hs => by cases hs

theorem Moves.gathers (h : Moves false s s') (hg : s.Gathers) : s'.Gathers := by
  induction h with
  | refl => exact hg
  | tail _ hm ih => exact hm.gathers ih

theorem beginChecks_left (w : IceWorld) (s : IceSession) :
    (s.beginChecks w).state = .checking ∨ (s.beginChecks w).state = .failed := by
  have hnext :=
    (checkNext_onlySends w (((s.transition .checking).formCheckList).arm .timeout)).state
  unfold IceSession.beginChecks IceSession.sendNextCheck
  dsimp only
  split
  · exact .inl rfl
  · split
    · exact .inr rfl
    · split
      · exact .inl hnext
      · exact .inl hnext

/-- Once the STUN servers have had their say, gathering is over. -/
theorem gatheringComplete_left (w : IceWorld) (s : IceSession) :
    (s.gatheringComplete w).state ≠ .gathering := by
  unfold IceSession.gatheringComplete
  dsimp only
  split
  · rename_i hs
    exact hs
  · split
    · exact fun hs => by cases hs
    · intro hs
      have hbegun : (s.beginChecks w).state = .gathering := hs
      rcases beginChecks_left w s with h | h <;> simp [h] at hbegun

theorem onSrflxResult_left (w : IceWorld) (s : IceSession) (addr : Option StunAddress) :
    (s.onSrflxResult w addr).state ≠ .gathering := by
  cases addr with
  | none => exact gatheringComplete_left w s
  | some a => exact gatheringComplete_left w _

theorem sendTo_client (s : IceSession) (dest : StunAddress) (packet : Bytes) :
    (s.sendTo dest packet).stunClient = s.stunClient ∧
      (s.sendTo dest packet).stunTryIdx = s.stunTryIdx := by
  unfold IceSession.sendTo
  split <;> exact ⟨rfl,rfl⟩

theorem requestServer_asking (w : IceWorld) (hi : s.stunTryIdx < s.config.stunServers.length)
    (h : (s.requestServer w).2 = true) :
    Asking (s.requestServer w).1 ∧ (s.requestServer w).1.stunClient.retries = 0 := by
  have hconfig := (requestServer_onlySends w s).config
  revert h hconfig
  unfold IceSession.requestServer
  dsimp only
  split
  · exact fun h => by cases h
  · rename_i ep _
    split
    · intro _ hconfig
      obtain ⟨hclient,hidx⟩ := sendTo_client ({ s.ask with stunClient :=
        { s.stunClient with active := true, retries := 0, stunEp := ep,
                            pendingTxn := w.random s.asked } } : IceSession) ep
        (buildBindingRequest (w.random s.asked))
      have hzero := congrArg StunClient.retries hclient
      refine ⟨⟨congrArg StunClient.active hclient,arm_awaits _ _,?_,?_⟩,hzero⟩
      · rw [hconfig]
        exact hidx.trans_lt hi
      · exact hzero.trans_lt (show 0 < maxRetries by decide)
    · exact fun h => by cases h

theorem requestServer_idx (w : IceWorld) (s : IceSession) :
    (s.requestServer w).1.stunTryIdx = s.stunTryIdx := by
  unfold IceSession.requestServer
  dsimp only
  split
  · rfl
  · split <;> exact (sendTo_client _ _ _).2

/-- A server that is asked is one of those that are left, and asked for the first time. -/
theorem tryServers_asking (w : IceWorld) {servers : List StunServer}
    (hi : s.stunTryIdx+servers.length ≤ s.config.stunServers.length)
    (h : (s.tryServers w servers).state = .gathering) :
    Asking (s.tryServers w servers) ∧ s.stunTryIdx ≤ (s.tryServers w servers).stunTryIdx ∧
      (s.tryServers w servers).stunClient.retries = 0 := by
  induction servers generalizing s with
  | nil => exact absurd h (gatheringComplete_left w s)
  | cons server rest ih =>
    rw [List.length_cons] at hi
    have hidx := requestServer_idx w s
    have hconfig := (requestServer_onlySends w s).config
    rw [IceSession.tryServers] at h ⊢
    dsimp only at h ⊢
    split at h
    · rename_i hreached
      obtain ⟨hask,hzero⟩ := requestServer_asking w (by omega) hreached
      rw [if_pos hreached]
      exact ⟨hask,hidx.ge,hzero⟩
    · rename_i hrefused
      rw [if_neg hrefused]
      obtain ⟨hask,hle,hzero⟩ := ih (by
        show (s.requestServer w).1.stunTryIdx+1+rest.length ≤
          (s.requestServer w).1.config.stunServers.length
        rw [hidx,hconfig]
        omega) h
      exact ⟨hask,hidx.ge.trans ((Nat.le_succ _).trans hle),hzero⟩

theorem tryNextStunServer_asking (w : IceWorld)
    (hi : s.stunTryIdx ≤ s.config.stunServers.length)
    (h : (s.tryNextStunServer w).state = .gathering) :
    Asking (s.tryNextStunServer w) ∧ s.stunTryIdx ≤ (s.tryNextStunServer w).stunTryIdx ∧
      (s.tryNextStunServer w).stunClient.retries = 0 := by
  refine tryServers_asking w ?_ h
  rw [List.length_drop]
  omega

theorem clientFailed_asking (w : IceWorld) (hi : s.stunTryIdx < s.config.stunServers.length)
    (h : (s.clientFailed w).state = .gathering) :
    Asking (s.clientFailed w) ∧ s.stunTryIdx+1 ≤ (s.clientFailed w).stunTryIdx ∧
      (s.clientFailed w).stunClient.retries = 0 :=
  tryNextStunServer_asking w (s := { s.clientDone with stunTryIdx := s.stunTryIdx+1 }) hi h

/-- How many more times the retry timer can run out. -/
def IceSession.patience (s : IceSession) : Nat :=
  (s.config.stunServers.length-s.stunTryIdx)*maxRetries-s.stunClient.retries

/-- The retry timer has run out: the same server is asked again, or the next one. -/
theorem retryExpired_asking (w : IceWorld) (ha : s.stunClient.active = true)
    (hi : s.stunTryIdx < s.config.stunServers.length) (hr : s.stunClient.retries < maxRetries)
    (h : (s.retryExpired w).state = .gathering) :
    Asking (s.retryExpired w) ∧ (s.retryExpired w).patience < s.patience := by
  have hconfig := (retryExpired_moves w s).config
  simp only [IceSession.patience,hconfig]
  rcases retryExpired_cases w s with ⟨hno,-⟩ | ⟨-,-,c,heq⟩ | ⟨-,hagain,c,packet,hc,hretries,heq⟩
  · rw [ha] at hno
    cases hno
  · rw [heq] at h ⊢
    obtain ⟨hask,hnext,hfresh⟩ := clientFailed_asking w (s := { s with stunClient := c }) hi h
    refine ⟨hask,?_⟩
    simp only [maxRetries] at hr hnext hfresh ⊢
    omega
  · obtain ⟨hclient,hidx⟩ := sendTo_client ({ s.ask with stunClient := c } : IceSession)
      s.stunClient.stunEp packet
    have hcount : (s.retryExpired w).stunClient.retries = s.stunClient.retries+1 := by
      rw [heq]
      exact (congrArg StunClient.retries hclient).trans hretries
    have hsame : (s.retryExpired w).stunTryIdx = s.stunTryIdx := by
      rw [heq]
      exact hidx
    refine ⟨⟨?_,?_,?_,?_⟩,?_⟩
    · rw [heq]
      exact (congrArg StunClient.active hclient).trans hc
    · rw [heq]
      exact arm_awaits _ _
    · rw [hsame,hconfig]
      exact hi
    · rw [hcount]
      exact hagain
    · rw [hsame,hcount]
      simp only [maxRetries] at hr hagain ⊢
      omega

theorem mem_eraseIdx_other {α : Type} {l : List α} {i : Nat} {x y : α} (hi : l[i]? = some x)
    (hy : y ≠ x) : y ∈ l.eraseIdx i ↔ y ∈ l := by
  rw [List.mem_eraseIdx_iff_getElem?,List.mem_iff_getElem?]
  constructor
  · rintro ⟨j,-,hj⟩
    exact ⟨j,hj⟩
  · rintro ⟨j,hj⟩
    refine ⟨j,fun hij => hy ?_,hj⟩
    rw [hij,hi] at hj
    exact (Option.some.inj hj).symm

/-- A handler is taken out of the queue. -/
def IceSession.taken (s : IceSession) (i : Nat) : IceSession := { s with due := s.due.eraseIdx i }

theorem act_run (w : IceWorld) {i : Nat} {x : IceHandler} (hd : s.due[i]? = some x) :
    s.act w (.run i) = (s.taken i).fire w x := by
  simp only [IceSession.act,hd]
  rfl

theorem taken_awaits {i : Nat} {x : IceHandler} (hd : s.due[i]? = some x) {t : IceTimer}
    (hx : x ≠ .timer t) : (s.taken i).Awaits t ↔ s.Awaits t :=
  or_congr Iff.rfl (mem_eraseIdx_other hd (fun h => hx h.symm))

theorem Tended.taken (h : Tended s) {i : Nat} {x : IceHandler} (hd : s.due[i]? = some x)
    (hx : x ≠ .timer .timeout) : Tended (s.taken i) :=
  h.congr rfl rfl rfl rfl (taken_awaits hd hx)

theorem Tended.sendKeepalive (w : IceWorld) (h : Tended s) : Tended (s.sendKeepalive w) := by
  rcases sendKeepalive_cases w s with ⟨heq,-⟩ | ⟨-,-,-,hcore⟩
  · rw [heq]
    exact h
  · have hbeaten : Tended (s.beaten w) := h.congr rfl rfl rfl rfl (arm_other _ (by decide))
    exact hbeaten.idle hcore

theorem Tended.nominate (w : IceWorld) (h : Tended s) (i : Nat) : Tended (s.nominate w i) := by
  rcases nominate_cases w s i with heq | ⟨-,ep,heq⟩
  · rw [heq]
    exact h
  · have hchosen : Tended { s.chosen ep with consentMissed := 0 } := h.ended (.inl rfl) rfl rfl
    rw [heq]
    exact (hchosen.sendKeepalive w).congr rfl rfl rfl rfl Iff.rfl

theorem Tended.doRecv (h : Tended s) : Tended s.doRecv := by
  unfold IceSession.doRecv
  split
  · exact h
  · exact h.congr rfl rfl rfl rfl Iff.rfl

theorem Tended.onRecv (w : IceWorld) (h : Tended s) (n : Nat) : Tended (s.onRecv w n) := by
  rcases onRecv_moves w s n with ⟨-,hm⟩ | ⟨-,hcore | ⟨-,-,-,-,heq⟩ | ⟨-,-,-,heq⟩ | ⟨-,t,i,ht,heq⟩⟩
  · exact hm.tended h
  · exact h.idle hcore
  · rw [heq]
    exact h.congr rfl rfl rfl rfl Iff.rfl
  · rw [heq]
    exact h.congr rfl rfl rfl rfl Iff.rfl
  · rw [heq]
    exact (h.idle ht).nominate w i

/-- The session timeout has run out: a session still at its checks fails. -/
theorem Tended.timeoutExpired (h : Tended s) (i : Nat) : Tended (s.taken i).timeoutExpired := by
  unfold IceSession.timeoutExpired
  split
  · exact h.ended (.inr rfl) rfl rfl
  · rename_i hover
    refine ⟨h.chosen,fun hs ha => h.untimed hs ?_,fun _ hs => ?_,h.shut⟩
    · exact ha.imp id List.mem_of_mem_eraseIdx
    · have hn : s.nominated = true := by
        by_contra hn
        exact hover ⟨hs,Bool.eq_false_iff.2 hn⟩
      have hstate : s.state = .checking := hs
      rcases h.chosen hn with hc | hc <;> simp [hc] at hstate

theorem Tended.keepaliveExpired (w : IceWorld) (h : Tended s) : Tended (s.keepaliveExpired w) := by
  unfold IceSession.keepaliveExpired
  split
  · exact h.ended (.inr rfl) rfl rfl
  · exact h.sendKeepalive w

theorem elapse_awaits (t u : IceTimer) (ht : t ∈ s.armed) :
    ({ s.cancel t with due := s.due ++ [.timer t] } : IceSession).Awaits u ↔ s.Awaits u := by
  by_cases hu : u = t
  · subst hu
    simp [IceSession.Awaits,ht]
  · simp [IceSession.Awaits,IceSession.cancel,hu]

theorem Tended.gather (w : IceWorld) (h : Tended s) : Tended (s.gather w) := by
  rcases gather_cases w s with heq | ⟨hnew,-,heq⟩ | ⟨hnew,-,heq⟩
  · rw [heq]
    exact h
  · rw [heq]
    exact ((Move.start hnew).tended h).idle (transition_core s .gathering)
  · have hloop : Tended s.startRecvLoop := by
      rw [startRecvLoop_eq]
      split
      · exact h
      · exact h.congr rfl rfl rfl rfl Iff.rfl
    rw [heq]
    exact (tryServers_moves w _ _).tended ((hosted_moves w hnew).tended hloop)

theorem Tended.act (w : IceWorld) (h : Tended s) (e : IceEvent) : Tended (s.act w e) := by
  cases e with
  | gather => exact h.gather w
  | setRemote remote candidates => exact (setRemote_moves w s remote candidates).tended h
  | startChecks => exact (startChecks_moves w s).tended h
  | send data => exact h.idle (send_core s data)
  | close => exact (close_moves w s).tended h
  | elapse t =>
    simp only [IceSession.act]
    split
    · rename_i ht
      exact h.congr rfl rfl rfl rfl (elapse_awaits t .timeout ht)
    · exact h
  | arrive origin data =>
    simp only [IceSession.act]
    split
    · exact h.congr rfl rfl rfl rfl (by simp [IceSession.Awaits,IceSession.receive])
    · exact h
  | recvFailed =>
    simp only [IceSession.act]
    split
    · exact h.congr rfl rfl rfl rfl Iff.rfl
    · exact h
  | run i =>
    simp only [IceSession.act]
    cases hd : s.due[i]? with
    | none => exact h
    | some x =>
      cases x with
      | timer t =>
        cases t with
        | check => exact (sendNextCheck_moves (b := false) w _).tended (h.taken hd (by decide))
        | timeout => exact h.timeoutExpired i
        | keepalive => exact (h.taken hd (by decide)).keepaliveExpired w
        | retry => exact (retryExpired_moves w _).tended (h.taken hd (by decide))
      | recv n => exact ((h.taken hd (by simp)).onRecv w n).doRecv

theorem IceSession.Gathers.congr (h : s.Gathers) (hc : s'.closed = s.closed)
    (hs : s'.state = s.state) (hk : s'.stunClient = s.stunClient)
    (hi : s'.stunTryIdx = s.stunTryIdx) (hf : s'.config = s.config)
    (ha : s.Awaits .retry → s'.Awaits .retry) : s'.Gathers := by
  intro hclosed hstate
  rw [hc] at hclosed
  rw [hs] at hstate
  exact (h hclosed hstate).congr hk hi hf ha

theorem tryServers_gathering (w : IceWorld) {servers : List StunServer}
    (h : (s.tryServers w servers).state = .gathering) : s.state = .gathering := by
  induction servers generalizing s with
  | nil => exact absurd h (gatheringComplete_left w s)
  | cons server rest ih =>
    have hasked := (requestServer_onlySends w s).state
    rw [IceSession.tryServers] at h
    dsimp only at h
    split at h
    · exact hasked.symm.trans h
    · have hnext := ih (s := { (s.requestServer w).1 with
        stunTryIdx := (s.requestServer w).1.stunTryIdx+1 }) h
      exact hasked.symm.trans hnext

theorem retryExpired_gathering (w : IceWorld) (h : (s.retryExpired w).state = .gathering) :
    s.state = .gathering := by
  rcases retryExpired_cases w s with ⟨-,heq⟩ | ⟨-,-,c,heq⟩ | ⟨-,-,c,packet,-,-,heq⟩
  · rw [heq] at h
    exact h
  · rw [heq] at h
    exact tryServers_gathering w (s := { ({ s with stunClient := c } : IceSession).clientDone with
      stunTryIdx := s.stunTryIdx+1 }) h
  · rw [heq] at h
    have hsent := (sendTo_onlySends ({ s.ask with stunClient := c } : IceSession)
      s.stunClient.stunEp packet).state
    exact hsent.symm.trans h

theorem onRecv_fed (w : IceWorld) {n : Nat} (h : s.stunClient.feed (s.recvBuf.take n) ≠ none) :
    (s.onRecv w n).state ≠ .gathering := by
  obtain ⟨addr,ha⟩ := Option.ne_none_iff_exists'.1 h
  unfold IceSession.onRecv
  simp only [ha]
  exact onSrflxResult_left w _ _

theorem IceSession.Gathers.taken (h : s.Gathers) {i : Nat} {x : IceHandler}
    (hd : s.due[i]? = some x) (hx : x ≠ .timer .retry) : (s.taken i).Gathers :=
  h.congr rfl rfl rfl rfl rfl (taken_awaits hd hx).2

theorem sendKeepalive_gathers (w : IceWorld) (h : s.Gathers) : (s.sendKeepalive w).Gathers := by
  rcases sendKeepalive_cases w s with ⟨heq,-⟩ | ⟨-,-,hs,-⟩
  · rw [heq]
    exact h
  · intro _ hstate
    rw [(sendKeepalive_onlySends w s).state,hs] at hstate
    cases hstate

theorem nominate_gathers (w : IceWorld) (h : s.Gathers) (i : Nat) : (s.nominate w i).Gathers := by
  rcases nominate_cases w s i with heq | ⟨-,ep,heq⟩
  · rw [heq]
    exact h
  · intro _ hstate
    rw [heq] at hstate
    have hconn : (s.chosen ep).state = .gathering :=
      (startKeepalive_onlySends w (s.chosen ep)).state.symm.trans hstate
    cases hconn

theorem onRecv_gathers (w : IceWorld) (h : s.Gathers) (n : Nat) : (s.onRecv w n).Gathers := by
  rcases onRecv_moves w s n with ⟨hf,-⟩ | ⟨-,hcore | ⟨-,-,-,-,heq⟩ | ⟨-,-,-,heq⟩ | ⟨-,t,i,ht,heq⟩⟩
  · exact fun _ hstate => absurd hstate (onRecv_fed w hf)
  · exact (Move.idle hcore).gathers h
  · rw [heq]
    exact h.congr rfl rfl rfl rfl rfl id
  · rw [heq]
    exact h.congr rfl rfl rfl rfl rfl id
  · rw [heq]
    exact nominate_gathers w ((Move.idle ht).gathers h) i

theorem doRecv_gathers (h : s.Gathers) : s.doRecv.Gathers := by
  unfold IceSession.doRecv
  split
  · exact h
  · exact h.congr rfl rfl rfl rfl rfl id

theorem gather_gathers (w : IceWorld) (ht : Tended s) (h : s.Gathers) : (s.gather w).Gathers := by
  rcases gather_cases w s with heq | ⟨-,ho,heq⟩ | ⟨-,-,heq⟩
  · rw [heq]
    exact h
  · intro hc _
    rw [heq] at hc
    have hclosed : s.closed = false := hc
    rw [ht.shut ho] at hclosed
    cases hclosed
  · intro _ hstate
    rw [heq] at hstate ⊢
    exact (tryNextStunServer_asking w (s := s.hosted w) (Nat.zero_le _) hstate).1

theorem retryExpired_gathers (w : IceWorld) (h : s.Gathers) (i : Nat) :
    ((s.taken i).retryExpired w).Gathers := by
  intro hc hstate
  have hopen : s.closed = false := by
    by_contra hclosed
    have hlate := (retryExpired_moves w (s.taken i)).closed (Bool.not_eq_false _ ▸ hclosed)
    rw [hc] at hlate
    cases hlate
  have hask := h hopen (retryExpired_gathering w (s := s.taken i) hstate)
  exact (retryExpired_asking w (s := s.taken i) hask.active hask.server hask.retries hstate).1

theorem act_gathers (w : IceWorld) (ht : Tended s) (h : s.Gathers) (e : IceEvent) :
    (s.act w e).Gathers := by
  cases e with
  | gather => exact gather_gathers w ht h
  | setRemote remote candidates => exact (setRemote_moves w s remote candidates).gathers h
  | startChecks => exact (startChecks_moves w s).gathers h
  | send data => exact (Move.idle (send_core s data)).gathers h
  | close =>
    intro hc _
    rw [IceSession.act,close_closed] at hc
    cases hc
  | elapse t =>
    simp only [IceSession.act]
    split
    · rename_i hon
      exact h.congr rfl rfl rfl rfl rfl (elapse_awaits t .retry hon).2
    · exact h
  | arrive origin data =>
    simp only [IceSession.act]
    split
    · exact h.congr rfl rfl rfl rfl rfl (by simp [IceSession.Awaits,IceSession.receive])
    · exact h
  | recvFailed =>
    simp only [IceSession.act]
    split
    · exact h.congr rfl rfl rfl rfl rfl id
    · exact h
  | run i =>
    simp only [IceSession.act]
    cases hd : s.due[i]? with
    | none => exact h
    | some x =>
      cases x with
      | timer t =>
        cases t with
        | check => exact (sendNextCheck_moves w _).gathers (h.taken hd (by decide))
        | timeout =>
          show (s.taken i).timeoutExpired.Gathers
          unfold IceSession.timeoutExpired
          split
          · exact fun _ hs => by cases hs
          · exact h.taken hd (by decide)
        | keepalive =>
          show ((s.taken i).keepaliveExpired w).Gathers
          unfold IceSession.keepaliveExpired
          split
          · exact fun _ hs => by cases hs
          · exact sendKeepalive_gathers w (h.taken hd (by decide))
        | retry => exact retryExpired_gathers w h i
      | recv n => exact doRecv_gathers (onRecv_gathers w (h.taken hd (by simp)) n)

/-- The step ends the gathering, the session being open. -/
def IceSession.GatheringOver (w : IceWorld) (s : IceSession) : IceEvent → Prop
  | .gather => s.state = .new ∧ s.socketOpen = true ∧
      (s.gatherHostCandidates w).NoneReached w s.config.stunServers.length
  | .run i =>
    match s.due[i]? with
    | some (.timer .retry) =>
      s.stunClient.active = true ∧ maxRetries ≤ s.stunClient.retries+1 ∧ s.GatheringEnds w
    | some (.recv n) => s.state = .gathering ∧ s.stunClient.feed (s.recvBuf.take n) ≠ none
    | _ => False
  | _ => False

/-- No gathering ends before the peer has sent its candidates. -/
def Informed (w : IceWorld) (s : IceSession) (e : IceEvent) : Prop :=
  s.GatheringOver w e → s.remoteCandidates ≠ []

theorem gatheringComplete_waits (w : IceWorld)
    (h : (s.gatheringComplete w).state = .waitingRemote) :
    s.state = .waitingRemote ∨ s.state = .gathering ∧ s.remoteCandidates = [] := by
  unfold IceSession.gatheringComplete at h
  dsimp only at h
  split at h
  · exact .inl h
  · rename_i hs
    split at h
    · rename_i hr
      exact .inr ⟨not_not.1 hs,List.isEmpty_iff.1 hr⟩
    · have hbegun : (s.beginChecks w).state = .waitingRemote := h
      rcases beginChecks_left w s with hc | hc <;> simp [hc] at hbegun

theorem onSrflxResult_waits (w : IceWorld) {addr : Option StunAddress}
    (h : (s.onSrflxResult w addr).state = .waitingRemote) :
    s.state = .waitingRemote ∨ s.state = .gathering ∧ s.remoteCandidates = [] := by
  cases addr with
  | none => exact gatheringComplete_waits w h
  | some a => exact gatheringComplete_waits w (s := s.addSrflx a) h

theorem tryServers_waits (w : IceWorld) {servers : List StunServer}
    (h : (s.tryServers w servers).state = .waitingRemote) : s.state = .waitingRemote ∨
      s.state = .gathering ∧ s.NoneReached w servers.length ∧ s.remoteCandidates = [] := by
  induction servers generalizing s with
  | nil =>
    rcases gatheringComplete_waits w h with hw | ⟨hg,hr⟩
    · exact .inl hw
    · exact .inr ⟨hg,fun i hi => absurd hi (Nat.not_lt_zero i),hr⟩
  | cons server rest ih =>
    have hasked := requestServer_onlySends w s
    rw [IceSession.tryServers] at h
    dsimp only at h
    split at h
    · exact .inl (hasked.state.symm.trans h)
    · rename_i hrefused
      rcases ih (s := { (s.requestServer w).1 with
        stunTryIdx := (s.requestServer w).1.stunTryIdx+1 }) h with hw | ⟨hg,hnone,hr⟩
      · exact .inl (hasked.state.symm.trans hw)
      · exact .inr ⟨hasked.state.symm.trans hg,noneReached_cons w hrefused hnone,
          hasked.remoteCandidates.symm.trans hr⟩

theorem clientFailed_waits (w : IceWorld) (h : (s.clientFailed w).state = .waitingRemote) :
    s.state = .waitingRemote ∨ s.GatheringEnds w ∧ s.remoteCandidates = [] := by
  rcases tryServers_waits w (s := { s.clientDone with stunTryIdx := s.stunTryIdx+1 }) h with
    hw | ⟨hg,hnone,hr⟩
  · exact .inl hw
  · refine .inr ⟨⟨hg,?_⟩,hr⟩
    rw [List.length_drop] at hnone
    exact hnone

theorem retryExpired_waits (w : IceWorld) (h : (s.retryExpired w).state = .waitingRemote) :
    s.state = .waitingRemote ∨ (s.stunClient.active = true ∧ maxRetries ≤ s.stunClient.retries+1 ∧
      s.GatheringEnds w) ∧ s.remoteCandidates = [] := by
  rcases retryExpired_cases w s with ⟨-,heq⟩ | ⟨ha,hlast,c,heq⟩ | ⟨-,-,c,packet,-,-,heq⟩
  · rw [heq] at h
    exact .inl h
  · rw [heq] at h
    rcases clientFailed_waits w (s := { s with stunClient := c }) h with hw | ⟨hends,hr⟩
    · exact .inl hw
    · exact .inr ⟨⟨ha,hlast,hends⟩,hr⟩
  · rw [heq] at h
    have hsent := (sendTo_onlySends ({ s.ask with stunClient := c } : IceSession)
      s.stunClient.stunEp packet).state
    exact .inl (hsent.symm.trans h)

theorem onRecv_waits (w : IceWorld) {n : Nat} (h : (s.onRecv w n).state = .waitingRemote) :
    s.state = .waitingRemote ∨ (s.state = .gathering ∧
      s.stunClient.feed (s.recvBuf.take n) ≠ none) ∧ s.remoteCandidates = [] := by
  rcases onRecv_moves w s n with ⟨hf,-⟩ | ⟨-,hcore | ⟨-,-,-,-,heq⟩ | ⟨-,-,-,heq⟩ | ⟨-,t,i,ht,heq⟩⟩
  · obtain ⟨addr,ha⟩ := Option.ne_none_iff_exists'.1 hf
    unfold IceSession.onRecv at h
    simp only [ha] at h
    rcases onSrflxResult_waits w h with hw | ⟨hg,hr⟩
    · exact .inl hw
    · exact .inr ⟨⟨hg,hf⟩,hr⟩
  · exact .inl ((core_field (fun s => s.state) (fun _ => rfl) hcore).symm.trans h)
  · rw [heq] at h
    exact .inl h
  · rw [heq] at h
    exact .inl h
  · have hstate : t.state = s.state := core_field (fun s => s.state) (fun _ => rfl) ht
    rw [heq] at h
    rcases nominate_cases w t i with heq | ⟨-,ep,heq⟩
    · rw [heq] at h
      exact .inl (hstate.symm.trans h)
    · rw [heq] at h
      have hconn : (t.chosen ep).state = .waitingRemote :=
        (startKeepalive_onlySends w (t.chosen ep)).state.symm.trans h
      cases hconn

theorem act_closed (w : IceWorld) (hc : s.closed = true) (e : IceEvent) :
    (s.act w e).closed = true := by
  cases e with
  | gather =>
    show (s.gather w).closed = true
    rcases gather_cases w s with heq | ⟨-,-,heq⟩ | ⟨hnew,-,heq⟩
    · rw [heq]
      exact hc
    · rw [heq]
      exact hc
    · have hloop := (hosted_moves w hnew).closed ((startRecvLoop_onlySends s).closed.trans hc)
      rw [heq]
      exact (tryServers_moves w _ _).closed hloop
  | setRemote remote candidates => exact (setRemote_moves w s remote candidates).closed hc
  | startChecks => exact (startChecks_moves w s).closed hc
  | send data => exact (send_onlySends s data).closed.trans hc
  | close => exact close_closed w s
  | elapse t => exact (elapse_onlySends w s t).closed.trans hc
  | arrive origin data => exact (arrive_onlySends w s origin data).closed.trans hc
  | recvFailed => exact (recvFailed_onlySends w s).closed.trans hc
  | run i =>
    simp only [IceSession.act]
    cases hd : s.due[i]? with
    | none => exact hc
    | some x =>
      cases x with
      | timer t =>
        cases t with
        | check => exact (sendNextCheck_moves (b := false) w (s.taken i)).closed hc
        | timeout =>
          show (s.taken i).timeoutExpired.closed = true
          unfold IceSession.timeoutExpired
          split <;> exact hc
        | keepalive =>
          show ((s.taken i).keepaliveExpired w).closed = true
          unfold IceSession.keepaliveExpired
          split
          · exact hc
          · exact (sendKeepalive_onlySends w (s.taken i)).closed.trans hc
        | retry => exact (retryExpired_moves w (s.taken i)).closed hc
      | recv n =>
        refine (doRecv_onlySends ((s.taken i).onRecv w n)).closed.trans ?_
        rcases onRecv_moves w (s.taken i) n with
          ⟨-,hm⟩ | ⟨-,hcore | ⟨-,-,-,-,heq⟩ | ⟨-,-,-,heq⟩ | ⟨-,t,j,ht,heq⟩⟩
        · exact hm.closed hc
        · exact (core_field (fun s => s.closed) (fun _ => rfl) hcore).trans hc
        · rw [heq]
          exact hc
        · rw [heq]
          exact hc
        · have htc : t.closed = true := (core_field (fun s => s.closed) (fun _ => rfl) ht).trans hc
          rw [heq]
          rcases nominate_cases w t j with heq | ⟨-,ep,heq⟩
          · rw [heq]
            exact htc
          · rw [heq]
            exact (startKeepalive_onlySends w (t.chosen ep)).closed.trans htc

/-- A session that begins to wait for its peer has ended its gathering without candidates. -/
theorem act_waits (w : IceWorld) {e : IceEvent} (hc : (s.act w e).closed = false)
    (hw : (s.act w e).state = .waitingRemote) :
    s.state = .waitingRemote ∨ s.GatheringOver w e ∧ s.remoteCandidates = [] := by
  cases e with
  | gather =>
    have hgather : (s.gather w).state = .waitingRemote := hw
    rcases gather_cases w s with heq | ⟨-,-,heq⟩ | ⟨hnew,hopen,heq⟩
    · rw [heq] at hgather
      exact .inl hgather
    · rw [heq] at hgather
      cases hgather
    · rw [heq] at hgather
      have hhost := startRecvLoop_onlySends ((s.transition .gathering).gatherHostCandidates w)
      rcases tryServers_waits w hgather with h | ⟨-,hnone,hr⟩
      · have hstate : SessionState.gathering = .waitingRemote := hhost.state.symm.trans h
        cases hstate
      · obtain ⟨hasked,hsock⟩ := hosted_asked w s
        refine .inr ⟨⟨hnew,hopen,fun i hi => ?_⟩,hhost.remoteCandidates.symm.trans hr⟩
        have hconfig : (s.hosted w).config = s.config := hhost.config
        have hi' := hnone i (by rw [hconfig]; exact hi)
        rw [hasked,hsock] at hi'
        exact hi'
  | setRemote remote candidates => exact .inl ((setRemote_moves w s remote candidates).waits hw)
  | startChecks => exact .inl ((startChecks_moves w s).waits hw)
  | send data => exact .inl ((send_onlySends s data).state.symm.trans hw)
  | close =>
    rw [IceSession.act,close_closed] at hc
    cases hc
  | elapse t => exact .inl ((elapse_onlySends w s t).state.symm.trans hw)
  | arrive origin data => exact .inl ((arrive_onlySends w s origin data).state.symm.trans hw)
  | recvFailed => exact .inl ((recvFailed_onlySends w s).state.symm.trans hw)
  | run i =>
    simp only [IceSession.act] at hw
    simp only [IceSession.GatheringOver]
    cases hd : s.due[i]? with
    | none =>
      rw [hd] at hw
      exact .inl hw
    | some x =>
      rw [hd] at hw
      cases x with
      | timer t =>
        cases t with
        | check => exact .inl ((sendNextCheck_moves w (s.taken i)).waits hw)
        | timeout =>
          have hrun : (s.taken i).timeoutExpired.state = .waitingRemote := hw
          unfold IceSession.timeoutExpired at hrun
          split at hrun
          · cases hrun
          · exact .inl hrun
        | keepalive =>
          have hrun : ((s.taken i).keepaliveExpired w).state = .waitingRemote := hw
          unfold IceSession.keepaliveExpired at hrun
          split at hrun
          · cases hrun
          · exact .inl ((sendKeepalive_onlySends w (s.taken i)).state.symm.trans hrun)
        | retry => exact retryExpired_waits w (s := s.taken i) hw
      | recv n =>
        have hrecv : ((s.taken i).onRecv w n).state = .waitingRemote :=
          (doRecv_onlySends ((s.taken i).onRecv w n)).state.symm.trans hw
        exact onRecv_waits w (s := s.taken i) hrecv

/-- A pending handler, when its turn comes, ends what the session waits for or brings the end
nearer. -/
theorem run_progress (w : IceWorld) (hg : s.Gathers) (ht : Tended s) (hc : s.closed = false)
    (i : Nat) :
    (s.due[i]? = some (.timer .retry) → s.state = .gathering →
      (s.act w (.run i)).state = .gathering → (s.act w (.run i)).patience < s.patience) ∧
    (s.due[i]? = some (.timer .timeout) → s.state = .checking →
      (s.act w (.run i)).state = .failed) := by
  constructor
  · intro hd hs hstill
    rw [act_run w hd] at hstill ⊢
    have hask := hg hc hs
    exact (retryExpired_asking w (s := s.taken i) hask.active hask.server hask.retries hstill).2
  · intro hd hs
    rw [act_run w hd]
    show (s.taken i).timeoutExpired.state = .failed
    have hn : s.nominated = false := by
      by_contra hn
      have hover := ht.chosen (Bool.not_eq_false _ ▸ hn)
      rcases hover with h | h <;> simp [h] at hs
    unfold IceSession.timeoutExpired
    rw [if_pos ⟨hs,hn⟩]
    rfl

theorem pending_iff (ht : Tended s) (hg : s.Gathers) :
    s.Pending ↔ s.closed = true ∨ s.state ≠ .waitingRemote := by
  constructor
  · intro hp
    by_contra hno
    rw [not_or,not_not,Bool.not_eq_true] at hno
    obtain ⟨hc,hs⟩ := hno
    exact ht.untimed (.inr (.inr hs)) ((hp hc).2 (.inl hs))
  · intro hor hc
    have hs : s.state ≠ .waitingRemote := hor.resolve_left (by simp [hc])
    refine ⟨fun hstate => ?_,fun hstate => ht.timed hc (hstate.resolve_left hs)⟩
    have hask := hg hc hstate
    exact ⟨hask.active,hask.retry⟩

end

theorem create_tended (controlling : Bool) (config : IceConfig) (ufrag pwd : Bytes)
    (tieBreaker : UInt64) : Tended (IceSession.create controlling config ufrag pwd tieBreaker) ∧
      (IceSession.create controlling config ufrag pwd tieBreaker).Gathers := by
  refine ⟨⟨fun h => ?_,fun _ => ?_,fun _ h => ?_,fun h => ?_⟩,fun _ h => ?_⟩
  · cases h
  · simp [IceSession.create,IceSession.Awaits]
  · cases h
  · cases h
  · cases h

/-- The wait for the peer's candidates is the one wait of a session that nothing ends: as long as
no gathering ends before they are known, an event is pending for every session, and each such
event, when it comes, ends the phase or leaves fewer retries. -/
theorem pending_unless_waiting (w : IceWorld) (controlling : Bool) (config : IceConfig)
    (ufrag pwd : Bytes) (tieBreaker : UInt64) (events : List IceEvent) :
    let start := IceSession.create controlling config ufrag pwd tieBreaker
    let s := run (IceSession.act w) start events
    (s.Pending ↔ s.closed = true ∨ s.state ≠ .waitingRemote) ∧
      (Along (IceSession.act w) (Informed w) start events → s.Pending) ∧
      ∀ i, s.closed = false →
        (s.due[i]? = some (.timer .retry) → s.state = .gathering →
          (s.act w (.run i)).state = .gathering → (s.act w (.run i)).patience < s.patience) ∧
        (s.due[i]? = some (.timer .timeout) → s.state = .checking →
          (s.act w (.run i)).state = .failed) := by
  intro start s
  obtain ⟨ht,hg⟩ : Tended s ∧ s.Gathers :=
    run_invariant (I := fun s => Tended s ∧ s.Gathers)
      (fun s e h => ⟨h.1.act w e,act_gathers w h.1 h.2 e⟩)
      (create_tended controlling config ufrag pwd tieBreaker) events
  refine ⟨pending_iff ht hg,fun halong => ?_,fun i hc => run_progress w hg ht hc i⟩
  have hnever : s.closed = true ∨ s.state ≠ .waitingRemote := by
    refine halong.invariant (I := fun s => s.closed = true ∨ s.state ≠ .waitingRemote)
      (fun s e h hi => ?_) (.inr (by simp [start,IceSession.create]))
    by_contra hno
    rw [not_or,not_not,Bool.not_eq_true] at hno
    have hopen : s.closed = false := by
      by_contra hclosed
      have hlate := act_closed w (Bool.not_eq_false _ ▸ hclosed) e
      rw [hno.1] at hlate
      cases hlate
    rcases act_waits w hno.1 hno.2 with hw | ⟨hover,hr⟩
    · exact h.resolve_left (by simp [hopen]) hw
    · exact hi hover hr
  exact (pending_iff ht hg).2 hnever

/-- Its STUN server does not resolve, so the gathering of the side that calls is over at once;
nothing is on and nothing is due, whatever becomes of the answer. -/
theorem caller_waits_forever :
    ¬∀ (w : IceWorld) (controlling : Bool) (config : IceConfig) (ufrag pwd : Bytes)
      (tieBreaker : UInt64) (events : List IceEvent),
      (run (IceSession.act w) (IceSession.create controlling config ufrag pwd tieBreaker)
        events).Pending := by
  intro h
  have hcaller := h lanWorld true ⟨[⟨"stun.example",19302⟩],3⟩ [] [] 0 [.gather]
  exact absurd hcaller (by decide +kernel)

end GoodNet.Ice
