import GoodNet.IceMoves
set_option autoImplicit false

/-! What the connector sees of a session: the two sets of credentials and candidates, the state,
and the callbacks. Collecting candidates and taking the peer's change that much of it and no
more. -/

namespace GoodNet.Ice
open Codec

structure SessionFace where
  controlling : Bool
  state : SessionState
  closed : Bool
  nominated : Bool
  localCreds : IceCredentials
  localCandidates : List Candidate
  remoteCreds : IceCredentials
  remoteCandidates : List Candidate
  callbacks : List IceEffect
  deriving DecidableEq, Repr

/-- The calls of callbacks so far, newest first. -/
def IceSession.callbacks (s : IceSession) : List IceEffect := s.log.filter IceEffect.isCallback

def IceSession.face (s : IceSession) : SessionFace where
  controlling := s.controlling
  state := s.state
  closed := s.closed
  nominated := s.nominated
  localCreds := s.localCreds
  localCandidates := s.localCandidates
  remoteCreds := s.remoteCreds
  remoteCandidates := s.remoteCandidates
  callbacks := s.callbacks

/-- Some pair of the candidates is of one address family. -/
def pairable (here there : List Candidate) : Bool :=
  here.any (fun l => there.any (fun r => l.endpoint.ip.isV4 == r.endpoint.ip.isV4))

/-- The checks begin, or there is nothing to check. -/
def SessionFace.begun (f : SessionFace) : SessionFace :=
  if pairable f.localCandidates f.remoteCandidates then { f with state := .checking }
  else { f with state := .failed, callbacks := .onFailed :: f.callbacks }

def SessionFace.called (f : SessionFace) (e : IceEffect) : SessionFace :=
  { f with callbacks := e :: f.callbacks }

def SessionFace.completed (f : SessionFace) : SessionFace :=
  (if f.remoteCandidates = [] then { f with state := .waitingRemote } else f.begun).called .onGathered

/-- A step of the gathering leaves the face as it is, or completes it with one more candidate at
most. -/
inductive Gathered (f : SessionFace) (f' : SessionFace) : Prop where
  | goesOn (h : f' = f)
  | ends (found : List Candidate) (hlen : found.length ≤ 1) (htype : ∀ c ∈ found, c.type = .srflx)
      (h : f' = ({ f with localCandidates := f.localCandidates ++ found } : SessionFace).completed)

/-- A session that gathers and has been neither closed nor connected. -/
structure SessionFace.Gathering (f : SessionFace) : Prop where
  state : f.state = .gathering
  closed : f.closed = false
  nominated : f.nominated = false

/-- The step belongs to the gathering: the timer of the STUN client, its datagrams, and those that
are no STUN packets. -/
def IceSession.asksServers (s : IceSession) : IceEvent → Bool
  | .elapse t => t == .retry
  | .arrive _ _ => true
  | .recvFailed => true
  | .run i =>
    match s.due[i]? with
    | some (.timer t) => t == .retry
    | some (.recv n) =>
      !isStunPacket (s.recvBuf.take n) || (s.stunClient.feed (s.recvBuf.take n)).isSome
    | none => false
  | _ => false

section
variable {w : IceWorld} {s s' : IceSession}

theorem core_face (s : IceSession) : s.core.face = s.face := by
  simp [IceSession.face,IceSession.callbacks,IceSession.core]

theorem face_idle (h : s'.core = s.core) : s'.face = s.face := core_field _ core_face h

theorem pairable_comm (here there : List Candidate) :
    pairable here there = pairable there here := by
  rw [Bool.eq_iff_iff]
  simp only [pairable,List.any_eq_true,beq_iff_eq]
  constructor
  · rintro ⟨l,hl,r,hr,hfam⟩
    exact ⟨r,hr,l,hl,hfam.symm⟩
  · rintro ⟨r,hr,l,hl,hfam⟩
    exact ⟨l,hl,r,hr,hfam.symm⟩

theorem formCheckList_eq_nil (h : pairable s.localCandidates s.remoteCandidates = false) :
    s.formCheckList.checkList = [] := by
  refine List.eq_nil_iff_forall_not_mem.2 fun p hp => ?_
  have hpair := (List.perm_insertionSort _ _).mem_iff.1 hp
  obtain ⟨l,hl,hl'⟩ := List.mem_flatMap.1 hpair
  obtain ⟨r,hr,-⟩ := List.mem_map.1 hl'
  obtain ⟨hr,hfam⟩ := List.mem_filter.1 hr
  have hyes : pairable s.localCandidates s.remoteCandidates = true :=
    List.any_eq_true.2 ⟨l,hl,List.any_eq_true.2 ⟨r,hr,hfam⟩⟩
  rw [h] at hyes
  cases hyes

theorem checkNext_nil (w : IceWorld) (h : s.checkList = []) : (s.checkNext w).checkList = [] := by
  simp [IceSession.checkNext,h]

theorem beginChecks_face (w : IceWorld) (hc : s.closed = false) (hn : s.nominated = false) :
    (s.beginChecks w).face = s.face.begun := by
  have hready : (((s.transition .checking).formCheckList).arm .timeout).face =
      { s.face with state := .checking } := rfl
  have hnext := (face_idle (checkNext_core w _)).trans hready
  unfold SessionFace.begun
  show _ = if pairable s.localCandidates s.remoteCandidates = true then _ else _
  by_cases hp : pairable s.localCandidates s.remoteCandidates = true
  · rw [if_pos hp]
    have hpaired : s.Paired := by
      simp only [pairable,List.any_eq_true,beq_iff_eq] at hp
      exact .inr hp
    have hsome : s.remoteCandidates ≠ [] := by
      intro hnil
      simp [pairable,hnil] at hp
    have hstate := beginChecks_checking w hc hpaired hsome
    unfold IceSession.beginChecks IceSession.sendNextCheck at hstate ⊢
    dsimp only at hstate ⊢
    split at hstate
    · rename_i hshut
      rw [if_pos hshut]
      exact hready
    · rename_i hopen
      rw [if_neg hopen]
      split at hstate
      · cases hstate
      · rename_i hbusy
        rw [if_neg hbusy]
        split
        · exact (face_idle (armCheck_core _)).trans hnext
        · exact hnext
  · rw [if_neg hp]
    have hnone := checkNext_nil w (s := ((s.transition .checking).formCheckList).arm .timeout)
      (formCheckList_eq_nil (s := s.transition .checking) (Bool.not_eq_true _ ▸ hp))
    have hnom : ((((s.transition .checking).formCheckList).arm .timeout).checkNext w).nominated =
        false := (congrArg SessionFace.nominated hnext).trans hn
    unfold IceSession.beginChecks IceSession.sendNextCheck
    dsimp only
    rw [if_neg (by
      rw [not_or,not_not]
      exact ⟨rfl,(Bool.not_eq_true _).mpr hc⟩)]
    simp only [hnone,hnom,List.any_nil,Bool.not_false,Bool.and_self,if_true]
    exact congrArg (fun f : SessionFace => { f with
      state := .failed, callbacks := .onFailed :: f.callbacks }) hnext

theorem gatheringComplete_face (w : IceWorld) (hg : s.face.Gathering) :
    (s.gatheringComplete w).face = s.face.completed := by
  have hstate : s.state = .gathering := hg.state
  unfold IceSession.gatheringComplete SessionFace.completed
  dsimp only
  rw [if_neg (by simp [hstate])]
  by_cases hr : s.remoteCandidates = []
  · rw [if_pos (show s.face.remoteCandidates = [] from hr),if_pos (List.isEmpty_iff.2 hr)]
    rfl
  · rw [if_neg (show ¬s.face.remoteCandidates = [] from hr),if_neg (by simpa using hr)]
    exact congrArg (fun f : SessionFace => f.called .onGathered)
      (beginChecks_face w hg.closed hg.nominated)

theorem requestServer_face (w : IceWorld) (s : IceSession) :
    (s.requestServer w).1.face = s.face := by
  unfold IceSession.requestServer
  dsimp only
  split
  · rfl
  · rename_i ep _
    have hasked : ∀ c, (({ s.ask with stunClient := c } : IceSession).sendTo ep
        (buildBindingRequest (w.random s.asked))).face = s.face := fun c =>
      (face_idle (sendTo_core _ _ _)).trans rfl
    split <;> exact hasked _

theorem tryServers_gathered (w : IceWorld) (servers : List StunServer) (hg : s.face.Gathering) :
    Gathered s.face (s.tryServers w servers).face := by
  induction servers generalizing s with
  | nil =>
    refine .ends [] (Nat.zero_le 1) (fun c hc => by cases hc) ?_
    rw [List.append_nil]
    exact gatheringComplete_face w hg
  | cons server rest ih =>
    have hasked := requestServer_face w s
    rw [IceSession.tryServers]
    dsimp only
    split
    · exact .goesOn hasked
    · have hnext := ih (s := { (s.requestServer w).1 with
        stunTryIdx := (s.requestServer w).1.stunTryIdx+1 }) (hasked ▸ hg)
      exact hasked ▸ hnext

theorem clientFailed_gathered (w : IceWorld) (hg : s.face.Gathering) :
    Gathered s.face (s.clientFailed w).face :=
  tryServers_gathered w _ (s := { s.clientDone with stunTryIdx := s.stunTryIdx+1 }) hg

theorem retryExpired_gathered (w : IceWorld) (hg : s.face.Gathering) :
    Gathered s.face (s.retryExpired w).face := by
  rcases retryExpired_cases w s with ⟨-,heq⟩ | ⟨-,-,c,heq⟩ | ⟨-,-,c,packet,-,-,heq⟩
  · rw [heq]
    exact .goesOn rfl
  · rw [heq]
    exact clientFailed_gathered w (s := { s with stunClient := c }) hg
  · rw [heq]
    exact .goesOn ((face_idle (sendTo_core _ _ _)).trans rfl)

theorem onRecv_gathered (w : IceWorld) (hg : s.face.Gathering) {n : Nat}
    (hasks : (!isStunPacket (s.recvBuf.take n) ||
      (s.stunClient.feed (s.recvBuf.take n)).isSome) = true) :
    Gathered s.face (s.onRecv w n).face := by
  have hn : s.nominated = false := hg.nominated
  unfold IceSession.onRecv
  dsimp only
  cases hf : s.stunClient.feed (s.recvBuf.take n) with
  | some addr =>
    refine .ends [srflxCandidate addr] (Nat.le_refl 1) (fun c hc => ?_) ?_
    · rw [List.mem_singleton.1 hc]
      rfl
    · exact gatheringComplete_face w (s := ({ (s.cancel .retry).clientDone with
        localCandidates := s.localCandidates ++ [srflxCandidate addr] } : IceSession))
        ⟨hg.state,hg.closed,hg.nominated⟩
  | none =>
    have hstun : isStunPacket (s.recvBuf.take n) = false := by simpa [hf] using hasks
    simp only [hstun,hn,Bool.false_eq_true,false_and,if_false]
    exact .goesOn rfl

theorem doRecv_face (s : IceSession) : s.doRecv.face = s.face := by
  unfold IceSession.doRecv
  split <;> rfl

theorem act_gathered (w : IceWorld) (hg : s.face.Gathering) {e : IceEvent}
    (ha : s.asksServers e = true) : Gathered s.face (s.act w e).face := by
  cases e with
  | elapse t =>
    refine .goesOn ?_
    simp only [IceSession.act]
    split <;> rfl
  | arrive origin data =>
    refine .goesOn ?_
    simp only [IceSession.act]
    split <;> rfl
  | recvFailed =>
    refine .goesOn ?_
    simp only [IceSession.act]
    split <;> rfl
  | run i =>
    simp only [IceSession.asksServers] at ha
    simp only [IceSession.act]
    cases hd : s.due[i]? with
    | none => exact .goesOn rfl
    | some x =>
      rw [hd] at ha
      cases x with
      | timer t =>
        obtain rfl : t = .retry := by simpa using ha
        exact retryExpired_gathered w (s := { s with due := s.due.eraseIdx i }) hg
      | recv n =>
        show Gathered s.face
          (({ s with due := s.due.eraseIdx i } : IceSession).onRecv w n).doRecv.face
        rw [doRecv_face]
        exact onRecv_gathered w (s := { s with due := s.due.eraseIdx i }) hg ha
  | _ => cases ha

/-- The peer's credentials and candidates, as `set_remote` takes them over. -/
def SessionFace.informed (f : SessionFace) (remote : IceSignalData)
    (candidates : List IceCandidateWire) : SessionFace :=
  { f with
    remoteCreds := ⟨upToZero remote.ufrag.bytes,upToZero remote.pwd.bytes⟩,
    remoteCandidates := candidates.map wireToCandidate }

theorem setRemote_face (w : IceWorld) (remote : IceSignalData) (candidates : List IceCandidateWire)
    (hc : s.closed = false) (hn : s.nominated = false) :
    (s.setRemote w remote candidates).face =
      if s.state = .waitingRemote then (s.face.informed remote candidates).begun
      else s.face.informed remote candidates := by
  unfold IceSession.setRemote
  dsimp only
  split
  · exact beginChecks_face w hc hn
  · rfl

/-- The session the connector creates begins to gather with its host candidate. -/
theorem gather_gathered (w : IceWorld) (controlling : Bool) (config : IceConfig)
    (ufrag pwd : Bytes) (tieBreaker : UInt64) : ∃ host : Candidate, host.type = .host ∧
      Gathered
        { (IceSession.create controlling config ufrag pwd tieBreaker).face with
          state := .gathering, localCandidates := [host] }
        ((IceSession.create controlling config ufrag pwd tieBreaker).gather w).face := by
  have hopen : (IceSession.create controlling config ufrag pwd tieBreaker).gather w =
      ((IceSession.create controlling config ufrag pwd tieBreaker).hosted w).tryNextStunServer w :=
    rfl
  rw [hopen]
  exact ⟨_,rfl,tryServers_gathered w _ (s := (IceSession.create controlling config ufrag pwd
    tieBreaker).hosted w) ⟨rfl,rfl,rfl⟩⟩

end

end GoodNet.Ice
