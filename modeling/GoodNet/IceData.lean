import GoodNet.IceConsent
import Mathlib.Data.List.Perm.Basic
set_option autoImplicit false

/-! The data of the peer. One unconnected socket receives the answers of the STUN servers, the
checks and the data, and the address a datagram came from is kept in `recvFrom`. -/

namespace GoodNet.Ice
open Codec Interleaving

def IceHandler.isRecv : IceHandler → Bool
  | .recv _ => true
  | .timer _ => false

def IceEffect.data : IceEffect → Option Bytes
  | .onData data => some data
  | _ => none

/-- The receives that have completed and wait to be handled. -/
def IceSession.recvs (s : IceSession) : List IceHandler := s.due.filter IceHandler.isRecv

/-- What has been passed to `on_data`, newest first. -/
def IceSession.passed (s : IceSession) : List Bytes := s.log.filterMap IceEffect.data

/-- A session and the datagram that its last receive has taken in, with its origin. -/
structure Intake where
  session : IceSession
  heard : Option (StunAddress × Bytes) := none

def Intake.act (w : IceWorld) (p : Intake) (e : IceEvent) : Intake where
  session := p.session.act w e
  heard :=
    match e with
    | .arrive origin data => if p.session.receiving then some (origin,data) else p.heard
    | _ => p.heard

/-- What the step passes to `on_data` has come from the nominated endpoint. -/
def FromPeer (w : IceWorld) (p : Intake) (e : IceEvent) : Prop :=
  (p.session.act w e).passed = p.session.passed ∨
    p.session.nominated = true ∧ p.session.state = .connected ∧ ∃ d ∈ p.heard,
      d.1 = p.session.remoteEp ∧
        (p.session.act w e).passed = d.2.take recvBufSize :: p.session.passed

/-- A datagram that is no STUN packet is handled while the peer is connected. -/
def IceSession.TakesData (s : IceSession) : IceEvent → Prop
  | .run i =>
    match s.due[i]? with
    | some (.recv n) =>
      isStunPacket (s.recvBuf.take n) = false ∧ s.nominated = true ∧ s.state = .connected
    | _ => False
  | _ => False

/-- Such a datagram has come from the nominated endpoint. -/
def Sourced (p : Intake) (e : IceEvent) : Prop :=
  p.session.TakesData e → p.session.recvFrom = p.session.remoteEp

/-- Nothing is received and nothing is passed on. -/
structure Quiet (s s' : IceSession) : Prop where
  recvs : s'.recvs = s.recvs
  receiving : s'.receiving = true → s.receiving = true
  active : s'.recvActive = s.recvActive
  buf : s'.recvBuf = s.recvBuf
  origin : s'.recvFrom = s.recvFrom
  passed : s'.passed = s.passed
  peer : s.nominated = true → s'.nominated = true ∧ s'.remoteEp = s.remoteEp

/-- There is one receive at a time, and the handler of a completed one finds in the buffer what
has been heard. -/
structure Heard (p : Intake) : Prop where
  single : p.session.recvs.length+p.session.receiving.toNat ≤ 1
  idle : p.session.recvActive = false → p.session.recvs = [] ∧ p.session.receiving = false
  fresh : ∀ n, .recv n ∈ p.session.due → ∃ data, p.heard = some (p.session.recvFrom,data) ∧
    p.session.recvBuf.take n = data.take recvBufSize

section
variable {b : Bool} {w : IceWorld} {s s' s'' : IceSession}

theorem mem_recvs {n : Nat} : .recv n ∈ s.recvs ↔ .recv n ∈ s.due := by
  simp [IceSession.recvs,IceHandler.isRecv]

theorem Quiet.refl (s : IceSession) : Quiet s s := ⟨rfl,id,rfl,rfl,rfl,rfl,fun h => ⟨h,rfl⟩⟩

theorem Quiet.trans (h : Quiet s s') (h' : Quiet s' s'') : Quiet s s'' where
  recvs := h'.recvs.trans h.recvs
  receiving := fun hr => h.receiving (h'.receiving hr)
  active := h'.active.trans h.active
  buf := h'.buf.trans h.buf
  origin := h'.origin.trans h.origin
  passed := h'.passed.trans h.passed
  peer := fun hn => by
    obtain ⟨hn',hep⟩ := h.peer hn
    obtain ⟨hn'',hep'⟩ := h'.peer hn'
    exact ⟨hn'',hep'.trans hep⟩

theorem core_recvs (s : IceSession) : s.core.recvs = s.recvs := by
  simp only [IceSession.recvs,IceSession.core,List.filter_filter]
  refine List.filter_congr fun x _ => ?_
  cases x with
  | recv n => rfl
  | timer t => rfl

theorem core_passed (s : IceSession) : s.core.passed = s.passed := by
  simp only [IceSession.passed,IceSession.core,List.filterMap_filter]
  refine List.filterMap_congr fun x _ => ?_
  cases x <;> rfl

theorem Quiet.idle (h : s'.core = s.core) : Quiet s s' where
  recvs := core_field _ core_recvs h
  receiving := fun hr => (core_field (fun s => s.receiving) (fun _ => rfl) h).symm.trans hr
  active := core_field (fun s => s.recvActive) (fun _ => rfl) h
  buf := core_field (fun s => s.recvBuf) (fun _ => rfl) h
  origin := core_field (fun s => s.recvFrom) (fun _ => rfl) h
  passed := core_field _ core_passed h
  peer := fun hn => ⟨(core_field (fun s => s.nominated) (fun _ => rfl) h).trans hn,
    core_field (fun s => s.remoteEp) (fun _ => rfl) h⟩

theorem Move.quiet (h : Move b s s') : Quiet s s' := by
  cases h with
  | idle h => exact Quiet.idle h
  | shut h => exact { Quiet.refl s with receiving := fun hr => by cases hr }
  | _ => exact { Quiet.refl s with }

theorem Moves.quiet (h : Moves b s s') : Quiet s s' := by
  induction h with
  | refl => exact Quiet.refl s
  | tail _ hm ih => exact ih.trans hm.quiet

theorem sendKeepalive_quiet (w : IceWorld) (s : IceSession) : Quiet s (s.sendKeepalive w) := by
  rcases sendKeepalive_cases w s with ⟨heq,-⟩ | ⟨-,-,-,hcore⟩
  · rw [heq]
    exact Quiet.refl s
  · have hbeaten : Quiet s (s.beaten w) := { Quiet.refl s with }
    exact hbeaten.trans (Quiet.idle hcore)

theorem nominate_quiet (w : IceWorld) (s : IceSession) (i : Nat) : Quiet s (s.nominate w i) := by
  rcases nominate_cases w s i with heq | ⟨hfree,ep,heq⟩
  · rw [heq]
    exact Quiet.refl s
  · have hchosen : Quiet s (s.chosen ep) :=
      { Quiet.refl s with peer := fun hn => by rw [hfree] at hn; cases hn }
    have hreset : Quiet (s.chosen ep) { s.chosen ep with consentMissed := 0 } :=
      { Quiet.refl _ with }
    rw [heq]
    exact ((hchosen.trans hreset).trans (sendKeepalive_quiet w _)).trans { Quiet.refl _ with }

theorem onRecv_data (w : IceWorld) {n : Nat} (hstun : isStunPacket (s.recvBuf.take n) = false)
    (hn : s.nominated = true) (hs : s.state = .connected) :
    s.onRecv w n = s.emit (.onData (s.recvBuf.take n)) := by
  have hfeed : s.stunClient.feed (s.recvBuf.take n) = none := by
    simp [StunClient.feed,hstun]
  unfold IceSession.onRecv
  simp only [hfeed,hstun,hn,hs,and_self,Bool.false_eq_true,if_false,if_true]

theorem onRecv_quiet (w : IceWorld) {n : Nat}
    (hno : ¬(isStunPacket (s.recvBuf.take n) = false ∧ s.nominated = true ∧
      s.state = .connected)) : Quiet s (s.onRecv w n) := by
  rcases onRecv_moves w s n with
    ⟨-,hm⟩ | ⟨-,hcore | ⟨-,-,-,-,heq⟩ | ⟨hstun,hn,hs,-⟩ | ⟨-,t,i,ht,heq⟩⟩
  · exact hm.quiet
  · exact Quiet.idle hcore
  · rw [heq]
    exact { Quiet.refl s with }
  · exact absurd ⟨hstun,hn,hs⟩ hno
  · rw [heq]
    exact (Quiet.idle ht).trans (nominate_quiet w t i)

theorem filter_eraseIdx {α : Type} {p : α → Bool} {l : List α} {i : Nat} {x : α}
    (h : l[i]? = some x) (hp : p x = false) : (l.eraseIdx i).filter p = l.filter p := by
  induction l generalizing i with
  | nil => cases h
  | cons a l ih =>
    cases i with
    | zero =>
      cases h
      simp [hp]
    | succ i =>
      rw [List.eraseIdx_cons_succ,List.filter_cons,List.filter_cons,ih h]

theorem Quiet.taken {i : Nat} {t : IceTimer} (hd : s.due[i]? = some (.timer t)) :
    Quiet s (s.taken i) :=
  { Quiet.refl s with recvs := filter_eraseIdx hd rfl }

theorem timer_quiet (w : IceWorld) {i : Nat} {t : IceTimer}
    (hd : s.due[i]? = some (.timer t)) : Quiet s (s.act w (.run i)) := by
  rw [act_run w hd]
  refine (Quiet.taken hd).trans ?_
  cases t with
  | check => exact (sendNextCheck_moves (b := false) w (s.taken i)).quiet
  | timeout =>
    show Quiet (s.taken i) (s.taken i).timeoutExpired
    unfold IceSession.timeoutExpired
    split
    · exact { Quiet.refl _ with }
    · exact Quiet.refl _
  | keepalive =>
    show Quiet (s.taken i) ((s.taken i).keepaliveExpired w)
    unfold IceSession.keepaliveExpired
    split
    · exact { Quiet.refl _ with }
    · exact sendKeepalive_quiet w _
  | retry => exact (retryExpired_moves w (s.taken i)).quiet

/-- What a step can do as far as data is concerned. -/
theorem Intake.act_cases (w : IceWorld) (p : Intake) (e : IceEvent) :
    (¬p.session.TakesData e ∧
      (((p.act w e).heard = p.heard ∧ Quiet p.session (p.act w e).session) ∨
        ((p.act w e).heard = p.heard ∧ p.session.recvActive = false ∧
          Quiet { p.session with recvActive := true, receiving := true } (p.act w e).session) ∨
        (p.session.receiving = true ∧ ∃ origin data,
          p.act w e = ⟨p.session.receive origin data,some (origin,data)⟩) ∨
        (p.session.receiving = true ∧
          p.act w e = ⟨{ p.session with receiving := false, recvActive := false },p.heard⟩))) ∨
      ∃ i n, e = .run i ∧ p.session.due[i]? = some (.recv n) ∧
        p.act w e = ⟨((p.session.taken i).onRecv w n).doRecv,p.heard⟩ := by
  obtain ⟨s,heard⟩ := p
  cases e with
  | gather =>
    refine .inl ⟨id,?_⟩
    show (heard = heard ∧ Quiet s (s.gather w)) ∨ (heard = heard ∧ _ ∧ Quiet _ (s.gather w)) ∨ _
    rcases gather_cases w s with heq | ⟨-,-,heq⟩ | ⟨hnew,-,heq⟩
    · rw [heq]
      exact .inl ⟨rfl,Quiet.refl s⟩
    · rw [heq]
      exact .inl ⟨rfl,{ Quiet.refl s with }⟩
    · have hgathered : Quiet s.startRecvLoop (s.gather w) := by
        rw [heq]
        exact (hosted_moves w hnew).quiet.trans (tryServers_moves w _ _).quiet
      rw [startRecvLoop_eq] at hgathered
      split at hgathered
      · exact .inl ⟨rfl,hgathered⟩
      · rename_i hidle
        rw [Bool.or_eq_true,not_or,Bool.not_eq_true] at hidle
        exact .inr (.inl ⟨rfl,hidle.1,hgathered⟩)
  | setRemote remote candidates =>
    exact .inl ⟨id,.inl ⟨rfl,(setRemote_moves w s remote candidates).quiet⟩⟩
  | startChecks => exact .inl ⟨id,.inl ⟨rfl,(startChecks_moves w s).quiet⟩⟩
  | send data => exact .inl ⟨id,.inl ⟨rfl,Quiet.idle (send_core s data)⟩⟩
  | close => exact .inl ⟨id,.inl ⟨rfl,(close_moves w s).quiet⟩⟩
  | elapse t =>
    refine .inl ⟨id,.inl ⟨rfl,?_⟩⟩
    show Quiet s (s.act w (.elapse t))
    simp only [IceSession.act]
    split
    · refine { Quiet.refl s with recvs := ?_ }
      simp [IceSession.recvs,IceHandler.isRecv]
    · exact Quiet.refl s
  | arrive origin data =>
    refine .inl ⟨id,?_⟩
    simp only [Intake.act,IceSession.act]
    by_cases hr : s.receiving = true
    · simp only [hr,if_true]
      exact .inr (.inr (.inl ⟨trivial,origin,data,rfl⟩))
    · simp only [hr]
      exact .inl ⟨rfl,Quiet.refl s⟩
  | recvFailed =>
    refine .inl ⟨id,?_⟩
    by_cases hr : s.receiving = true
    · exact .inr (.inr (.inr ⟨hr,by simp [Intake.act,IceSession.act,hr]⟩))
    · refine .inl ⟨rfl,?_⟩
      simp only [Intake.act,IceSession.act,hr]
      exact Quiet.refl s
  | run i =>
    cases hd : s.due[i]? with
    | none =>
      refine .inl ⟨by simp [IceSession.TakesData,hd],.inl ⟨rfl,?_⟩⟩
      simp only [Intake.act,IceSession.act,hd]
      exact Quiet.refl s
    | some x =>
      cases x with
      | recv n =>
        refine .inr ⟨i,n,rfl,hd,?_⟩
        simp only [Intake.act,act_run w hd]
        rfl
      | timer t =>
        exact .inl ⟨by simp [IceSession.TakesData,hd],.inl ⟨rfl,timer_quiet w hd⟩⟩

theorem Heard.quiet {p : Intake} (h : Heard p) (hq : Quiet p.session s') : Heard ⟨s',p.heard⟩ where
  single := by
    have hsingle := h.single
    have hle : s'.receiving.toNat ≤ p.session.receiving.toNat := Bool.toNat_le_toNat hq.receiving
    simp only [hq.recvs]
    omega
  idle := fun ha => by
    rw [hq.active] at ha
    obtain ⟨hnone,hr⟩ := h.idle ha
    refine ⟨hq.recvs.trans hnone,?_⟩
    by_contra hon
    rw [hq.receiving (Bool.not_eq_false _ ▸ hon)] at hr
    cases hr
  fresh := fun n hn => by
    have hmem := hn
    rw [← mem_recvs] at hmem
    simp only [hq.recvs] at hmem
    rw [mem_recvs] at hmem
    simp only [hq.origin,hq.buf]
    exact h.fresh n hmem

/-- The receive whose handler runs was the only one. -/
theorem Heard.alone {p : Intake} (h : Heard p) {i n : Nat}
    (hd : p.session.due[i]? = some (.recv n)) :
    (p.session.taken i).recvs = [] ∧ p.session.receiving = false ∧
      p.session.recvActive = true := by
  have hmem : .recv n ∈ p.session.due := List.mem_of_getElem? hd
  obtain ⟨hi,hget⟩ := List.getElem?_eq_some_iff.1 hd
  have hperm := (List.getElem_cons_eraseIdx_perm hi).filter IceHandler.isRecv
  rw [hget,List.filter_cons_of_pos rfl] at hperm
  have hcount : (p.session.taken i).recvs.length+1 = p.session.recvs.length := hperm.length_eq
  have hsingle := h.single
  refine ⟨List.eq_nil_of_length_eq_zero (by omega),?_,?_⟩
  · have hzero : p.session.receiving.toNat = 0 := by omega
    exact Bool.toNat_eq_zero.1 hzero
  · by_contra hidle
    have hnone := (h.idle (Bool.not_eq_true _ ▸ hidle)).1
    rw [hnone] at hcount
    cases hcount

/-- While the socket receives, no datagram waits. -/
theorem Heard.none {p : Intake} (h : Heard p) (hr : p.session.receiving = true) :
    p.session.recvs = [] := by
  have hsingle := h.single
  rw [hr] at hsingle
  exact List.eq_nil_of_length_eq_zero (Nat.le_zero.1 (Nat.le_of_succ_le_succ hsingle))

theorem Heard.receive {p : Intake} (h : Heard p) (hr : p.session.receiving = true)
    (origin : StunAddress) (data : Bytes) :
    Heard ⟨p.session.receive origin data,some (origin,data)⟩ := by
  have hone : (p.session.receive origin data).recvs = [.recv (data.take recvBufSize).length] := by
    show List.filter _ (p.session.due ++ [_]) = _
    rw [List.filter_append]
    show p.session.recvs ++ _ = _
    rw [h.none hr]
    rfl
  refine ⟨?_,fun ha => ?_,fun n hn => ⟨data,rfl,?_⟩⟩
  · simp only [hone]
    rfl
  · have hactive : p.session.recvActive = false := ha
    rw [(h.idle hactive).2] at hr
    cases hr
  · rw [← mem_recvs,hone,List.mem_singleton] at hn
    cases hn
    show List.take _ (data.take recvBufSize ++ _) = _
    exact List.take_left

/-- The handler ends with the next receive. -/
theorem Heard.handled {p : Intake} (h : Heard p) (w : IceWorld) {i n : Nat}
    (hd : p.session.due[i]? = some (.recv n)) :
    Heard ⟨((p.session.taken i).onRecv w n).doRecv,p.heard⟩ := by
  obtain ⟨hnone,hr,hactive⟩ := h.alone hd
  have hkept : ((p.session.taken i).onRecv w n).recvs = [] ∧
      ((p.session.taken i).onRecv w n).recvActive = true := by
    by_cases hdata : isStunPacket ((p.session.taken i).recvBuf.take n) = false ∧
        (p.session.taken i).nominated = true ∧ (p.session.taken i).state = .connected
    · rw [onRecv_data w hdata.1 hdata.2.1 hdata.2.2]
      exact ⟨hnone,hactive⟩
    · have hq := onRecv_quiet w hdata
      exact ⟨hq.recvs.trans hnone,hq.active.trans hactive⟩
  generalize (p.session.taken i).onRecv w n = s at hkept
  have hloop : s.doRecv.recvs = s.recvs ∧ s.doRecv.recvActive = s.recvActive := by
    unfold IceSession.doRecv
    split <;> exact ⟨rfl,rfl⟩
  rw [hkept.1,hkept.2] at hloop
  refine ⟨?_,fun ha => ?_,fun m hm => ?_⟩
  · simp only [hloop.1]
    exact (Nat.zero_add _).trans_le (Bool.toNat_le _)
  · rw [hloop.2] at ha
    cases ha
  · rw [← mem_recvs] at hm
    simp only [hloop.1] at hm
    cases hm

theorem Heard.act {p : Intake} (h : Heard p) (w : IceWorld) (e : IceEvent) :
    Heard (p.act w e) := by
  rcases p.act_cases w e with ⟨-,⟨hh,hq⟩ | ⟨hh,hidle,hq⟩ | ⟨hr,origin,data,heq⟩ | ⟨hr,heq⟩⟩ |
    ⟨i,n,-,hd,heq⟩
  · have hnext := h.quiet hq
    rw [← hh] at hnext
    exact hnext
  · have hloop : Heard ⟨{ p.session with recvActive := true, receiving := true },p.heard⟩ := by
      refine ⟨?_,fun ha => (by cases ha),h.fresh⟩
      show p.session.recvs.length+1 ≤ 1
      rw [(h.idle hidle).1]
      rfl
    have hnext := hloop.quiet hq
    rw [← hh] at hnext
    exact hnext
  · rw [heq]
    exact h.receive hr origin data
  · rw [heq]
    have hnone := h.none hr
    refine ⟨?_,fun _ => ⟨hnone,rfl⟩,h.fresh⟩
    show p.session.recvs.length+0 ≤ 1
    rw [hnone]
    exact Nat.zero_le 1
  · rw [heq]
    exact h.handled w hd

theorem doRecv_passed (s : IceSession) : s.doRecv.passed = s.passed := by
  rw [IceSession.passed,doRecv_log]
  rfl

/-- Everything a step can pass on: the datagram that has been heard last. -/
theorem Heard.passes {p : Intake} (h : Heard p) (w : IceWorld) (e : IceEvent) :
    (¬p.session.TakesData e ∧ (p.session.act w e).passed = p.session.passed) ∨
      (p.session.TakesData e ∧ p.session.nominated = true ∧ p.session.state = .connected ∧
        ∃ data, p.heard = some (p.session.recvFrom,data) ∧
          isStunPacket (data.take recvBufSize) = false ∧
          (p.session.act w e).passed = data.take recvBufSize :: p.session.passed) := by
  rcases p.act_cases w e with ⟨hno,hstep⟩ | ⟨i,n,rfl,hd,heq⟩
  · refine .inl ⟨hno,?_⟩
    rcases hstep with ⟨-,hq⟩ | ⟨-,-,hq⟩ | ⟨-,origin,data,heq⟩ | ⟨-,heq⟩
    · exact hq.passed
    · exact hq.passed
    · exact congrArg (fun p : Intake => p.session.passed) heq
    · exact congrArg (fun p : Intake => p.session.passed) heq
  · have hpassed : (p.session.act w (.run i)).passed =
        ((p.session.taken i).onRecv w n).passed :=
      (congrArg (fun p : Intake => p.session.passed) heq).trans (doRecv_passed _)
    have htakes : p.session.TakesData (.run i) ↔
        isStunPacket (p.session.recvBuf.take n) = false ∧ p.session.nominated = true ∧
          p.session.state = .connected := by
      simp only [IceSession.TakesData,hd]
    rw [htakes,hpassed]
    by_cases hdata : isStunPacket (p.session.recvBuf.take n) = false ∧
        p.session.nominated = true ∧ p.session.state = .connected
    · obtain ⟨data,hheard,hbuf⟩ := h.fresh n (List.mem_of_getElem? hd)
      rw [onRecv_data w (s := p.session.taken i) hdata.1 hdata.2.1 hdata.2.2]
      rw [hbuf] at hdata
      refine .inr ⟨by rw [hbuf]; exact hdata,hdata.2.1,hdata.2.2,data,hheard,hdata.1,?_⟩
      rw [← hbuf]
      rfl
    · exact .inl ⟨hdata,(onRecv_quiet w (s := p.session.taken i) hdata).passed⟩

theorem Heard.fromPeer_iff {p : Intake} (h : Heard p) (w : IceWorld) (e : IceEvent) :
    FromPeer w p e ↔ Sourced p e := by
  rcases h.passes w e with ⟨hno,hsame⟩ | ⟨htakes,hn,hs,data,hheard,-,hnew⟩
  · exact ⟨fun _ ht => absurd ht hno,fun _ => .inl hsame⟩
  · constructor
    · rintro (hsame | ⟨-,-,d,hd,hpeer,-⟩) -
      · rw [hnew] at hsame
        exact absurd hsame (List.cons_ne_self _ _)
      · rw [hheard] at hd
        cases hd
        exact hpeer
    · intro hsourced
      exact .inr ⟨hn,hs,(p.session.recvFrom,data),hheard,hsourced htakes,hnew⟩

/-- The endpoint that has been nominated stays. -/
theorem Intake.act_peer (w : IceWorld) (p : Intake) (e : IceEvent)
    (hn : p.session.nominated = true) : (p.session.act w e).nominated = true ∧
      (p.session.act w e).remoteEp = p.session.remoteEp := by
  rcases p.act_cases w e with ⟨-,⟨-,hq⟩ | ⟨-,-,hq⟩ | ⟨-,origin,data,heq⟩ | ⟨-,heq⟩⟩ |
    ⟨i,n,-,-,heq⟩
  · exact hq.peer hn
  · exact hq.peer hn
  · rw [show p.session.act w e = _ from congrArg Intake.session heq]
    exact ⟨hn,rfl⟩
  · rw [show p.session.act w e = _ from congrArg Intake.session heq]
    exact ⟨hn,rfl⟩
  · rw [show p.session.act w e = _ from congrArg Intake.session heq]
    have hkept : ((p.session.taken i).onRecv w n).nominated = true ∧
        ((p.session.taken i).onRecv w n).remoteEp = p.session.remoteEp := by
      by_cases hdata : isStunPacket ((p.session.taken i).recvBuf.take n) = false ∧
          (p.session.taken i).nominated = true ∧ (p.session.taken i).state = .connected
      · rw [onRecv_data w hdata.1 hdata.2.1 hdata.2.2]
        exact ⟨hn,rfl⟩
      · exact (onRecv_quiet w hdata).peer hn
    unfold IceSession.doRecv
    split <;> exact hkept

theorem send_cases (s : IceSession) (data : Bytes) :
    s.send data = s ∨ s.send data = s.emit (.sent s.remoteEp data) := by
  unfold IceSession.send IceSession.sendTo
  split
  · exact .inl rfl
  · split
    · exact .inr rfl
    · exact .inl rfl

end

/-- All that `on_data` gets has come from the nominated endpoint if and only if no datagram from
elsewhere, other than a STUN packet, is handled while the peer is connected. No STUN packet gets
there, nothing before the nomination or after a failure, and what has been nominated is where
`send` sends to from then on. -/
theorem data_from_nominated_iff (w : IceWorld) (controlling : Bool) (config : IceConfig)
    (ufrag pwd : Bytes) (tieBreaker : UInt64) (events : List IceEvent) :
    let start : Intake := ⟨IceSession.create controlling config ufrag pwd tieBreaker,none⟩
    let p := run (Intake.act w) start events
    (Along (Intake.act w) (FromPeer w) start events ↔
        Along (Intake.act w) Sourced start events) ∧
      (∀ e, (p.session.act w e).passed = p.session.passed ∨
        p.session.nominated = true ∧ p.session.state = .connected ∧ ∃ d ∈ p.heard,
          isStunPacket (d.2.take recvBufSize) = false ∧
            (p.session.act w e).passed = d.2.take recvBufSize :: p.session.passed) ∧
      (∀ e, p.session.nominated = true → (p.session.act w e).nominated = true ∧
        (p.session.act w e).remoteEp = p.session.remoteEp) ∧
      ∀ data, p.session.send data = p.session ∨
        p.session.send data = p.session.emit (.sent p.session.remoteEp data) := by
  intro start p
  have hstart : Heard start := ⟨Nat.zero_le 1,fun _ => ⟨rfl,rfl⟩,fun n hn => by cases hn⟩
  have hkeep : ∀ p e, Heard p → Heard (p.act w e) := fun p e h => h.act w e
  refine ⟨⟨fun h => ?_,fun h => ?_⟩,fun e => ?_,fun e hn => p.act_peer w e hn,
    fun data => send_cases p.session data⟩
  · exact h.promises (fun p e hp _ => hkeep p e hp) (fun p e hp => (hp.fromPeer_iff w e).1) hstart
  · exact h.promises (fun p e hp _ => hkeep p e hp) (fun p e hp => (hp.fromPeer_iff w e).2) hstart
  · rcases (run_invariant hkeep hstart events).passes w e with
      ⟨-,hsame⟩ | ⟨-,hn,hs,data,hheard,hstun,hnew⟩
    · exact .inl hsame
    · exact .inr ⟨hn,hs,_,hheard,hstun,hnew⟩

/-- Somebody who only knows the port sends three bytes to a connected session. -/
theorem stranger_is_heard :
    ¬∀ (w : IceWorld) (controlling : Bool) (config : IceConfig) (ufrag pwd : Bytes)
      (tieBreaker : UInt64) (events : List IceEvent),
      Along (Intake.act w) (FromPeer w)
        ⟨IceSession.create controlling config ufrag pwd tieBreaker,none⟩ events := by
  intro h
  have hstep := (h lanWorld false ⟨[],3⟩ [] [] 0 ([.gather,.arrive lanPeer signedCheck,.run 0,
    .arrive ⟨loopback,9⟩ [1,2,3]] ++ [.run 0])).inside
  rcases hstep with hsame | ⟨-,-,d,hd,hpeer,-⟩
  · exact absurd hsame (by decide +kernel)
  · have hheard : some d = some (⟨loopback,9⟩,[1,2,3]) := hd.symm.trans (by decide +kernel)
    cases hheard
    exact absurd hpeer (by decide +kernel)

end GoodNet.Ice
