import GoodNet.SendFootprint
import GoodNet.KeptFields
import GoodNet.ManagerRun
import GoodNet.Lib.History
import GoodNet.Lib.Interleaving
set_option autoImplicit false

/-! The heartbeat monitor of one connection: runs of `check_heartbeat_timeouts` and arrivals of
heartbeat payloads, with the history of both. -/

namespace GoodNet
open Codec History Interleaving

/-- What a check calls for a connection. -/
inductive HeartbeatCall where
  | ping | disconnect
  deriving DecidableEq, Repr

/-- A PONG, or a check of the established connection with the calls it made, and the clock. -/
inductive Beat where
  | pong (now : Nat)
  | check (now : Nat) (calls : List HeartbeatCall)
  deriving DecidableEq, Repr

def Beat.isCheck : Beat → Bool
  | .pong _ => false
  | .check _ _ => true

def Beat.now : Beat → Nat
  | .pong now => now
  | .check now _ => now

def Beat.calls : Beat → List HeartbeatCall
  | .pong _ => []
  | .check _ calls => calls

theorem takeWhile_check (now : Nat) (calls : List HeartbeatCall) (older : List Beat) :
    (Beat.check now calls :: older).takeWhile Beat.isCheck =
      .check now calls :: older.takeWhile Beat.isCheck := rfl

/-- The time of the last PONG or, before any came, of the first check. -/
def mark : List Beat → Option Nat
  | [] => none
  | .pong now :: _ => some now
  | .check now _ :: older => some ((mark older).getD now)

/-- The checks since the last PONG that found more than the interval gone since the mark. -/
def misses (history : List Beat) : Nat :=
  ((history.takeWhile Beat.isCheck).filter
    (fun b => heartbeatInterval < b.now-(mark history).getD 0)).length

def pings (history : List Beat) : Nat :=
  (history.map (fun b => b.calls.count .ping)).sum

/-- A PING has been sent and no PONG came since. -/
def owed (history : List Beat) : Bool :=
  (history.takeWhile Beat.isCheck).any (fun b => b.calls.contains .ping)

theorem misses_pong (now : Nat) (older : List Beat) : misses (.pong now :: older) = 0 := rfl

theorem mark_eq_none {history : List Beat} (h : mark history = none) : history = [] := by
  cases history with
  | nil => rfl
  | cons b older => cases b <;> simp [mark] at h

theorem misses_check (now : Nat) (calls : List HeartbeatCall) (older : List Beat) :
    misses (.check now calls :: older) =
      misses older+(if heartbeatInterval < now-(mark older).getD now then 1 else 0) := by
  cases hm : mark older with
  | none =>
    rw [mark_eq_none hm]
    simp [misses,mark,takeWhile_check,Beat.now]
  | some t =>
    simp only [misses,takeWhile_check,mark,hm,Option.getD_some,List.filter_cons,Beat.now]
    by_cases hlate : heartbeatInterval < now-t
    · simp [hlate]
    · simp [hlate]

/-- What the checks of a history must have called: `disconnect` at three misses or more only,
one PING for a miss below three, and nothing without a miss. -/
def BeatSound (b : Beat) (older : List Beat) : Prop :=
  match b with
  | .pong _ => True
  | .check now calls =>
    (.disconnect ∈ calls → 3 ≤ misses (.check now calls :: older)) ∧
    (misses (.check now calls :: older) = misses older+1 →
      misses (.check now calls :: older) < 3 → calls = [.ping]) ∧
    (misses (.check now calls :: older) = misses older → calls = [])

/-- A miss is counted only after a PING that is still to be answered. -/
theorem owed_of_misses {history : List Beat} (h : Justified BeatSound history)
    (hm : 0 < misses history) : owed history = true := by
  induction history with
  | nil => simp [misses] at hm
  | cons b older ih =>
    cases b with
    | pong now => simp [misses_pong] at hm
    | check now calls =>
      have hstep := misses_check now calls older
      have hlater : owed older = true → owed (.check now calls :: older) = true := by
        intro ho
        simp only [owed,takeWhile_check,List.any_cons] at ho ⊢
        rw [ho,Bool.or_true]
      by_cases hz : misses older = 0
      · have hone : misses (.check now calls :: older) = misses older+1 := by
          split at hstep <;> omega
        have hcalls := h.1.2.1 hone (by omega)
        subst hcalls
        simp [owed,takeWhile_check,Beat.calls]
      · exact hlater (ih h.2 (Nat.pos_of_ne_zero hz))

/-- A peer that answers every PING before the next check. -/
def Answered : List Beat → Prop
  | [] => True
  | .pong _ :: older => Answered older
  | .check _ _ :: older => owed older = false ∧ Answered older

theorem Answered.never_disconnected {history : List Beat} (ha : Answered history)
    (h : Justified BeatSound history) {b : Beat} (hb : b ∈ history) : .disconnect ∉ b.calls := by
  induction history with
  | nil => simp at hb
  | cons c older ih =>
    rcases List.mem_cons.1 hb with rfl | hold
    · cases b with
      | pong now => simp [Beat.calls]
      | check now calls =>
        intro hd
        have hthree := h.1.1 hd
        have hnone : misses older = 0 := by
          by_contra hz
          exact absurd (owed_of_misses h.2 (Nat.pos_of_ne_zero hz)) (by simp [ha.1])
        rw [misses_check,hnone] at hthree
        split at hthree <;> omega
    · cases c with
      | pong now => exact ih ha h.2 hold
      | check now calls => exact ih ha.2 h.2 hold

/-- The calls the loop decides on for a record at `now`. -/
def ConnectionRecord.beatCalls (r : ConnectionRecord) (now : Nat) : List HeartbeatCall :=
  if r.lastHeartbeatRecv = 0 then []
  else if Int.ofNat now-r.lastHeartbeatRecv ≤ Int.ofNat heartbeatInterval then []
  else if maxMissedHeartbeats ≤ r.missedHeartbeats+1 then [.disconnect]
  else [.ping]

def HeartbeatCall.perform (env : Env) (id : Nat) (st : Impl) : HeartbeatCall → Impl
  | .ping => st.sendHeartbeat env id
  | .disconnect => st.disconnect env id

/-- What the loop writes to a record at `now`. -/
def Impl.noteBeat (st : Impl) (now id : Nat) (r : ConnectionRecord) : Impl :=
  if r.lastHeartbeatRecv = 0 then
    st.modify id (fun r => { r with lastHeartbeatRecv := Int.ofNat now })
  else if Int.ofNat now-r.lastHeartbeatRecv ≤ Int.ofNat heartbeatInterval then st
  else st.modify id (fun r' => { r' with missedHeartbeats := r.missedHeartbeats+1 })

theorem Impl.checkHeartbeat_calls (env : Env) (now : Nat) {st : Impl} {id : Nat}
    {r : ConnectionRecord} (hr : st.find id = some r) (he : r.established = true) :
    st.checkHeartbeat env now id =
      (r.beatCalls now).foldl (HeartbeatCall.perform env id) (st.noteBeat now id r) := by
  simp only [checkHeartbeat,hr,he,Bool.not_true,Bool.false_eq_true,if_false,
    ConnectionRecord.beatCalls,noteBeat]
  split
  · rfl
  · split
    · rfl
    · split <;> rfl

/-- The manager, and what happened to the connection that is watched. -/
structure HeartbeatWatch where
  st : Impl
  history : List Beat := []

def Impl.beat (st : Impl) (now id : Nat) : List Beat :=
  match st.find id with
  | some r => if r.established then [.check now (r.beatCalls now)] else []
  | none => []

/-- The loop of `check_heartbeat_timeouts`. -/
def HeartbeatWatch.loop (env : Env) (id now : Nat) : List Nat → HeartbeatWatch → HeartbeatWatch
  | [], m => m
  | j :: rest, m =>
    HeartbeatWatch.loop env id now rest
      ⟨m.st.checkHeartbeat env now j,
        if j = id then m.st.beat now id ++ m.history else m.history⟩

inductive HeartbeatStep where
  | check
  | arrive (payload : Bytes)
  deriving DecidableEq, Repr

def isPong (payload : Bytes) : Bool :=
  decide (heartbeatPayloadSize ≤ payload.length) && (HeartbeatPayload.decode payload).flags == 1

def HeartbeatWatch.act (env : Env) (id : Nat) (m : HeartbeatWatch) :
    HeartbeatStep → HeartbeatWatch
  | .check => HeartbeatWatch.loop env id (env.steady m.st.asked) m.st.ids ⟨m.st.ask,m.history⟩
  | .arrive payload =>
    ⟨m.st.handleHeartbeat env id payload,
      if isPong payload then .pong (env.steady m.st.asked) :: m.history else m.history⟩

theorem HeartbeatWatch.loop_st (env : Env) (id now : Nat) (ids : List Nat) (m : HeartbeatWatch) :
    (HeartbeatWatch.loop env id now ids m).st = ids.foldl (Impl.checkHeartbeat env now) m.st := by
  induction ids generalizing m with
  | nil => rfl
  | cons j rest ih => exact ih _

theorem HeartbeatWatch.act_check (env : Env) (id : Nat) (m : HeartbeatWatch) :
    (m.act env id .check).st = m.st.checkHeartbeatTimeouts env := HeartbeatWatch.loop_st _ _ _ _ _

/-- The fields of the monitor. -/
def ConnectionRecord.pulse (r : ConnectionRecord) : UInt32 × Int × UInt32 :=
  (r.missedHeartbeats,r.lastHeartbeatRecv,r.heartbeatSeq)

theorem pulse_sendFrame {env : Env} {st : Impl} {i id : Nat} {msgType : UInt32} {payload : Bytes}
    {r' : ConnectionRecord} (h : (st.sendFrame env i msgType payload).find id = some r') :
    ∃ r, st.find id = some r ∧ r'.pulse = r.pulse := by
  obtain ⟨r,hr,heq⟩ := (st.sendFrame_footprint env i msgType payload).find_some h
  exact ⟨r,hr,ConnectionRecord.unsent_field ConnectionRecord.pulse (fun _ => rfl) heq.symm⟩

theorem pulse_disconnect {env : Env} {st : Impl} {i id : Nat} {r' : ConnectionRecord}
    (h : (st.disconnect env i).find id = some r') :
    ∃ r, st.find id = some r ∧ r'.pulse = r.pulse :=
  st.disconnect_keeps i (fun _ _ => rfl) id r' h

/-- The check of another connection. -/
theorem pulse_checkHeartbeat_ne {env : Env} {now : Nat} {st : Impl} {j id : Nat} (hj : id ≠ j)
    {r' : ConnectionRecord} (h : (st.checkHeartbeat env now j).find id = some r') :
    ∃ r, st.find id = some r ∧ r'.pulse = r.pulse := by
  have hmod : ∀ (st : Impl) f, (st.modify j f).find id = st.find id := by
    intro st f
    rw [Impl.find_modify,if_neg hj]
  unfold Impl.checkHeartbeat at h
  split at h
  · exact ⟨r',h,rfl⟩
  · split at h
    · exact ⟨r',h,rfl⟩
    · split at h
      · rw [hmod] at h
        exact ⟨r',h,rfl⟩
      · split at h
        · exact ⟨r',h,rfl⟩
        · dsimp only at h
          split at h
          · obtain ⟨r,hr,hp⟩ := pulse_disconnect h
            rw [hmod] at hr
            exact ⟨r,hr,hp⟩
          · unfold Impl.sendHeartbeat at h
            split at h
            · rw [hmod] at h
              exact ⟨r',h,rfl⟩
            · split at h
              · rw [hmod] at h
                exact ⟨r',h,rfl⟩
              · obtain ⟨r,hr,hp⟩ := pulse_sendFrame h
                rw [hmod,Impl.find_ask,hmod] at hr
                exact ⟨r,hr,hp⟩

/-- A PING takes a number, and nothing else of the monitor. -/
theorem pulse_sendHeartbeat {env : Env} {st : Impl} {id : Nat} {r r' : ConnectionRecord}
    (hr : st.find id = some r) (he : r.established = true)
    (h : (st.sendHeartbeat env id).find id = some r') :
    r'.pulse = (r.missedHeartbeats,r.lastHeartbeatRecv,r.heartbeatSeq+1) := by
  unfold Impl.sendHeartbeat at h
  simp only [hr,he,Bool.not_true,Bool.false_eq_true,if_false] at h
  obtain ⟨r₀,hr₀,hp⟩ := pulse_sendFrame h
  rw [Impl.find_modify_self,Impl.find_ask,hr,Option.map_some,Option.some.injEq] at hr₀
  rw [hp,← hr₀]
  rfl

/-- The record of the watched connection and its history tell the same. -/
structure Watched (id : Nat) (seq : UInt32) (m : HeartbeatWatch) : Prop where
  sound : Justified BeatSound m.history
  marked : ∀ t, mark m.history = some t → 0 < t
  pulse : ∀ r, m.st.find id = some r →
    r.pulse = (UInt32.ofNat (misses m.history),Int.ofNat ((mark m.history).getD 0),
      seq+UInt32.ofNat (pings m.history))

theorem Watched.keep {id : Nat} {seq : UInt32} {m : HeartbeatWatch} (h : Watched id seq m)
    {st' : Impl} (hk : ∀ r', st'.find id = some r' →
      ∃ r, m.st.find id = some r ∧ r'.pulse = r.pulse) : Watched id seq ⟨st',m.history⟩ where
  sound := h.sound
  marked := h.marked
  pulse := by
    intro r' hr'
    obtain ⟨r,hr,hp⟩ := hk r' hr'
    rw [hp,h.pulse r hr]

theorem pings_check (now : Nat) (calls : List HeartbeatCall) (older : List Beat) :
    pings (.check now calls :: older) = calls.count .ping+pings older := by
  simp [pings,Beat.calls]

theorem reached_iff (n : Nat) (h : maxMissedHeartbeats ≤ UInt32.ofNat n+1) : 3 ≤ n+1 := by
  have hn := UInt32.le_iff_toNat_le.1 h
  simp only [maxMissedHeartbeats,UInt32.toNat_add,UInt32.toNat_ofNat'] at hn
  have : (n%2^32+1)%2^32 ≤ n+1 := by omega
  exact le_trans hn this

theorem not_reached {n : Nat} (h : n+1 < 3) : ¬ maxMissedHeartbeats ≤ UInt32.ofNat n+1 := by
  intro hr
  have := reached_iff n hr
  omega

section
variable {env : Env} {id : Nat} {seq : UInt32} {m : HeartbeatWatch}

/-- A check that finds nothing to count. -/
theorem Watched.calm (h : Watched id seq m) {now : Nat} (hnow : 0 < now) {st' : Impl}
    (hmiss : ¬ heartbeatInterval < now-(mark m.history).getD now)
    (hk : ∀ r', st'.find id = some r' → r'.pulse =
      (UInt32.ofNat (misses m.history),Int.ofNat ((mark m.history).getD now),
        seq+UInt32.ofNat (pings m.history))) :
    Watched id seq ⟨st',.check now [] :: m.history⟩ := by
  have hcount : misses (.check now [] :: m.history) = misses m.history := by
    rw [misses_check,if_neg hmiss,Nat.add_zero]
  refine ⟨⟨⟨by simp,?_,fun _ => rfl⟩,h.sound⟩,?_,?_⟩
  · intro hone
    omega
  · intro t ht
    simp only [mark,Option.some.injEq] at ht
    cases hm : mark m.history with
    | none =>
      rw [hm,Option.getD_none] at ht
      exact ht ▸ hnow
    | some u =>
      rw [hm,Option.getD_some] at ht
      exact ht ▸ h.marked u hm
  · intro r' hr'
    rw [hk r' hr',hcount,pings_check]
    simp [mark]

/-- A check that counts a miss. -/
theorem Watched.miss (h : Watched id seq m) {now : Nat} {calls : List HeartbeatCall} {st' : Impl}
    {t : Nat} (ht : mark m.history = some t) (hmiss : heartbeatInterval < now-t)
    (hcalls : calls = [.disconnect] ∧ maxMissedHeartbeats ≤ UInt32.ofNat (misses m.history)+1 ∨
      calls = [.ping])
    (hk : ∀ r', st'.find id = some r' → r'.pulse =
      (UInt32.ofNat (misses m.history)+1,Int.ofNat t,
        seq+UInt32.ofNat (calls.count .ping+pings m.history)))
    (hping : ¬ maxMissedHeartbeats ≤ UInt32.ofNat (misses m.history)+1 → calls = [.ping]) :
    Watched id seq ⟨st',.check now calls :: m.history⟩ := by
  have hcount : misses (.check now calls :: m.history) = misses m.history+1 := by
    rw [misses_check,ht,Option.getD_some,if_pos hmiss]
  refine ⟨⟨⟨?_,?_,?_⟩,h.sound⟩,?_,?_⟩
  · intro hd
    rcases hcalls with ⟨-,hreach⟩ | rfl
    · rw [hcount]
      exact reached_iff _ hreach
    · simp at hd
  · intro _ hlt
    rw [hcount] at hlt
    exact hping (not_reached hlt)
  · intro hsame
    omega
  · intro u hu
    simp only [mark,ht,Option.getD_some,Option.some.injEq] at hu
    exact hu ▸ h.marked t ht
  · intro r' hr'
    rw [hk r' hr',hcount,pings_check,UInt32.ofNat_add]
    simp [mark,ht]

theorem Watched.check (h : Watched id seq m) {now : Nat} (hnow : 0 < now) :
    Watched id seq ⟨m.st.checkHeartbeat env now id,m.st.beat now id ++ m.history⟩ := by
  cases hr : m.st.find id with
  | none =>
    simp only [Impl.beat,Impl.checkHeartbeat,hr,List.nil_append]
    exact h
  | some r =>
    cases he : r.established with
    | false =>
      simp only [Impl.beat,Impl.checkHeartbeat,hr,he,Bool.not_false,if_true,Bool.false_eq_true,
        if_false,List.nil_append]
      exact h
    | true =>
      have hp := h.pulse r hr
      simp only [ConnectionRecord.pulse,Prod.mk.injEq] at hp
      obtain ⟨hmissed,hlast,hseq⟩ := hp
      rw [Impl.checkHeartbeat_calls env now hr he]
      simp only [Impl.beat,hr,he,if_true,List.singleton_append]
      by_cases hzero : r.lastHeartbeatRecv = 0
      · -- the first check of the connection
        have hmark : mark m.history = none := by
          cases hm : mark m.history with
          | none => rfl
          | some t =>
            have := h.marked t hm
            rw [hm,Option.getD_some,hzero] at hlast
            simp only [Int.ofNat_eq_natCast] at hlast
            omega
        simp only [ConnectionRecord.beatCalls,Impl.noteBeat,hzero,if_true,List.foldl_nil]
        refine h.calm hnow (by simp [hmark]) (fun r' hr' => ?_)
        rw [Impl.find_modify_self,hr,Option.map_some,Option.some.injEq] at hr'
        rw [← hr']
        simp only [ConnectionRecord.pulse,hmissed,hmark,Option.getD_none,hseq]
      · obtain ⟨t,ht⟩ : ∃ t, mark m.history = some t := by
          cases hm : mark m.history with
          | none =>
            rw [hm] at hlast
            exact absurd hlast hzero
          | some t => exact ⟨t,rfl⟩
        rw [ht,Option.getD_some] at hlast
        by_cases hearly : Int.ofNat now-r.lastHeartbeatRecv ≤ Int.ofNat heartbeatInterval
        · simp only [ConnectionRecord.beatCalls,Impl.noteBeat,hzero,hearly,if_false,if_true,
            List.foldl_nil]
          have hin : ¬ heartbeatInterval < now-(mark m.history).getD now := by
            rw [ht,Option.getD_some]
            rw [hlast] at hearly
            simp only [Int.ofNat_eq_natCast] at hearly
            omega
          refine h.calm hnow hin (fun r' hr' => ?_)
          rw [h.pulse r' hr',ht]
          simp
        · have hlate : heartbeatInterval < now-t := by
            rw [hlast] at hearly
            simp only [Int.ofNat_eq_natCast] at hearly
            omega
          have hnoted : (m.st.modify id
              (fun r' => { r' with missedHeartbeats := r.missedHeartbeats+1 })).find id =
              some { r with missedHeartbeats := r.missedHeartbeats+1 } := by
            rw [Impl.find_modify_self,hr,Option.map_some]
          by_cases hreach : maxMissedHeartbeats ≤ r.missedHeartbeats+1
          · simp only [ConnectionRecord.beatCalls,Impl.noteBeat,hzero,hearly,hreach,if_false,
              if_true,List.foldl_cons,List.foldl_nil,HeartbeatCall.perform]
            rw [hmissed] at hreach
            refine h.miss ht hlate (.inl ⟨rfl,hreach⟩) (fun r' hr' => ?_)
              (fun hn => absurd hreach hn)
            obtain ⟨r₁,hr₁,hp₁⟩ := pulse_disconnect hr'
            rw [hnoted,Option.some.injEq] at hr₁
            rw [hp₁,← hr₁]
            simp [ConnectionRecord.pulse,hmissed,hlast,hseq]
          · simp only [ConnectionRecord.beatCalls,Impl.noteBeat,hzero,hearly,hreach,if_false,
              List.foldl_cons,List.foldl_nil,HeartbeatCall.perform]
            refine h.miss ht hlate (.inr rfl) (fun r' hr' => ?_) (fun _ => rfl)
            have hnumber : r.heartbeatSeq+1 = seq+UInt32.ofNat (1+pings m.history) := by
              rw [hseq,UInt32.ofNat_add,UInt32.add_comm (UInt32.ofNat 1),UInt32.add_assoc]
              rfl
            rw [pulse_sendHeartbeat hnoted he hr']
            simp [hmissed,hlast,hnumber]

theorem Watched.loop (h : Watched id seq m) {now : Nat} (hnow : 0 < now) (ids : List Nat) :
    Watched id seq (HeartbeatWatch.loop env id now ids m) := by
  induction ids generalizing m with
  | nil => exact h
  | cons j rest ih =>
    refine ih ?_
    by_cases hj : j = id
    · subst hj
      rw [if_pos rfl]
      exact h.check hnow
    · rw [if_neg hj]
      exact h.keep (fun r' hr' => pulse_checkHeartbeat_ne (Ne.symm hj) hr')

theorem pulse_recordRtt (r : ConnectionRecord) (rtt : Nat) : (r.recordRtt rtt).pulse = r.pulse := by
  unfold ConnectionRecord.recordRtt
  split <;> rfl

theorem pulse_pong (r : ConnectionRecord) (steady wall : Nat) (hb : HeartbeatPayload) :
    (r.pong steady wall hb).pulse = (0,Int.ofNat steady,r.heartbeatSeq) := by
  unfold ConnectionRecord.pong
  dsimp only
  split
  · exact pulse_recordRtt _ _
  · rfl

theorem pulse_heardPaths (r : ConnectionRecord) (info : List PeerPathInfo) :
    (r.heardPaths info).pulse = r.pulse := by
  unfold ConnectionRecord.heardPaths
  split <;> rfl

theorem pulse_modify {st : Impl} {f : ConnectionRecord → ConnectionRecord} {r' : ConnectionRecord}
    (hf : ∀ r, (f r).pulse = r.pulse) (h : (st.modify id f).find id = some r') :
    ∃ r, st.find id = some r ∧ r'.pulse = r.pulse := by
  rw [Impl.find_modify_self] at h
  obtain ⟨r,hr,rfl⟩ := Option.map_eq_some_iff.1 h
  exact ⟨r,hr,hf r⟩

theorem Watched.arrive (h : Watched id seq m) (hclock : ∀ i, 0 < env.steady i) (payload : Bytes) :
    Watched id seq (m.act env id (.arrive payload)) := by
  have hheard : ∀ r', (m.st.modify id
      (fun r => r.heardPaths (parseHeartbeatExtension payload))).find id = some r' →
      ∃ r, m.st.find id = some r ∧ r'.pulse = r.pulse :=
    fun r' => pulse_modify (fun r => pulse_heardPaths r _)
  have hkind : isPong payload = (decide (heartbeatPayloadSize ≤ payload.length) &&
      (HeartbeatPayload.decode payload).flags == 1) := rfl
  simp only [HeartbeatWatch.act,Impl.handleHeartbeat]
  by_cases hshort : payload.length < heartbeatPayloadSize
  · have hno : isPong payload = false := by simp [hkind,hshort]
    rw [if_pos hshort,hno]
    exact h
  · have hlong : heartbeatPayloadSize ≤ payload.length := Nat.le_of_not_lt hshort
    rw [if_neg hshort]
    by_cases hping : (HeartbeatPayload.decode payload).flags = 0
    · have hno : isPong payload = false := by simp [hkind,hping]
      rw [if_pos hping,hno]
      refine h.keep (fun r' hr' => ?_)
      obtain ⟨r,hr,hp⟩ := pulse_sendFrame hr'
      obtain ⟨r₀,hr₀,hp₀⟩ := hheard r hr
      exact ⟨r₀,hr₀,hp.trans hp₀⟩
    · rw [if_neg hping]
      by_cases hpong : (HeartbeatPayload.decode payload).flags = 1
      · have hyes : isPong payload = true := by simp [hkind,hlong,hpong]
        rw [if_pos hpong,hyes,if_pos rfl]
        refine ⟨⟨trivial,h.sound⟩,?_,?_⟩
        · intro t ht
          simp only [mark,Option.some.injEq] at ht
          exact ht ▸ hclock _
        · intro r' hr'
          rw [Impl.find_modify_self,Impl.find_ask] at hr'
          obtain ⟨r,hr,rfl⟩ := Option.map_eq_some_iff.1 hr'
          obtain ⟨r₀,hr₀,hp₀⟩ := hheard r hr
          have hseq : r.heartbeatSeq = seq+UInt32.ofNat (pings m.history) := by
            have hp := h.pulse r₀ hr₀
            rw [← hp₀] at hp
            simp only [ConnectionRecord.pulse,Prod.mk.injEq] at hp
            exact hp.2.2
          rw [pulse_pong,misses_pong,hseq]
          simp [mark,pings,Beat.calls,Impl.modify]
      · have hno : isPong payload = false := by simp [hkind,hpong]
        rw [if_neg hpong,hno]
        exact h.keep hheard

theorem Watched.act (h : Watched id seq m) (hclock : ∀ i, 0 < env.steady i) (step : HeartbeatStep) :
    Watched id seq (m.act env id step) := by
  cases step with
  | check =>
    have hask : Watched id seq ⟨m.st.ask,m.history⟩ := h.keep (fun r' hr' => ⟨r',hr',rfl⟩)
    exact hask.loop (hclock _) _
  | arrive payload => exact h.arrive hclock payload

theorem Watched.run (h : Watched id seq m) (hclock : ∀ i, 0 < env.steady i)
    (steps : List HeartbeatStep) : Watched id seq (run (HeartbeatWatch.act env id) m steps) :=
  run_invariant (fun _ step hs => hs.act hclock step) h steps

end

/-- A connection that no heartbeat has come to yet. -/
theorem watched_start {st : Impl} {id : Nat} {r : ConnectionRecord} (hr : st.find id = some r)
    (hl : r.lastHeartbeatRecv = 0) (hm : r.missedHeartbeats = 0) :
    Watched id r.heartbeatSeq ⟨st,[]⟩ := by
  refine ⟨trivial,by simp [mark],?_⟩
  intro r' hr'
  rw [hr,Option.some.injEq] at hr'
  rw [← hr']
  simp [ConnectionRecord.pulse,hl,hm,misses,mark,pings]

/-- The counter is a `uint32_t`, so it tells the number of misses modulo 2^32. What it decides
is what the number of misses would decide. -/
theorem heartbeats_counted {env : Env} (hclock : ∀ i, 0 < env.steady i) {st : Impl} {id : Nat}
    {r : ConnectionRecord} (hr : st.find id = some r) (hl : r.lastHeartbeatRecv = 0)
    (hm : r.missedHeartbeats = 0) (steps : List HeartbeatStep) :
    (∀ r', (run (HeartbeatWatch.act env id) ⟨st,[]⟩ steps).st.find id = some r' →
      r'.missedHeartbeats =
          UInt32.ofNat (misses (run (HeartbeatWatch.act env id) ⟨st,[]⟩ steps).history) ∧
        r'.heartbeatSeq = r.heartbeatSeq+
          UInt32.ofNat (pings (run (HeartbeatWatch.act env id) ⟨st,[]⟩ steps).history)) ∧
    Justified BeatSound (run (HeartbeatWatch.act env id) ⟨st,[]⟩ steps).history ∧
    (Answered (run (HeartbeatWatch.act env id) ⟨st,[]⟩ steps).history →
      ∀ b ∈ (run (HeartbeatWatch.act env id) ⟨st,[]⟩ steps).history, .disconnect ∉ b.calls) := by
  have hw := (watched_start hr hl hm).run hclock steps
  refine ⟨?_,hw.sound,fun ha b hb => ha.never_disconnected hw.sound hb⟩
  intro r' hr'
  have hp := hw.pulse r' hr'
  simp only [ConnectionRecord.pulse,Prod.mk.injEq] at hp
  exact ⟨hp.1,hp.2.2⟩

section
variable {env : Env}

/-- With connectors that never report a close, `disconnect` only asks them to close. -/
theorem Impl.closeVia_footprint (hc : ∀ i, env.closes i = false) (st : Impl) (scheme : String)
    (via : Nat) : Footprint (fun _ => True) st (st.closeVia env scheme via).1 := by
  unfold closeVia
  split
  · split
    · simp only [closed,hc,Bool.false_eq_true,if_false]
      exact (Footprint.emit st trivial).trans (Footprint.ask _)
    · exact Footprint.refl st
  · exact Footprint.refl st

theorem Impl.disconnect_footprint (hc : ∀ i, env.closes i = false) (st : Impl) (id : Nat) :
    Footprint (fun _ => True) st (st.disconnect env id) := by
  have hpaths : ∀ (paths : List TransportPath) (st : Impl),
      Footprint (fun _ => True) st (st.closePaths (Impl.closeVia env) paths).1 := by
    intro paths
    induction paths with
    | nil => exact Footprint.refl
    | cons p ps ih => exact fun st => (closeVia_footprint hc st _ _).trans (ih _)
  have hdrain : Footprint (fun _ => True) st (st.markDraining id) := by
    unfold markDraining
    split
    · exact Footprint.setQueue st id _
    · exact Footprint.refl st
  unfold disconnect
  dsimp only
  split
  · exact hdrain
  · split
    · exact hdrain.trans (hpaths _ _)
    · exact (hdrain.trans (hpaths _ _)).trans (closeVia_footprint hc _ _ _)

/-- The manager holds one record, the established one that is watched, and the last mark is
behind the clock. -/
structure Alone (env : Env) (id n : Nat) (m : HeartbeatWatch) : Prop where
  found : ∃ r, m.st.find id = some r ∧ r.established = true
  ids : m.st.ids = [id]
  marked : ∃ k < m.st.asked, mark m.history = some (env.steady k)
  count : misses m.history = n

theorem established_unsent {a b : ConnectionRecord} (h : a.unsent = b.unsent) :
    a.established = b.established :=
  ConnectionRecord.unsent_field ConnectionRecord.established (fun _ => rfl) h

theorem Footprint.alone {allowed : Effect → Prop} {st st' : Impl} {id : Nat}
    (hf : Footprint allowed st st') (h : ∃ r, st.find id = some r ∧ r.established = true) :
    ∃ r, st'.find id = some r ∧ r.established = true := by
  obtain ⟨r,hr,he⟩ := h
  obtain ⟨r',hr',heq⟩ := hf.found hr
  exact ⟨r',hr',(established_unsent heq).trans he⟩

theorem Impl.sendHeartbeat_stays (env : Env) (st : Impl) {id : Nat}
    (h : ∃ r, st.find id = some r ∧ r.established = true) :
    (∃ r, (st.sendHeartbeat env id).find id = some r ∧ r.established = true) ∧
      (st.sendHeartbeat env id).ids.Perm st.ids ∧ st.asked ≤ (st.sendHeartbeat env id).asked := by
  obtain ⟨r,hr,he⟩ := h
  have hnumbered : (st.ask.modify id (fun r => { r with heartbeatSeq := r.heartbeatSeq+1 })).find id =
      some { r with heartbeatSeq := r.heartbeatSeq+1 } := by
    rw [find_modify_self,find_ask,hr,Option.map_some]
  simp only [sendHeartbeat,hr,he,Bool.not_true,Bool.false_eq_true,if_false]
  have hf := (st.ask.modify id (fun r =>
    { r with heartbeatSeq := r.heartbeatSeq+1 })).sendFrame_footprint env id msgTypeHeartbeat
      ((⟨UInt64.ofNat (env.wall st.asked),r.heartbeatSeq,0⟩ : HeartbeatPayload).encode ++
        heartbeatExtension r.transportPaths)
  refine ⟨hf.alone ⟨_,hnumbered,he⟩,hf.ids.trans (st.ask.ids_modify id _),?_⟩
  exact (Nat.le_succ st.asked).trans hf.asked

/-- The check leaves the record in place. -/
theorem Impl.checkHeartbeat_stays (hc : ∀ i, env.closes i = false) (now : Nat) {st : Impl}
    {id : Nat} (h : ∃ r, st.find id = some r ∧ r.established = true) :
    (∃ r, (st.checkHeartbeat env now id).find id = some r ∧ r.established = true) ∧
      (st.checkHeartbeat env now id).ids.Perm st.ids ∧
      st.asked ≤ (st.checkHeartbeat env now id).asked := by
  obtain ⟨r,hr,he⟩ := h
  have hmod : ∀ f : ConnectionRecord → ConnectionRecord, (f r).established = true →
      ∃ r, (st.modify id f).find id = some r ∧ r.established = true :=
    fun f hf => ⟨f r,by rw [find_modify_self,hr,Option.map_some],hf⟩
  rw [checkHeartbeat_calls env now hr he]
  simp only [ConnectionRecord.beatCalls,noteBeat]
  split
  · exact ⟨hmod _ he,st.ids_modify id _,Nat.le_refl _⟩
  · split
    · exact ⟨⟨r,hr,he⟩,List.Perm.refl _,Nat.le_refl _⟩
    · have hstart := hmod (fun r' => { r' with missedHeartbeats := r.missedHeartbeats+1 }) he
      split
      · have hf := (st.modify id (fun r' =>
          { r' with missedHeartbeats := r.missedHeartbeats+1 })).disconnect_footprint hc id
        exact ⟨hf.alone hstart,hf.ids.trans (st.ids_modify id _),hf.asked⟩
      · obtain ⟨hfound,hids,hasked⟩ := (st.modify id (fun r' =>
          { r' with missedHeartbeats := r.missedHeartbeats+1 })).sendHeartbeat_stays env hstart
        exact ⟨hfound,hids.trans (st.ids_modify id _),hasked⟩

theorem HeartbeatWatch.act_alone {id : Nat} {m : HeartbeatWatch} (hi : m.st.ids = [id])
    (h : ∃ r, m.st.find id = some r ∧ r.established = true) :
    ∃ calls, m.act env id .check =
      ⟨m.st.ask.checkHeartbeat env (env.steady m.st.asked) id,
        .check (env.steady m.st.asked) calls :: m.history⟩ := by
  obtain ⟨r,hr,he⟩ := h
  refine ⟨r.beatCalls (env.steady m.st.asked),?_⟩
  simp only [act,hi,loop,if_true,Impl.beat,Impl.find_ask,hr,he,List.singleton_append]

/-- With a clock that leaves more than the interval between two readings, every check after
the first counts a miss. -/
theorem Alone.check (hc : ∀ i, env.closes i = false)
    (hclock : ∀ i j, i < j → heartbeatInterval < env.steady j-env.steady i) {id n : Nat}
    {m : HeartbeatWatch} (h : Alone env id n m) : Alone env id (n+1) (m.act env id .check) := by
  obtain ⟨calls,hact⟩ := HeartbeatWatch.act_alone h.ids h.found
  obtain ⟨k,hk,hmark⟩ := h.marked
  have hask : ∃ r, m.st.ask.find id = some r ∧ r.established = true := h.found
  obtain ⟨hfound,hids,hasked⟩ := m.st.ask.checkHeartbeat_stays hc (env.steady m.st.asked) hask
  have hone : m.st.ask.ids = [id] := h.ids
  have hnext : m.st.asked < m.st.ask.asked := Nat.lt_succ_self _
  rw [hact]
  refine ⟨hfound,List.perm_singleton.1 (hone ▸ hids),⟨k,?_,?_⟩,?_⟩
  · exact hk.trans (hnext.trans_le hasked)
  · simp [mark,hmark]
  · rw [misses_check,hmark,Option.getD_some,if_pos (hclock k _ hk),h.count]

theorem Alone.first (hc : ∀ i, env.closes i = false) {id : Nat} {m : HeartbeatWatch}
    (hf : ∃ r, m.st.find id = some r ∧ r.established = true) (hi : m.st.ids = [id])
    (hh : m.history = []) : Alone env id 0 (m.act env id .check) := by
  obtain ⟨calls,hact⟩ := HeartbeatWatch.act_alone hi hf
  have hask : ∃ r, m.st.ask.find id = some r ∧ r.established = true := hf
  obtain ⟨hfound,hids,hasked⟩ := m.st.ask.checkHeartbeat_stays hc (env.steady m.st.asked) hask
  have hone : m.st.ask.ids = [id] := hi
  rw [hact]
  refine ⟨hfound,List.perm_singleton.1 (hone ▸ hids),⟨m.st.asked,?_,?_⟩,?_⟩
  · exact (Nat.lt_succ_self _).trans_le hasked
  · simp [mark,hh]
  · rw [misses_check,hh]
    simp [mark,misses]

theorem Alone.checks (hc : ∀ i, env.closes i = false)
    (hclock : ∀ i j, i < j → heartbeatInterval < env.steady j-env.steady i) {id : Nat} (k : Nat)
    {n : Nat} {m : HeartbeatWatch} (h : Alone env id n m) :
    Alone env id (n+k) (Interleaving.run (HeartbeatWatch.act env id) m (List.replicate k .check)) := by
  induction k generalizing n m with
  | zero => exact h
  | succ k ih =>
    have hnext := ih (h.check hc hclock)
    rw [Nat.add_right_comm] at hnext
    exact hnext

/-- One check more than there are misses: the first sets the mark. -/
theorem Alone.replicate (hc : ∀ i, env.closes i = false)
    (hclock : ∀ i j, i < j → heartbeatInterval < env.steady j-env.steady i) {id : Nat} {st : Impl}
    (hf : ∃ r, st.find id = some r ∧ r.established = true) (hi : st.ids = [id]) (k : Nat) :
    Alone env id k
      (Interleaving.run (HeartbeatWatch.act env id) ⟨st,[]⟩ (List.replicate (k+1) .check)) := by
  have h := (Alone.first hc (m := ⟨st,[]⟩) hf hi rfl).checks hc hclock k
  rw [Nat.zero_add] at h
  exact h

end

/-- A clock with more than the interval between two readings. -/
def slowEnv : Env := { Env.sample false with steady := fun i => 1+i*(heartbeatInterval+1) }

theorem slowEnv_late (i j : Nat) (h : i < j) :
    heartbeatInterval < slowEnv.steady j-slowEnv.steady i := by
  obtain ⟨d,rfl⟩ := Nat.exists_eq_add_of_lt h
  simp only [slowEnv]
  have hmul : (i+d+1)*(heartbeatInterval+1) =
      i*(heartbeatInterval+1)+(d*(heartbeatInterval+1)+(heartbeatInterval+1)) := by ring
  omega

theorem slowEnv_pos (i : Nat) : 0 < slowEnv.steady i := by
  simp only [slowEnv]
  omega

/-- Alice with one established connection. -/
def slowAlice : Impl := (Impl.start NodeIdentity.alice).run slowEnv aliceConfirms

theorem slowAlice_found : ∃ r, slowAlice.find 1 = some r ∧ r.established = true ∧
    r.lastHeartbeatRecv = 0 ∧ r.missedHeartbeats = 0 := by
  have h : (slowAlice.find 1).map (fun r =>
      (r.established,r.lastHeartbeatRecv,r.missedHeartbeats)) = some (true,0,0) := by
    decide +kernel
  obtain ⟨r,hr,hfields⟩ := Option.map_eq_some_iff.1 h
  simp only [Prod.mk.injEq] at hfields
  exact ⟨r,hr,hfields⟩

theorem slowAlice_ids : slowAlice.ids = [1] := by decide +kernel

theorem heartbeats_counted_three :
    misses (run (HeartbeatWatch.act slowEnv 1) ⟨slowAlice,[]⟩ [.check,.check,.check]).history = 2 ∧
    ∀ r', (run (HeartbeatWatch.act slowEnv 1) ⟨slowAlice,[]⟩ [.check,.check,.check]).st.find 1 =
      some r' → r'.missedHeartbeats = 2 := by
  obtain ⟨r,hr,-,hl,hm⟩ := slowAlice_found
  have hcount : misses (run (HeartbeatWatch.act slowEnv 1) ⟨slowAlice,[]⟩
      [.check,.check,.check]).history = 2 := by decide +kernel
  refine ⟨hcount,fun r' hr' => ?_⟩
  have h := (heartbeats_counted slowEnv_pos hr hl hm [.check,.check,.check]).1 r' hr'
  rw [h.1,hcount]
  rfl

/-- After 2^32 misses the counter is back at zero. -/
theorem heartbeat_counter_wraps :
    ¬ ∀ r', (run (HeartbeatWatch.act slowEnv 1) ⟨slowAlice,[]⟩
        (List.replicate (2^32+1) .check)).st.find 1 = some r' →
      r'.missedHeartbeats.toNat = misses (run (HeartbeatWatch.act slowEnv 1) ⟨slowAlice,[]⟩
        (List.replicate (2^32+1) .check)).history := by
  intro hall
  obtain ⟨r,hr,he,hl,hm⟩ := slowAlice_found
  have halone := Alone.replicate (fun _ => rfl) slowEnv_late ⟨r,hr,he⟩ slowAlice_ids (2^32)
  have hwatched := (watched_start hr hl hm).run slowEnv_pos
    (List.replicate (2^32+1) .check)
  obtain ⟨r',hr',-⟩ := halone.found
  have hp := hwatched.pulse r' hr'
  simp only [ConnectionRecord.pulse,Prod.mk.injEq] at hp
  have heq := hall r' hr'
  rw [hp.1,halone.count] at heq
  exact absurd heq (by decide)

end GoodNet
