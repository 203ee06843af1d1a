import GoodNet.PendingQueue
import GoodNet.SendFootprint
import GoodNet.Lib.Expiry
set_option autoImplicit false

/-! `cleanup_stale_pending` among other threads. It reads the clock, then looks at the front of
every queue under one lock, then drops messages under another; in between, and between its reading
and the first lock, the queues change. -/

namespace GoodNet
open Codec Interleaving

/-- A call of `cleanup_stale_pending`: its reading of the clock and, after the first pass, the keys
it found. -/
structure Cleanup where
  thread : Nat
  now : Nat
  stale : Option (List String) := none
  deriving DecidableEq, Repr

structure CleanupTraffic where
  traffic : UriTraffic
  cleanups : List Cleanup := []

inductive CleanupStep where
  | uri (a : UriStep)
  | start (thread : Nat)
  | scan (thread : Nat)
  | sweep (thread : Nat)

/-- The first pass. -/
def Impl.staleUris (st : Impl) (now : Nat) : List String :=
  (st.pendingMessages.entries.filter (fun e =>
    match e.2 with
    | [] => false
    | m :: _ => decide (pendingTtl < now-m.queuedAt))).map Sigma.fst

/-- The second pass. -/
def Impl.dropStale (st : Impl) (now : Nat) (stale : List String) : Impl :=
  stale.foldl (fun st key => st.expire now key) st

namespace CleanupTraffic

/-- A thread that has no such call, or one at another point, does nothing. `expire` is no step of
its own here: it is what a sweep does. -/
def act (env : Env) (s : CleanupTraffic) : CleanupStep → CleanupTraffic
  | .uri (.expire _ _) => s
  | .uri a => { s with traffic := s.traffic.act env a }
  | .start thread =>
    if s.cleanups.any (fun c => c.thread == thread) then s
    else
      { traffic := { s.traffic with st := s.traffic.st.ask },
        cleanups := ⟨thread,env.steady s.traffic.st.asked,none⟩ :: s.cleanups }
  | .scan thread =>
    match pick (fun c => c.thread == thread && c.stale.isNone) s.cleanups with
    | none => s
    | some (c,rest) =>
      { s with cleanups := { c with stale := some (s.traffic.st.staleUris c.now) } :: rest }
  | .sweep thread =>
    match pick (fun c => c.thread == thread && c.stale.isSome) s.cleanups with
    | none => s
    | some (c,rest) =>
      { traffic := { s.traffic with st := s.traffic.st.dropStale c.now (c.stale.getD []) },
        cleanups := rest }

def run (env : Env) (s : CleanupTraffic) (steps : List CleanupStep) : CleanupTraffic :=
  Interleaving.run (act env) s steps

end CleanupTraffic

/-- No queue is there without a message. -/
def Impl.NoneEmpty (st : Impl) : Prop := ∀ key, st.pendingMessages.lookup key ≠ some []

/-- The clock has not gone back, and of the queues each is gone, as it was, or one message longer. -/
structure Impl.Turns (env : Env) (st st' : Impl) : Prop where
  asked : st.asked ≤ st'.asked
  moves : Expiry.Moves PendingMessage.queuedAt (env.steady st.asked) st.pendingFor st'.pendingFor
  full : st.NoneEmpty → st'.NoneEmpty

section
variable {env : Env} {st st' : Impl} {key : String} {now : Nat}

/-- Without empty queues the table is what waits under each key. -/
theorem Impl.NoneEmpty.lookup (h : st.NoneEmpty) (key : String) :
    st.pendingMessages.lookup key =
      if st.pendingFor key = [] then none else some (st.pendingFor key) := by
  unfold pendingFor
  cases hq : st.pendingMessages.lookup key with
  | none => rfl
  | some queue =>
    have hne : queue ≠ [] := fun hnil => h key (by rw [hq,hnil])
    simp [hne]

theorem Impl.Turns.same (hp : st'.pendingMessages = st.pendingMessages) (ha : st.asked ≤ st'.asked) :
    Impl.Turns env st st' := by
  refine ⟨ha,fun k => .inr (.inl (pendingFor_congr hp k)),fun h k => ?_⟩
  rw [hp]
  exact h k

theorem Impl.erase_noneEmpty (h : st.NoneEmpty)
    (hp : st'.pendingMessages = st.pendingMessages.erase key) : st'.NoneEmpty := by
  intro k
  rw [hp]
  by_cases hk : k = key
  · rw [hk,AList.lookup_erase]
    simp
  · rw [AList.lookup_erase_ne hk]
    exact h k

theorem Impl.Turns.erase (hp : st'.pendingMessages = st.pendingMessages.erase key)
    (ha : st.asked ≤ st'.asked) : Impl.Turns env st st' := by
  refine ⟨ha,fun k => ?_,fun h => erase_noneEmpty h hp⟩
  rw [pendingFor_erase hp]
  split
  · exact .inl rfl
  · exact .inr (.inl rfl)

theorem Impl.insert_noneEmpty {queue : List PendingMessage} (h : st.NoneEmpty) (hne : queue ≠ [])
    (hp : st'.pendingMessages = st.pendingMessages.insert key queue) : st'.NoneEmpty := by
  intro k
  rw [hp]
  by_cases hk : k = key
  · rw [hk,AList.lookup_insert]
    simpa using hne
  · rw [AList.lookup_insert_ne hk]
    exact h k

theorem Impl.enqueuePending_turns (env : Env) (st : Impl) (key : String) (msgType : UInt32) (payload : Bytes) :
    Impl.Turns env st (st.enqueuePending env key msgType payload).1 := by
  refine ⟨?_,fun k => ?_,fun h => ?_⟩
  · unfold enqueuePending
    dsimp only
    split
    · exact Nat.le_refl _
    · exact Nat.le_succ _
  · rw [enqueuePending_pending]
    split
    · exact .inr (.inr ⟨_,rfl,rfl⟩)
    · rw [List.append_nil]
      exact .inr (.inl rfl)
  · unfold enqueuePending
    dsimp only
    split
    · rename_i hfull
      refine insert_noneEmpty h (fun hnil => ?_) rfl
      rw [hnil] at hfull
      exact absurd hfull (by decide)
    · exact insert_noneEmpty h (by simp) rfl

theorem Impl.requestUri_same (st : Impl) (found : UriCheck) (uri : String) :
    (st.requestUri found uri).pendingMessages = st.pendingMessages ∧
      (st.requestUri found uri).asked = st.asked := by
  unfold requestUri
  split
  · exact ⟨rfl,rfl⟩
  · exact ⟨rfl,rfl⟩

theorem Impl.Turns.then_same {st'' : Impl} (h : Impl.Turns env st st')
    (hp : st''.pendingMessages = st'.pendingMessages) (ha : st'.asked ≤ st''.asked) :
    Impl.Turns env st st'' := by
  have hfor : st''.pendingFor = st'.pendingFor := funext (pendingFor_congr hp)
  refine ⟨Nat.le_trans h.asked ha,?_,fun hf k => ?_⟩
  · rw [hfor]
    exact h.moves
  · rw [hp]
    exact h.full hf k

theorem Impl.sendFrame_turns (st : Impl) (id : Nat) (msgType : UInt32) (payload : Bytes) :
    Impl.Turns env st (st.sendFrame env id msgType payload) := by
  have hfoot : Footprint (st.OnPath id) st (st.sendFrame env id msgType payload) :=
    sendFrame_footprint ..
  exact Turns.same (st.sendFrame_pending id msgType payload) hfoot.asked

theorem Impl.sendChunks_same (env : Env) (st : Impl) (id : Nat) (msgType : UInt32) (parts : List Bytes) :
    (st.sendChunks env id msgType parts).pendingMessages = st.pendingMessages ∧
      st.asked ≤ (st.sendChunks env id msgType parts).asked := by
  induction parts generalizing st with
  | nil => exact ⟨rfl,Nat.le_refl _⟩
  | cons part parts ih =>
    obtain ⟨hp,ha⟩ := ih (st.sendFrame env id msgType part)
    have hone : Impl.Turns env st (st.sendFrame env id msgType part) :=
      st.sendFrame_turns id msgType part
    exact ⟨hp.trans (st.sendFrame_pending id msgType part),Nat.le_trans hone.asked ha⟩

theorem Impl.openConnection_asked (st : Impl) (ep : Endpoint) :
    st.asked ≤ (st.openConnection env ep).asked := by
  cases ho : ep.outbound with
  | false =>
    rw [openConnection_inbound ho]
    exact Nat.le_succ _
  | true =>
    rw [openConnection_outbound ho]
    exact Nat.le_add_right _ 2

theorem Impl.handleDisconnect_asked (st : Impl) (id : Nat) :
    (st.handleDisconnect id).asked = st.asked := by
  rcases st.handleDisconnect_cases id with ⟨peer,_,h⟩ | ⟨_,_,h⟩ | ⟨_,r,hr,h⟩
  · rw [h]
    unfold dropTransport
    dsimp only
    split
    · rfl
    · split
      · rfl
      · split
        · rfl
        · rfl
  · rw [h]
    rfl
  · rw [h]
    rfl

theorem Impl.expire_noneEmpty (h : st.NoneEmpty) (now : Nat) (key : String) :
    (st.expire now key).NoneEmpty := by
  unfold expire
  split
  · exact h
  · dsimp only
    split
    · exact erase_noneEmpty h rfl
    · rename_i hkept
      exact insert_noneEmpty h (by simpa using hkept) rfl

theorem Impl.expire_asked (st : Impl) (now : Nat) (key : String) :
    (st.expire now key).asked = st.asked := by
  unfold expire
  split
  · rfl
  · dsimp only
    split
    · rfl
    · rfl

theorem fresh_eq (now : Nat) (queue : List PendingMessage) :
    queue.filter (fun m => decide (now-m.queuedAt ≤ pendingTtl)) =
      Expiry.fresh PendingMessage.queuedAt pendingTtl now queue := by
  unfold Expiry.fresh Expiry.Stale
  simp only [Nat.not_lt]

/-- The second pass over a list of keys, in which a key may be more than once. -/
theorem Impl.dropStale_pendingFor (st : Impl) (now : Nat) (stale : List String) (k : String) :
    (st.dropStale now stale).pendingFor k = if k ∈ stale then
      Expiry.fresh PendingMessage.queuedAt pendingTtl now (st.pendingFor k)
        else st.pendingFor k := by
  induction stale generalizing st with
  | nil => rfl
  | cons key stale ih =>
    have hone := st.expire_pending now key k
    rw [fresh_eq] at hone
    have hrest : (st.dropStale now (key :: stale)).pendingFor k =
        if k ∈ stale then Expiry.fresh PendingMessage.queuedAt pendingTtl now
          ((st.expire now key).pendingFor k) else (st.expire now key).pendingFor k :=
      ih (st.expire now key)
    rw [hrest,hone]
    by_cases hk : k = key
    · subst hk
      simp [Expiry.fresh_fresh]
    · simp [hk]

theorem Impl.dropStale_same (h : st.NoneEmpty) (now : Nat) (stale : List String) :
    (st.dropStale now stale).NoneEmpty ∧ (st.dropStale now stale).asked = st.asked := by
  induction stale generalizing st with
  | nil => exact ⟨h,rfl⟩
  | cons key stale ih =>
    obtain ⟨hfull,hasked⟩ := ih (expire_noneEmpty h now key)
    exact ⟨hfull,hasked.trans (st.expire_asked now key)⟩

/-- The first pass lists a key when the front of its queue is too old. -/
theorem Impl.mem_staleUris (h : Expiry.FrontStale PendingMessage.queuedAt pendingTtl now
    (st.pendingFor key)) : key ∈ st.staleUris now := by
  unfold pendingFor at h
  cases hq : st.pendingMessages.lookup key with
  | none =>
    rw [hq] at h
    cases h
  | some queue =>
    rw [hq] at h
    refine List.mem_map.2 ⟨⟨key,queue⟩,List.mem_filter.2 ⟨AList.mem_lookup_iff.1 hq,?_⟩,rfl⟩
    cases queue with
    | nil => cases h
    | cons m queue => exact decide_eq_true h

end

namespace UriTraffic

theorem appendCall_turns (env : Env) (s : UriTraffic) (c : UriCall) :
    Impl.Turns env s.st (s.appendCall env c).st := by
  have hq := s.st.enqueuePending_turns env (uriKey c.uri) c.msgType c.payload
  unfold appendCall
  dsimp only
  split
  · obtain ⟨hp,hasked⟩ := Impl.requestUri_same
      (s.st.enqueuePending env (uriKey c.uri) c.msgType c.payload).1 c.found c.uri
    exact hq.then_same hp hasked.ge
  · exact hq

theorem directCall_turns (env : Env) (s : UriTraffic) (c : UriCall) (id : Nat) :
    Impl.Turns env s.st (s.directCall env c id).st := by
  unfold directCall
  dsimp only
  split
  · exact Impl.Turns.same rfl (Nat.le_refl _)
  · rw [Impl.sendParts_alone]
    obtain ⟨hp,hasked⟩ :=
      s.st.sendChunks_same env id c.msgType ((SendCall.byUri c.uri).parts c.payload)
    exact Impl.Turns.same hp hasked

/-- What a step of `send(uri)`, of a flush or of a disconnect does to the queues. -/
theorem act_turns (env : Env) (s : UriTraffic) (a : UriStep) (ha : ∀ now key, a ≠ .expire now key) :
    Impl.Turns env s.st (s.act env a).st := by
  have hsame : Impl.Turns env s.st s.st := Impl.Turns.same rfl (Nat.le_refl _)
  cases a with
  | check thread uri msgType payload =>
    simp only [act]
    split
    · exact hsame
    · split
      · exact hsame
      · exact hsame
  | append thread =>
    simp only [act]
    split
    · exact hsame
    · rename_i c rest hpick
      split
      · exact appendCall_turns env { s with calls := rest } c
      · exact appendCall_turns env { s with calls := rest } c
      · exact hsame
  | direct thread =>
    simp only [act]
    split
    · exact hsame
    · rename_i c rest hpick
      split
      · exact hsame
      · exact hsame
      · rename_i id hfound
        exact directCall_turns env { s with calls := rest } c id
  | connected uri ep =>
    simp only [act]
    split
    · exact hsame
    · exact Impl.Turns.same (s.st.openConnection_pending ep) (s.st.openConnection_asked ep)
  | frame id msgType payload => exact s.st.sendFrame_turns id msgType payload
  | noise id hs => exact Impl.Turns.same rfl (Nat.le_refl _)
  | authenticated id hp schemes => exact Impl.Turns.same rfl (Nat.le_refl _)
  | finalize id =>
    simp only [act]
    split
    · exact hsame
    · split
      · exact hsame
      · split
        · exact hsame
        · exact Impl.Turns.same rfl (Nat.le_refl _)
  | remove id =>
    simp only [act]
    split
    · exact hsame
    · exact Impl.Turns.same rfl (Nat.le_refl _)
  | take id =>
    simp only [act]
    split
    · exact hsame
    · unfold takeQueue
      split
      · exact hsame
      · exact hsame
      · exact Impl.Turns.erase rfl (Nat.le_refl _)
  | sendNext id =>
    simp only [act]
    split
    · exact hsame
    · unfold sendOne
      split
      · exact hsame
      · dsimp only
        rw [Impl.sendPart_alone]
        exact s.st.sendFrame_turns _ _ _
  | disconnected id =>
    have hasked := (s.st.handleDisconnect_asked id).ge
    rcases s.st.handleDisconnect_pending id with hp | ⟨r,-,hp⟩
    · exact Impl.Turns.same hp hasked
    · exact Impl.Turns.erase hp hasked
  | expire now key => exact absurd rfl (ha now key)

end UriTraffic

namespace CleanupTraffic

/-- Every queue is in the order of its times. A call has read a time that has passed and, after its
first pass, misses no message that was too old then. -/
structure Timed (env : Env) (s : CleanupTraffic) : Prop where
  full : s.traffic.st.NoneEmpty
  ordered : Expiry.Ordered PendingMessage.queuedAt (env.steady s.traffic.st.asked)
    s.traffic.st.pendingFor
  read : ∀ c ∈ s.cleanups, c.now ≤ env.steady s.traffic.st.asked
  listed : ∀ c ∈ s.cleanups, ∀ keys, c.stale = some keys →
    Expiry.Listed PendingMessage.queuedAt pendingTtl c.now keys s.traffic.st.pendingFor

section
variable {env : Env} {s : CleanupTraffic}

theorem Timed.turns (h : s.Timed env) (hclock : ∀ i j, i ≤ j → env.steady i ≤ env.steady j)
    {traffic : UriTraffic} (ht : Impl.Turns env s.traffic.st traffic.st) :
    Timed env { s with traffic := traffic } := by
  have hlater := hclock _ _ ht.asked
  exact ⟨ht.full h.full,(h.ordered.moves ht.moves).later hlater,
    fun c hc => Nat.le_trans (h.read c hc) hlater,
    fun c hc keys hk => (h.listed c hc keys hk).moves (h.read c hc) ht.moves⟩

theorem Timed.act (h : s.Timed env) (hclock : ∀ i j, i ≤ j → env.steady i ≤ env.steady j)
    (a : CleanupStep) : (s.act env a).Timed env := by
  cases a with
  | uri a =>
    cases a with
    | expire now key => exact h
    | _ => exact h.turns hclock (UriTraffic.act_turns env s.traffic _ (by simp))
  | start thread =>
    simp only [CleanupTraffic.act]
    split
    · exact h
    · have hask : Impl.Turns env s.traffic.st s.traffic.st.ask :=
        Impl.Turns.same rfl (Nat.le_succ _)
      have hstep : Timed env { s with traffic := { s.traffic with st := s.traffic.st.ask } } :=
        h.turns hclock hask
      refine ⟨hstep.full,hstep.ordered,fun c hc => ?_,fun c hc keys hk => ?_⟩
      · rcases List.mem_cons.1 hc with rfl | hc
        · exact hclock _ _ (Nat.le_succ _)
        · exact hstep.read c hc
      · rcases List.mem_cons.1 hc with rfl | hc
        · cases hk
        · exact hstep.listed c hc keys hk
  | scan thread =>
    simp only [CleanupTraffic.act]
    split
    · exact h
    · rename_i c rest hpick
      obtain ⟨-,hc,hperm⟩ := pick_perm hpick
      have hmem : ∀ c' ∈ rest, c' ∈ s.cleanups :=
        fun c' hc' => hperm.mem_iff.2 (List.mem_cons_of_mem c hc')
      refine ⟨h.full,h.ordered,fun c' hc' => ?_,fun c' hc' keys hk => ?_⟩
      · rcases List.mem_cons.1 hc' with rfl | hc'
        · exact h.read c hc
        · exact h.read c' (hmem c' hc')
      · rcases List.mem_cons.1 hc' with rfl | hc'
        · cases hk
          exact h.ordered.listed (fun k hf => Impl.mem_staleUris hf)
        · exact h.listed c' (hmem c' hc') keys hk
  | sweep thread =>
    simp only [CleanupTraffic.act]
    split
    · exact h
    · rename_i c rest hpick
      obtain ⟨-,-,hperm⟩ := pick_perm hpick
      have hmem : ∀ c' ∈ rest, c' ∈ s.cleanups :=
        fun c' hc' => hperm.mem_iff.2 (List.mem_cons_of_mem c hc')
      obtain ⟨hfull,hasked⟩ := Impl.dropStale_same h.full c.now (c.stale.getD [])
      have hq : ∀ k, (s.traffic.st.dropStale c.now (c.stale.getD [])).pendingFor k =
          s.traffic.st.pendingFor k ∨
        (s.traffic.st.dropStale c.now (c.stale.getD [])).pendingFor k =
          Expiry.fresh PendingMessage.queuedAt pendingTtl c.now (s.traffic.st.pendingFor k) := by
        intro k
        rw [Impl.dropStale_pendingFor]
        split
        · exact .inr rfl
        · exact .inl rfl
      refine ⟨hfull,?_,fun c' hc' => ?_,fun c' hc' keys hk => ?_⟩
      · dsimp only
        rw [hasked]
        exact h.ordered.fresh hq
      · dsimp only
        rw [hasked]
        exact h.read c' (hmem c' hc')
      · exact (h.listed c' (hmem c' hc') keys hk).fresh hq

/-- With nobody in between it is `cleanup_stale_pending`. -/
theorem cleanup_alone (h : s.cleanups = []) (thread : Nat) :
    (s.run env [.start thread,.scan thread,.sweep thread]).traffic.st =
      s.traffic.st.cleanupStalePending env := by
  simp [run,Interleaving.run,act,h,pick]
  rfl

end

end CleanupTraffic

/-- Whatever happens between its two passes, `cleanup_stale_pending` leaves no message that was too
old when it read the clock, keeps the others in their order, leaves no queue empty, and leaves a
queue alone that has no such message. -/
theorem cleanup_complete {env : Env} (hclock : ∀ i j, i ≤ j → env.steady i ≤ env.steady j)
    {st : Impl} (hp : st.pendingMessages = ∅) (steps : List CleanupStep) (thread : Nat)
    (c : Cleanup) (rest : List Cleanup)
    (hc : pick (fun c => c.thread == thread && c.stale.isSome)
      (CleanupTraffic.run env { traffic := { st := st } } steps).cleanups = some (c,rest)) :
    let s := CleanupTraffic.run env { traffic := { st := st } } steps
    let s' := s.act env (.sweep thread)
    (∀ key queue, s'.traffic.st.pendingMessages.lookup key = some queue →
      queue ≠ [] ∧ ∀ m ∈ queue, ¬ pendingTtl < c.now-m.queuedAt) ∧
    (∀ key, s'.traffic.st.pendingFor key = (s.traffic.st.pendingFor key).filter (fun m =>
      decide (c.now-m.queuedAt ≤ pendingTtl))) ∧
    ∀ key, (∀ m ∈ s.traffic.st.pendingFor key, ¬ pendingTtl < c.now-m.queuedAt) →
      s'.traffic.st.pendingMessages.lookup key = s.traffic.st.pendingMessages.lookup key := by
  intro s s'
  have hstart : CleanupTraffic.Timed env { traffic := { st := st } } := by
    have hnone : ∀ k, st.pendingFor k = [] := by
      intro k
      unfold Impl.pendingFor
      rw [hp]
      rfl
    refine ⟨fun key => ?_,⟨fun k => ?_,fun k m hm => ?_⟩,by simp,by simp⟩
    · change st.pendingMessages.lookup key ≠ some []
      rw [hp]
      simp
    · rw [hnone]
      exact .nil
    · rw [hnone] at hm
      cases hm
  have hs : s.Timed env := run_invariant (I := CleanupTraffic.Timed env)
    (fun _ a h => h.act hclock a) hstart steps
  have hs' : s'.Timed env := hs.act hclock (.sweep thread)
  obtain ⟨hfound,hmem,-⟩ := pick_perm hc
  simp only [Bool.and_eq_true,Option.isSome_iff_exists] at hfound
  obtain ⟨keys,hkeys⟩ := hfound.2
  have hlisted := hs.listed c hmem keys hkeys
  have hst : s'.traffic.st = s.traffic.st.dropStale c.now keys := by
    change (s.act env (.sweep thread)).traffic.st = _
    simp only [CleanupTraffic.act]
    rw [hc]
    dsimp only
    rw [hkeys]
    rfl
  have hkept : ∀ key, s'.traffic.st.pendingFor key =
      Expiry.fresh PendingMessage.queuedAt pendingTtl c.now (s.traffic.st.pendingFor key) := by
    intro key
    rw [hst,Impl.dropStale_pendingFor]
    exact hlisted.swept key
  refine ⟨fun key queue hq => ?_,fun key => ?_,fun key hfresh => ?_⟩
  · have hne : queue ≠ [] := fun hnil => hs'.full key (by rw [hq,hnil])
    have hfor : s'.traffic.st.pendingFor key = queue := by
      unfold Impl.pendingFor
      rw [hq]
      rfl
    refine ⟨hne,fun m hm => ?_⟩
    rw [← hfor,hkept] at hm
    exact Expiry.not_stale_of_fresh hm
  · rw [hkept,fresh_eq]
  · rw [hs'.full.lookup,hs.full.lookup,hkept,Expiry.fresh_of_not_stale hfresh]

/-- A clock by which the limit is over between any two readings but one. -/
def ttlEnv : Env := { Env.sample false with steady := fun i => i*pendingTtl }

/-- Two messages wait when the clock is read, and a third comes in between the two passes. -/
def staleBetween : List CleanupStep :=
  [.uri (.check 1 "tcp://a:1" msgTypeChat [104]),.uri (.append 1),
    .uri (.check 1 "tcp://a:1" msgTypeChat [105]),.uri (.append 1),.start 2,.scan 2,
    .uri (.check 1 "tcp://a:1" msgTypeChat [106]),.uri (.append 1)]

theorem cleanup_complete_between :
    (((CleanupTraffic.run ttlEnv { traffic := { st := Impl.start NodeIdentity.alice } }
      staleBetween).act ttlEnv (.sweep 2)).traffic.st.pendingFor "a:1").map PendingMessage.payload =
        [[105],[106]] := by
  obtain ⟨c,rest,hpick,hkept⟩ : ∃ c rest, pick (fun c => c.thread == 2 && c.stale.isSome)
      (CleanupTraffic.run ttlEnv { traffic := { st := Impl.start NodeIdentity.alice } }
        staleBetween).cleanups = some (c,rest) ∧
      (((CleanupTraffic.run ttlEnv { traffic := { st := Impl.start NodeIdentity.alice } }
        staleBetween).traffic.st.pendingFor "a:1").filter (fun m =>
          decide (c.now-m.queuedAt ≤ pendingTtl))).map PendingMessage.payload = [[105],[106]] :=
    ⟨⟨2,2*pendingTtl,some ["a:1"]⟩,[],by decide +kernel,by decide +kernel⟩
  rw [(cleanup_complete (fun i j h => Nat.mul_le_mul_right pendingTtl h) rfl staleBetween 2 c rest
    hpick).2.1 "a:1"]
  exact hkept

end GoodNet
