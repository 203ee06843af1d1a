import GoodNet.RelayDedup
import GoodNet.Lib.RecentKeys
set_option autoImplicit false

/-! What `relay_seen` remembers over a run of calls: the set of fingerprints is a set of recent
keys, and the hash in a fingerprint adds nothing to packet id and type. -/

namespace GoodNet
open RecentKeys

abbrev SeenKey := UInt64 × UInt64

def RelayFingerprint.key (f : RelayFingerprint) : SeenKey := (f.senderHash,f.packetId)

def Header.seenKey (env : Env) (hdr : Header) : SeenKey :=
  (env.hash hdr.packetId ^^^ (hdr.payloadType.toUInt64 <<< 32),hdr.packetId)

def seenEntries (fps : List RelayFingerprint) : List (SeenKey × Nat) :=
  fps.map (fun f => (f.key,f.ts))

/-- Above this size the old entries are thrown out. -/
def relayDedupLimit : Nat := 8192

/-- A call of `relay_seen`, before which the clock has been read a number of times by others. -/
structure SeenQuery where
  others : Nat
  hdr : Header

/-- What a call was about, when it was made and what it said. -/
structure SeenAnswer where
  hdr : Header
  time : Nat
  seen : Bool
  deriving DecidableEq, Repr

def Impl.waited (st : Impl) (n : Nat) : Impl := { st with asked := st.asked+n }

def Impl.query (env : Env) (run : Impl × List SeenAnswer) (q : SeenQuery) :
    Impl × List SeenAnswer :=
  let st := run.1.waited q.others
  let r := st.relaySeen env q.hdr
  (r.1,run.2 ++ [⟨q.hdr,env.steady st.asked,r.2⟩])

def Impl.queries (env : Env) (st : Impl) (qs : List SeenQuery) : Impl × List SeenAnswer :=
  qs.foldl (Impl.query env) (st,[])

section
variable {env : Env} {st : Impl}

theorem Header.seenKey_inj {a b : Header} :
    a.seenKey env = b.seenKey env ↔ a.packetId = b.packetId ∧ a.payloadType = b.payloadType := by
  rw [← Header.fingerprint_same env 0 0]
  simp [seenKey,fingerprint,RelayFingerprint.same]

theorem Impl.remembered_entries (env : Env) (st : Impl) :
    seenEntries (st.remembered env) =
      sweep relayTtl relayDedupLimit (env.steady st.asked) (seenEntries st.relayDedup) := by
  unfold remembered sweep seenEntries
  rw [List.length_map]
  unfold relayDedupLimit
  split
  · rw [List.filter_map]
    rfl
  · rfl

/-- `relay_seen` is a question to a set of recent keys. -/
theorem Impl.relaySeen_present (env : Env) (st : Impl) (hdr : Header) :
    (seenEntries (st.relaySeen env hdr).1.relayDedup,(st.relaySeen env hdr).2) =
      present relayTtl relayDedupLimit (seenEntries st.relayDedup) (env.steady st.asked)
        (hdr.seenKey env) := by
  have hany : (st.remembered env).any (hdr.fingerprint env (env.steady st.asked)).same =
      (seenEntries (st.remembered env)).any (fun e => decide (e.1 = hdr.seenKey env)) := by
    have hsame : ∀ f : RelayFingerprint, (hdr.fingerprint env (env.steady st.asked)).same f =
        decide (f.key = hdr.seenKey env) := by
      intro f
      rw [Bool.eq_iff_iff,decide_eq_true_eq,RelayFingerprint.same,Bool.and_eq_true,beq_iff_eq,beq_iff_eq,
        RelayFingerprint.key,Header.seenKey,Prod.mk.injEq]
      exact and_congr eq_comm eq_comm
    unfold seenEntries
    rw [List.any_map]
    exact congrArg _ (funext hsame)
  unfold present
  rw [relaySeen_eq,← remembered_entries,hany]
  dsimp only
  cases (seenEntries (st.remembered env)).any (fun e => decide (e.1 = hdr.seenKey env)) with
  | true => rfl
  | false => rfl

/-- A call of `relay_seen` throws out nothing that was recorded in the last 30 seconds. -/
theorem Impl.relaySeen_keeps {hdr : Header} {f : RelayFingerprint} (hf : f ∈ st.relayDedup)
    (hrecent : env.steady st.asked ≤ f.ts+relayTtl) : f ∈ (st.relaySeen env hdr).1.relayDedup := by
  have hkept : f ∈ st.remembered env := by
    unfold remembered
    split
    · exact List.mem_filter.2 ⟨hf,decide_eq_true hrecent⟩
    · exact hf
  rw [relaySeen_eq]
  split
  · exact hkept
  · exact List.mem_cons_of_mem _ hkept

theorem Impl.relaySeen_records_new {hdr : Header} (h : (st.relaySeen env hdr).2 = false) :
    hdr.fingerprint env (env.steady st.asked) ∈ (st.relaySeen env hdr).1.relayDedup := by
  rw [relaySeen_eq] at h ⊢
  split
  · rename_i hany
    rw [if_pos hany] at h
    cases h
  · exact List.mem_cons_self

theorem Impl.relaySeen_asked (env : Env) (st : Impl) (hdr : Header) :
    (st.relaySeen env hdr).1.asked = st.asked+1 := by
  rw [relaySeen_eq]
  split
  · rfl
  · rfl

def SeenAnswer.presented (env : Env) (a : SeenAnswer) : Presented SeenKey :=
  ⟨a.hdr.seenKey env,a.time,a.seen⟩

/-- The set after a run of calls is faithful to their answers, up to the present time. -/
def Impl.Remembers (env : Env) (run : Impl × List SeenAnswer) : Prop :=
  Faithful relayTtl (env.steady run.1.asked) (run.2.map (SeenAnswer.presented env))
    (seenEntries run.1.relayDedup)

theorem Impl.Remembers.query (hclock : ∀ i j, i ≤ j → env.steady i ≤ env.steady j)
    {run : Impl × List SeenAnswer} (h : Impl.Remembers env run) (q : SeenQuery) :
    Impl.Remembers env (Impl.query env run q) := by
  have hbefore : env.steady run.1.asked ≤ env.steady (run.1.waited q.others).asked :=
    hclock _ _ (Nat.le_add_right _ _)
  have hafter : env.steady (run.1.waited q.others).asked ≤
      env.steady ((run.1.waited q.others).relaySeen env q.hdr).1.asked := by
    rw [relaySeen_asked]
    exact hclock _ _ (Nat.le_succ _)
  have hnext := @Faithful.present _ relayTtl relayDedupLimit _ _ _ _ (q.hdr.seenKey env) _ h hbefore
  have hcall := (run.1.waited q.others).relaySeen_present env q.hdr
  have hsame : seenEntries (run.1.waited q.others).relayDedup = seenEntries run.1.relayDedup := rfl
  rw [← hsame,← hcall] at hnext
  have hpast : (Impl.query env run q).2.map (SeenAnswer.presented env) =
      run.2.map (SeenAnswer.presented env) ++ [⟨q.hdr.seenKey env,
        env.steady (run.1.waited q.others).asked,
        ((run.1.waited q.others).relaySeen env q.hdr).2⟩] := by
    unfold Impl.query
    rw [List.map_append]
    rfl
  unfold Impl.Remembers
  rw [hpast]
  exact hnext.later hafter

theorem Impl.queries_remember (hclock : ∀ i j, i ≤ j → env.steady i ≤ env.steady j)
    (h : st.relayDedup = []) (qs : List SeenQuery) : Impl.Remembers env (st.queries env qs) := by
  have hstart : Impl.Remembers env (st,[]) := by
    unfold Impl.Remembers
    rw [h]
    exact .nil
  unfold Impl.queries
  generalize (st,([] : List SeenAnswer)) = run at hstart
  induction qs generalizing run with
  | nil => exact hstart
  | cons q qs ih => exact ih _ (hstart.query hclock q)

end

/-- After any run of calls, a call says no of a pair that was never asked about, and yes of one
that was recorded less than 30 seconds ago; when it says no it records the pair with the time, and
nothing recorded in the last 30 seconds is thrown out. -/
theorem relay_seen_lately {env : Env} (hclock : ∀ i j, i ≤ j → env.steady i ≤ env.steady j)
    {st : Impl} (h : st.relayDedup = []) (qs : List SeenQuery) (q : SeenQuery) :
    let answers := (st.queries env qs).2
    let before := (st.queries env qs).1.waited q.others
    let now := env.steady before.asked
    let call := before.relaySeen env q.hdr
    ((∀ a ∈ answers, ¬ (a.hdr.packetId = q.hdr.packetId ∧ a.hdr.payloadType = q.hdr.payloadType)) →
      call.2 = false) ∧
    (∀ a ∈ answers, a.seen = false →
      a.hdr.packetId = q.hdr.packetId ∧ a.hdr.payloadType = q.hdr.payloadType →
      now < a.time+relayTtl → call.2 = true) ∧
    (call.2 = false → q.hdr.fingerprint env now ∈ call.1.relayDedup) ∧
    ∀ f ∈ before.relayDedup, now ≤ f.ts+relayTtl → f ∈ call.1.relayDedup := by
  intro answers before now call
  have hrun : Impl.Remembers env (st.queries env qs) := Impl.queries_remember hclock h qs
  have hlater : env.steady (st.queries env qs).1.asked ≤ now := hclock _ _ (Nat.le_add_right _ _)
  have hanswer : call.2 = (present relayTtl relayDedupLimit
      (seenEntries (st.queries env qs).1.relayDedup) now (q.hdr.seenKey env)).2 :=
    (Prod.mk.inj (before.relaySeen_present env q.hdr)).2
  refine ⟨fun hnever => ?_,fun a ha hnew hpair hrecent => ?_,fun hno => ?_,fun f hf hrecent => ?_⟩
  · rw [hanswer]
    refine hrun.unseen fun p hp => ?_
    obtain ⟨a,ha,rfl⟩ := List.mem_map.1 hp
    exact fun hkey => hnever a ha (Header.seenKey_inj.1 hkey)
  · rw [hanswer]
    refine hrun.seen hlater (List.mem_map_of_mem ha) hnew ?_ (Nat.le_of_lt hrecent)
    exact Header.seenKey_inj.2 hpair
  · exact Impl.relaySeen_records_new hno
  · exact Impl.relaySeen_keeps hf hrecent

/-- Two recorded calls, after which the clock is read five times more. -/
def relayedTwice : Impl :=
  ((Impl.start NodeIdentity.alice).queries (Env.sample false)
    [⟨0,frameHeader 0 msgTypeRelay 0 7⟩,⟨3,frameHeader 0 msgTypeRelay 0 8⟩]).1.waited 5

theorem relay_seen_lately_twice :
    (relayedTwice.relaySeen (Env.sample false) (frameHeader 0 msgTypeRelay 9 7)).2 = true ∧
      (relayedTwice.relaySeen (Env.sample false) (frameHeader 0 msgTypeRelay 9 6)).2 = false := by
  have hlately := @relay_seen_lately (Env.sample false) (fun i j h => h)
    (Impl.start NodeIdentity.alice) rfl
    [⟨0,frameHeader 0 msgTypeRelay 0 7⟩,⟨3,frameHeader 0 msgTypeRelay 0 8⟩]
  constructor
  · exact (hlately ⟨5,frameHeader 0 msgTypeRelay 9 7⟩).2.1
      ⟨frameHeader 0 msgTypeRelay 0 7,0,false⟩ (by decide +kernel) rfl ⟨rfl,rfl⟩ (by decide +kernel)
  · exact (hlately ⟨5,frameHeader 0 msgTypeRelay 9 6⟩).1 (by decide +kernel)

end GoodNet
