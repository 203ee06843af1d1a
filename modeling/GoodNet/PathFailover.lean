import GoodNet.SendFootprint
import GoodNet.KeptFields
import GoodNet.ManagerRun
import GoodNet.Lib.Interleaving
set_option autoImplicit false

/-! How `flush_queue` goes from one transport path to the next. A path's record of errors is held
against the history of its attempts, one attempt being one call of
`flush_frames_to_connector` in the loop over the active paths. -/

namespace GoodNet
open Codec Interleaving

structure Attempt where
  via : Nat
  ok : Bool
  deriving DecidableEq, Repr

/-- The attempts of the loop, in their order. -/
def Impl.attempts (env : Env) (st : Impl) (id : Nat) (owner : ConnectionRecord)
    (batch : List Bytes) : List TransportPath → List Attempt
  | [] => []
  | p :: ps =>
    match st.findConnector p.scheme with
    | none => st.attempts env id owner batch ps
    | some ops =>
      let sent := st.flushFramesToConnector env owner p.transportConnId p.scheme ops batch
      ⟨p.transportConnId,sent.2⟩ ::
        if sent.2 then []
        else
          (sent.1.modifyPath id p.transportConnId TransportPath.fail).attempts env id owner batch ps

/-- The attempts of a call of `flush_queue`. -/
def Impl.flushAttempts (env : Env) (st : Impl) (id : Nat) : List Attempt :=
  if st.shuttingDown then []
  else
    match st.find id, st.sendQueues.lookup id with
    | some r, some q =>
      let drained := q.drainBatch 64
      if drained.2.isEmpty then []
      else (st.setQueue id drained.1).attempts env id r drained.2 r.activePaths
    | _, _ => []

/-- The failed attempts of a path since its last success; the history has the newest first. -/
def failures (history : List Attempt) (via : Nat) : Nat :=
  ((history.filter (fun a => a.via == via)).takeWhile (fun a => !a.ok)).length

/-- Three attempts in a row have failed at some time. -/
def ReachedThree (history : List Attempt) (via : Nat) : Prop :=
  ∃ older, older <:+ history ∧ 3 ≤ failures older via

theorem failures_other {via : Nat} {a : Attempt} (h : a.via ≠ via) (older : List Attempt) :
    failures (a :: older) via = failures older via := by
  simp [failures,h]

theorem failures_ok (via : Nat) (older : List Attempt) : failures (⟨via,true⟩ :: older) via = 0 := by
  simp [failures]

theorem failures_fail (via : Nat) (older : List Attempt) :
    failures (⟨via,false⟩ :: older) via = failures older via+1 := by
  simp [failures]

theorem reachedThree_cons (a : Attempt) (older : List Attempt) (via : Nat) :
    ReachedThree (a :: older) via ↔ 3 ≤ failures (a :: older) via ∨ ReachedThree older via := by
  constructor
  · rintro ⟨h,hs,h3⟩
    rcases List.suffix_cons_iff.1 hs with rfl | hs
    · exact .inl h3
    · exact .inr ⟨h,hs,h3⟩
  · rintro (h3 | ⟨h,hs,h3⟩)
    · exact ⟨_,List.suffix_refl _,h3⟩
    · exact ⟨h,hs.trans (List.suffix_cons a older),h3⟩

theorem reachedThree_other {via : Nat} {a : Attempt} (h : a.via ≠ via) (older : List Attempt) :
    ReachedThree (a :: older) via ↔ ReachedThree older via := by
  rw [reachedThree_cons,failures_other h]
  constructor
  · rintro (h3 | hr)
    · exact ⟨older,List.suffix_refl _,h3⟩
    · exact hr
  · exact .inr

theorem failures_unknown {history : List Attempt} {via : Nat} (h : ∀ a ∈ history, a.via ≠ via) :
    failures history via = 0 ∧ ¬ ReachedThree history via := by
  induction history with
  | nil => exact ⟨rfl,by rintro ⟨older,hs,h3⟩; simp [List.suffix_nil.1 hs,failures] at h3⟩
  | cons a older ih =>
    have hne := h a List.mem_cons_self
    obtain ⟨hf,hr⟩ := ih (fun b hb => h b (List.mem_cons_of_mem a hb))
    exact ⟨(failures_other hne older).trans hf,fun hc => hr ((reachedThree_other hne older).1 hc)⟩

/-- A path and the history of its attempts tell the same. -/
structure TransportPath.Tracked (history : List Attempt) (p : TransportPath) : Prop where
  errors : p.consecutiveErrors.toNat = failures history p.transportConnId
  inactive : p.active = false ↔ ReachedThree history p.transportConnId

theorem TransportPath.Tracked.healthy {history : List Attempt} {p : TransportPath}
    (h : p.Tracked history) (ha : p.active = true) : p.consecutiveErrors.toNat < 3 := by
  by_contra hn
  have hr : ReachedThree history p.transportConnId :=
    ⟨history,List.suffix_refl _,by rw [← h.errors]; omega⟩
  rw [h.inactive.2 hr] at ha
  exact absurd ha (by simp)

theorem TransportPath.Tracked.other {history : List Attempt} {p : TransportPath} {a : Attempt}
    (h : p.Tracked history) (hne : a.via ≠ p.transportConnId) : p.Tracked (a :: history) where
  errors := h.errors.trans (failures_other hne history).symm
  inactive := h.inactive.trans (reachedThree_other hne history).symm

theorem TransportPath.Tracked.succeed {history : List Attempt} {p : TransportPath}
    (h : p.Tracked history) (ha : p.active = true) :
    p.succeed.Tracked (⟨p.transportConnId,true⟩ :: history) where
  errors := (failures_ok _ _).symm
  inactive := by
    have hno : ¬ ReachedThree history p.transportConnId := by
      rw [← h.inactive,ha]
      simp
    change p.active = false ↔ ReachedThree (⟨p.transportConnId,true⟩ :: history) p.transportConnId
    rw [ha,reachedThree_cons,failures_ok]
    simp [hno]

theorem TransportPath.Tracked.fail {history : List Attempt} {p : TransportPath}
    (h : p.Tracked history) (ha : p.active = true) :
    p.fail.Tracked (⟨p.transportConnId,false⟩ :: history) := by
  have hlt := h.healthy ha
  have hcount : (p.consecutiveErrors+1).toNat = p.consecutiveErrors.toNat+1 := by
    rw [UInt32.toNat_add]
    exact Nat.mod_eq_of_lt (by
      have : (1 : UInt32).toNat = 1 := rfl
      omega)
  have hno : ¬ ReachedThree history p.transportConnId := by
    rw [← h.inactive,ha]
    simp
  refine ⟨?_,?_⟩
  · change (p.consecutiveErrors+1).toNat = _
    rw [hcount,h.errors]
    exact (failures_fail _ _).symm
  · change (if 3 ≤ p.consecutiveErrors+1 then false else p.active) = false ↔
      ReachedThree (⟨p.transportConnId,false⟩ :: history) p.transportConnId
    rw [reachedThree_cons,failures_fail,← h.errors,← hcount]
    by_cases h3 : 3 ≤ p.consecutiveErrors+1
    · have h3' : 3 ≤ (p.consecutiveErrors+1).toNat := UInt32.le_iff_toNat_le.1 h3
      rw [if_pos h3]
      exact iff_of_true rfl (.inl h3')
    · have h3' : ¬ 3 ≤ (p.consecutiveErrors+1).toNat := fun hc => h3 (UInt32.le_iff_toNat_le.2 hc)
      rw [if_neg h3,ha]
      exact iff_of_false (by simp) (not_or.2 ⟨h3',hno⟩)

/-- The paths of a connection under distinct ids, all tracked. -/
structure ConnectionRecord.Tracked (history : List Attempt) (r : ConnectionRecord) : Prop where
  nodup : (r.transportPaths.map TransportPath.transportConnId).Nodup
  paths : ∀ p ∈ r.transportPaths, p.Tracked history

theorem mem_modifyPath {paths : List TransportPath} {via : Nat} {f : TransportPath → TransportPath}
    {q : TransportPath} (h : q ∈ modifyPath paths via f) :
    ∃ p ∈ paths, q = if p.transportConnId = via then f p else p := by
  obtain ⟨p,hp,rfl⟩ := List.mem_map.1 h
  exact ⟨p,hp,rfl⟩

theorem TransportPath.succeed_id (p : TransportPath) :
    p.succeed.transportConnId = p.transportConnId := rfl

theorem TransportPath.fail_id (p : TransportPath) : p.fail.transportConnId = p.transportConnId := rfl

/-- One attempt: its path is written to, the others are not. -/
theorem ConnectionRecord.Tracked.attempt {history : List Attempt} {r : ConnectionRecord}
    (h : r.Tracked history) {p : TransportPath} (hp : p ∈ r.transportPaths)
    {f : TransportPath → TransportPath} (hf : ∀ p, (f p).transportConnId = p.transportConnId)
    {ok : Bool} (hfp : (f p).Tracked (⟨p.transportConnId,ok⟩ :: history)) :
    ConnectionRecord.Tracked (⟨p.transportConnId,ok⟩ :: history)
      { r with transportPaths := modifyPath r.transportPaths p.transportConnId f } where
  nodup := by
    rw [map_modifyPath (g := TransportPath.transportConnId) hf]
    exact h.nodup
  paths := by
    intro q hq
    obtain ⟨q₀,hq₀,rfl⟩ := mem_modifyPath hq
    split
    · rename_i hid
      have heq : q₀ = p := List.inj_on_of_nodup_map h.nodup hq₀ hp hid
      rw [heq]
      exact hfp
    · rename_i hid
      exact (h.paths q₀ hq₀).other (Ne.symm hid)

theorem Impl.sendEach_records (env : Env) (st : Impl) (owner : ConnectionRecord) (via : Nat)
    (scheme : String) (frames : List Bytes) :
    (st.sendEach env owner via scheme frames).1.records = st.records := by
  induction frames generalizing st with
  | nil => rfl
  | cons f fs ih =>
    unfold sendEach
    dsimp only
    rw [ih]
    split <;> rfl

theorem Impl.flushFrames_records (env : Env) (st : Impl) (owner : ConnectionRecord) (via : Nat)
    (scheme : String) (ops : ConnectorOps) (frames : List Bytes) :
    (st.flushFramesToConnector env owner via scheme ops frames).1.records = st.records := by
  unfold flushFramesToConnector
  split
  · rfl
  · split
    · dsimp only
      split <;> rfl
    · exact st.sendEach_records env owner via scheme frames

theorem Impl.flushFrames_find (env : Env) (st : Impl) (owner : ConnectionRecord) (via : Nat)
    (scheme : String) (ops : ConnectorOps) (frames : List Bytes) (id : Nat) :
    (st.flushFramesToConnector env owner via scheme ops frames).1.find id = st.find id := by
  unfold find
  rw [flushFrames_records]

theorem Impl.modifyPath_find {st : Impl} {id : Nat} {r : ConnectionRecord}
    (hr : st.find id = some r) (via : Nat) (f : TransportPath → TransportPath) :
    (st.modifyPath id via f).find id =
      some { r with transportPaths := GoodNet.modifyPath r.transportPaths via f } := by
  unfold modifyPath
  rw [find_modify_self,hr,Option.map_some]

/-- The loop over the paths that were active when it began: those still to come are as they
were then. -/
theorem Impl.tryPaths_tracked (env : Env) {st : Impl} {id : Nat} (owner : ConnectionRecord)
    (batch : List Bytes) {paths : List TransportPath} {history : List Attempt}
    {r : ConnectionRecord} (hr : st.find id = some r) (h : r.Tracked history)
    (hpaths : ∀ p ∈ paths, p ∈ r.transportPaths ∧ p.active = true)
    (hnodup : (paths.map TransportPath.transportConnId).Nodup) :
    ∃ r', (st.tryPaths env id owner batch paths).1.find id = some r' ∧
      r'.Tracked ((st.attempts env id owner batch paths).reverse ++ history) ∧
      r'.transportPaths.map TransportPath.transportConnId =
        r.transportPaths.map TransportPath.transportConnId := by
  induction paths generalizing st r history with
  | nil => exact ⟨r,hr,h,rfl⟩
  | cons p ps ih =>
    obtain ⟨hmem,hact⟩ := hpaths p List.mem_cons_self
    have hps := fun q hq => hpaths q (List.mem_cons_of_mem p hq)
    rw [List.map_cons,List.nodup_cons] at hnodup
    unfold tryPaths attempts
    cases hc : st.findConnector p.scheme with
    | none => exact ih hr h hps hnodup.2
    | some ops =>
      have hsame : (st.flushFramesToConnector env owner p.transportConnId p.scheme ops batch).1.find
          id = some r := (flushFrames_find env st _ _ _ _ _ id).trans hr
      dsimp only
      cases hsent : (st.flushFramesToConnector env owner p.transportConnId p.scheme ops batch).2 with
      | true =>
        have hupd := h.attempt hmem TransportPath.succeed_id ((h.paths p hmem).succeed hact)
        simp only [if_true]
        refine ⟨_,modifyPath_find hsame _ _,?_,map_modifyPath TransportPath.succeed_id _ _⟩
        exact hupd
      | false =>
        have hupd := h.attempt hmem TransportPath.fail_id ((h.paths p hmem).fail hact)
        have hfound := modifyPath_find hsame p.transportConnId TransportPath.fail
        have hlater : ∀ q ∈ ps, q ∈ GoodNet.modifyPath r.transportPaths p.transportConnId
            TransportPath.fail ∧ q.active = true := by
          intro q hq
          obtain ⟨hqr,hqa⟩ := hps q hq
          have hne : q.transportConnId ≠ p.transportConnId := by
            intro heq
            exact hnodup.1 (heq ▸ List.mem_map_of_mem hq)
          exact ⟨List.mem_map.2 ⟨q,hqr,by simp [hne]⟩,hqa⟩
        obtain ⟨r',hr',ht',hids'⟩ := ih hfound hupd hlater hnodup.2
        refine ⟨r',by simpa using hr',?_,?_⟩
        · simpa using ht'
        · exact hids'.trans (map_modifyPath TransportPath.fail_id _ _)

/-- Whether `flush_queue` has anything to send. -/
def Impl.hasBatch (st : Impl) (id : Nat) : Bool :=
  !st.shuttingDown &&
    match st.sendQueues.lookup id with
    | some q => !(q.drainBatch 64).2.isEmpty
    | none => false

theorem Impl.flushAttempts_none (env : Env) {st : Impl} {id : Nat} (h : st.hasBatch id = false) :
    st.flushAttempts env id = [] ∧ st.flushQueue env id = st := by
  unfold hasBatch at h
  unfold flushAttempts flushQueue
  cases hs : st.shuttingDown with
  | true => simp
  | false =>
    simp only [Bool.false_eq_true,if_false]
    cases hq : st.sendQueues.lookup id with
    | none =>
      cases hr : st.find id with
      | none => exact ⟨rfl,rfl⟩
      | some r => exact ⟨rfl,rfl⟩
    | some q =>
      have hempty : (q.drainBatch 64).2.isEmpty = true := by simpa [hs,hq] using h
      cases hr : st.find id with
      | none => exact ⟨rfl,rfl⟩
      | some r => simp only [hempty,if_true,and_self]

/-- A flush with something to send: the loop, and what comes after it if no path took the
batch. -/
theorem Impl.flushQueue_batch (env : Env) {st : Impl} {id : Nat} {r : ConnectionRecord}
    (hr : st.find id = some r) (h : st.hasBatch id = true) :
    ∃ (st₁ : Impl) (batch : List Bytes), st₁.records = st.records ∧ st₁.connectors = st.connectors ∧
      st.flushAttempts env id = st₁.attempts env id r batch r.activePaths ∧
      (st.flushQueue env id).records =
        (st₁.tryPaths env id r batch r.activePaths).1.records := by
  unfold hasBatch at h
  cases hs : st.shuttingDown with
  | true => simp [hs] at h
  | false =>
    cases hq : st.sendQueues.lookup id with
    | none => simp [hq] at h
    | some q =>
      have hbatch : (q.drainBatch 64).2.isEmpty = false := by simpa [hs,hq] using h
      refine ⟨st.setQueue id (q.drainBatch 64).1,(q.drainBatch 64).2,rfl,rfl,?_,?_⟩
      · unfold flushAttempts
        simp only [hs,hr,hq,hbatch,Bool.false_eq_true,if_false]
      · unfold flushQueue
        simp only [hs,hr,hq,hbatch,Bool.false_eq_true,if_false]
        split
        · rfl
        · split
          · exact flushFrames_records env _ _ _ _ _ _
          · rfl

theorem ConnectionRecord.activePaths_nodup {r : ConnectionRecord}
    (h : (r.transportPaths.map TransportPath.transportConnId).Nodup) :
    (r.activePaths.map TransportPath.transportConnId).Nodup := by
  have hsub : ((r.transportPaths.filter (fun p => p.active)).map
      TransportPath.transportConnId).Nodup := h.sublist (List.filter_sublist.map _)
  exact ((List.perm_insertionSort _ _).map _).nodup_iff.2 hsub

/-- What a flush does to the record. -/
theorem ConnectionRecord.Tracked.flush {env : Env} {st : Impl} {id : Nat} {r : ConnectionRecord}
    {history : List Attempt} (hr : st.find id = some r) (h : r.Tracked history) :
    ∃ r', (st.flushQueue env id).find id = some r' ∧
      r'.Tracked ((st.flushAttempts env id).reverse ++ history) ∧
      r'.transportPaths.map TransportPath.transportConnId =
        r.transportPaths.map TransportPath.transportConnId := by
  cases hb : st.hasBatch id with
  | false =>
    obtain ⟨hatt,hst⟩ := Impl.flushAttempts_none env hb
    rw [hatt,hst]
    exact ⟨r,hr,h,rfl⟩
  | true =>
    obtain ⟨st₁,batch,hrec,-,hatt,hflush⟩ := Impl.flushQueue_batch env hr hb
    have hr₁ : st₁.find id = some r := by
      unfold Impl.find at hr ⊢
      rw [hrec,hr]
    obtain ⟨r',hr',ht',hids'⟩ := Impl.tryPaths_tracked env r batch hr₁ h
      (fun p hp => ConnectionRecord.mem_activePaths hp) (ConnectionRecord.activePaths_nodup h.nodup)
    refine ⟨r',?_,by rw [hatt]; exact ht',hids'⟩
    unfold Impl.find at hr' ⊢
    rw [hflush,hr']

theorem Impl.mem_attempts {env : Env} {id : Nat} {owner : ConnectionRecord} {batch : List Bytes}
    {paths : List TransportPath} {st : Impl} {a : Attempt}
    (h : a ∈ st.attempts env id owner batch paths) : ∃ p ∈ paths, a.via = p.transportConnId := by
  induction paths generalizing st with
  | nil => simp [attempts] at h
  | cons p ps ih =>
    unfold attempts at h
    split at h
    · obtain ⟨q,hq,hv⟩ := ih h
      exact ⟨q,List.mem_cons_of_mem p hq,hv⟩
    · rcases List.mem_cons.1 h with rfl | h
      · exact ⟨p,List.mem_cons_self,rfl⟩
      · split at h
        · simp at h
        · obtain ⟨q,hq,hv⟩ := ih h
          exact ⟨q,List.mem_cons_of_mem p hq,hv⟩

/-- The attempts go down the list of paths, those without a connector left out, and end with
the first that succeeds. -/
structure InOrder (paths : List TransportPath) (attempts : List Attempt) : Prop where
  along : attempts.map Attempt.via <+: paths.map TransportPath.transportConnId
  failed : ∀ a ∈ attempts.dropLast, a.ok = false
  ended : (∃ a ∈ attempts, a.ok = true) ∨
    attempts.map Attempt.via = paths.map TransportPath.transportConnId

theorem mem_dropLast_cons {a b : Attempt} {l : List Attempt} (h : a ∈ (b :: l).dropLast) :
    a = b ∨ a ∈ l.dropLast := by
  cases l with
  | nil => simp at h
  | cons c l =>
    rw [List.dropLast_cons_cons] at h
    exact List.mem_cons.1 h

theorem Impl.attempts_inOrder (env : Env) (id : Nat) (owner : ConnectionRecord) (batch : List Bytes)
    (paths : List TransportPath) (st : Impl) :
    InOrder (paths.filter (fun p => (st.findConnector p.scheme).isSome))
      (st.attempts env id owner batch paths) := by
  induction paths generalizing st with
  | nil => exact ⟨List.prefix_refl _,by simp [attempts],.inr rfl⟩
  | cons p ps ih =>
    unfold attempts
    cases hc : st.findConnector p.scheme with
    | none =>
      simp only [List.filter_cons,hc,Option.isSome_none,Bool.false_eq_true,if_false]
      exact ih st
    | some ops =>
      have hkept : ((st.flushFramesToConnector env owner p.transportConnId p.scheme ops
          batch).1.modifyPath id p.transportConnId TransportPath.fail).connectors =
          st.connectors := by
        have hf : Footprint (fun _ => True) st (st.flushFramesToConnector env owner
            p.transportConnId p.scheme ops batch).1 :=
          st.flushFrames_footprint env owner p.transportConnId p.scheme ops batch
            (fun _ _ => trivial) (fun _ _ => trivial) (fun _ => trivial) (fun _ => trivial)
        exact hf.connectors
      have hrest := ih ((st.flushFramesToConnector env owner p.transportConnId p.scheme ops
          batch).1.modifyPath id p.transportConnId TransportPath.fail)
      unfold findConnector at hrest
      rw [hkept] at hrest
      simp only [List.filter_cons,hc,Option.isSome_some,if_true]
      split
      · rename_i hok
        refine ⟨?_,by simp,.inl ⟨_,List.mem_cons_self,hok⟩⟩
        simp
      · rename_i hok
        rw [Bool.not_eq_true] at hok
        refine ⟨?_,?_,?_⟩
        · exact (List.prefix_cons_inj _).2 hrest.along
        · intro a ha
          rcases mem_dropLast_cons ha with rfl | ha
          · exact hok
          · exact hrest.failed a ha
        · rcases hrest.ended with ⟨a,ha,hsucc⟩ | hall
          · exact .inl ⟨a,List.mem_cons_of_mem _ ha,hsucc⟩
          · exact .inr (congrArg (p.transportConnId :: ·) hall)

theorem ConnectionRecord.activePaths_sorted (r : ConnectionRecord) :
    r.activePaths.Pairwise (fun a b => a.priority ≤ b.priority) := by
  have : Std.Total (fun a b : TransportPath => a.priority ≤ b.priority) :=
    ⟨fun a b => UInt8.le_total a.priority b.priority⟩
  have : IsTrans TransportPath (fun a b => a.priority ≤ b.priority) :=
    ⟨fun _ _ _ => UInt8.le_trans⟩
  exact List.pairwise_insertionSort _ _

/-- Where a frame was handed to. -/
def Effect.target : Effect → Option (Nat × String)
  | .sendTo _ via scheme _ _ => some (via,scheme)
  | .sendGather _ via scheme _ _ => some (via,scheme)
  | _ => none

/-- The connections of the manager and the attempts made on the paths of one of them. -/
structure PathRun where
  st : Impl
  history : List Attempt := []

/-- Frames queue up and are flushed while connectors register, the peer's schemes are
negotiated, paths are added and disconnected. -/
inductive PathStep where
  | enqueue (frame : Bytes)
  | flush
  | register (scheme : String) (ops : ConnectorOps)
  | negotiate (hp : HandshakePayload) (schemes : List String)
  | attach (ep : Endpoint) (scheme : String)
  | disconnected (via : Nat)

def PathRun.act (env : Env) (id : Nat) (s : PathRun) : PathStep → PathRun
  | .enqueue frame =>
    let q := s.st.getOrCreateQueue id
    { s with st := q.1.setQueue id (q.2.tryPush frame).1 }
  | .flush =>
    ⟨s.st.flushQueue env id,(s.st.flushAttempts env id).reverse ++ s.history⟩
  | .register scheme ops => { s with st := s.st.registerConnector scheme ops }
  | .negotiate hp schemes => { s with st := s.st.modify id (s.st.authenticate hp schemes) }
  | .attach ep scheme => { s with st := s.st.attachTransport id ep scheme }
  | .disconnected via => { s with st := s.st.handleDisconnect via }

/-- When no path is active and there is something to send, the fallback is not the connector of
an inactive path. -/
def FallbackFree (id : Nat) (s : PathRun) : PathStep → Prop
  | .flush =>
    s.st.hasBatch id = true → ∀ r ∈ s.st.find id, r.activePaths = [] →
      (s.st.findConnector r.fallbackScheme).isSome = true →
        ∀ p ∈ r.transportPaths, p.transportConnId = id →
          connectorName p.scheme ≠ connectorName r.fallbackScheme
  | _ => True

instance (id : Nat) (s : PathRun) : (step : PathStep) → Decidable (FallbackFree id s step)
  | .flush => inferInstanceAs (Decidable (_ → _))
  | .enqueue _ => inferInstanceAs (Decidable True)
  | .register _ _ => inferInstanceAs (Decidable True)
  | .negotiate _ _ => inferInstanceAs (Decidable True)
  | .attach _ _ => inferInstanceAs (Decidable True)
  | .disconnected _ => inferInstanceAs (Decidable True)

/-- What a flush must do: try the active paths that have a connector, best priority first, until
one takes the frames, and hand nothing to the connector of an inactive path. -/
structure FlushedOnPaths (env : Env) (id : Nat) (st : Impl) (r : ConnectionRecord) : Prop where
  sorted : r.activePaths.Pairwise (fun a b => a.priority ≤ b.priority)
  active : ∀ p, p ∈ r.activePaths ↔ p ∈ r.transportPaths ∧ p.active = true
  tried : st.hasBatch id = true →
    InOrder (r.activePaths.filter (fun p => (st.findConnector p.scheme).isSome))
      (st.flushAttempts env id)
  handed : ∃ new, (st.flushQueue env id).log = new ++ st.log ∧
    ∀ e ∈ new, ∀ via scheme, e.target = some (via,scheme) →
      ∀ p ∈ r.transportPaths, p.transportConnId = via →
        connectorName p.scheme = connectorName scheme → p.active = true

def FlushSound (env : Env) (id : Nat) (s : PathRun) : PathStep → Prop
  | .flush => ∀ r, s.st.find id = some r → FlushedOnPaths env id s.st r
  | _ => True

/-- The paths of the connection are tracked, and ids to come are new to it. -/
structure PathRun.Sound (id : Nat) (s : PathRun) : Prop where
  tracked : ∀ r, s.st.find id = some r → r.Tracked s.history
  below : ∀ r, s.st.find id = some r → ∀ p ∈ r.transportPaths, p.transportConnId < s.st.nextId
  history : ∀ a ∈ s.history, a.via < s.st.nextId

theorem PathRun.Sound.flushSound {env : Env} {id : Nat} {s : PathRun} (h : s.Sound id)
    (hfree : FallbackFree id s .flush) : FlushSound env id s .flush := by
  intro r hr
  have hmem : ∀ p, p ∈ r.activePaths ↔ p ∈ r.transportPaths ∧ p.active = true := by
    intro p
    refine ⟨ConnectionRecord.mem_activePaths,fun hp => ?_⟩
    exact (List.perm_insertionSort _ _).mem_iff.2 (List.mem_filter.2 hp)
  refine ⟨r.activePaths_sorted,hmem,?_,?_⟩
  · intro hb
    obtain ⟨st₁,batch,-,hconn,hatt,-⟩ := Impl.flushQueue_batch env hr hb
    have horder := st₁.attempts_inOrder env id r batch r.activePaths
    unfold Impl.findConnector at horder ⊢
    rw [hconn] at horder
    rw [hatt]
    exact horder
  · cases hb : s.st.hasBatch id with
    | false =>
      rw [(Impl.flushAttempts_none env hb).2]
      exact ⟨[],rfl,by simp⟩
    | true =>
      obtain ⟨new,hnew,hallowed⟩ := (s.st.flushQueue_footprint env id).log
      refine ⟨new,hnew,?_⟩
      have hreach : ∀ via scheme, r.Reaches s.st id via scheme → ∀ p ∈ r.transportPaths,
          p.transportConnId = via → connectorName p.scheme = connectorName scheme →
            p.active = true := by
        rintro via scheme (⟨q,hq,hact,hid,-⟩ | ⟨hnone,hsome,rfl,rfl⟩) p hp hvia hname
        · have heq : p = q := List.inj_on_of_nodup_map (h.tracked r hr).nodup hp hq
            (hvia.trans hid.symm)
          rw [heq]
          exact hact
        · exact absurd hname (hfree hb r hr hnone hsome p hp hvia)
      intro e he via scheme htarget
      obtain ⟨r',hr',hon⟩ := hallowed e he
      rw [hr,Option.some.injEq] at hr'
      subst hr'
      cases e with
      | sendTo o v s' f ok =>
        simp only [Effect.target,Option.some.injEq,Prod.mk.injEq] at htarget
        obtain ⟨rfl,rfl⟩ := htarget
        exact hreach _ _ hon.2
      | sendGather o v s' fs ok =>
        simp only [Effect.target,Option.some.injEq,Prod.mk.injEq] at htarget
        obtain ⟨rfl,rfl⟩ := htarget
        exact hreach _ _ hon.2
      | _ => simp [Effect.target] at htarget

theorem TransportPath.Tracked.congr {history : List Attempt} {p q : TransportPath}
    (h : p.Tracked history) (hid : q.transportConnId = p.transportConnId)
    (hact : q.active = p.active) (herr : q.consecutiveErrors = p.consecutiveErrors) :
    q.Tracked history where
  errors := by rw [herr,hid,h.errors]
  inactive := by rw [hact,hid,h.inactive]

/-- Negotiation renames the first path and leaves its state. -/
theorem Impl.authenticate_paths (st : Impl) (hp : HandshakePayload) (schemes : List String)
    (r : ConnectionRecord) :
    (st.authenticate hp schemes r).transportPaths.map
        (fun p => (p.transportConnId,p.active,p.consecutiveErrors)) =
      r.transportPaths.map (fun p => (p.transportConnId,p.active,p.consecutiveErrors)) := by
  unfold authenticate
  dsimp only
  split
  · rename_i hnil
    rw [hnil]
  · rename_i tp rest hcons
    rw [hcons]
    rfl

theorem ConnectionRecord.Tracked.of_map {history : List Attempt} {r r' : ConnectionRecord}
    (h : r.Tracked history)
    (heq : r'.transportPaths.map (fun p => (p.transportConnId,p.active,p.consecutiveErrors)) =
      r.transportPaths.map (fun p => (p.transportConnId,p.active,p.consecutiveErrors))) :
    r'.Tracked history ∧ r'.transportPaths.map TransportPath.transportConnId =
      r.transportPaths.map TransportPath.transportConnId := by
  have hids := congrArg (List.map Prod.fst) heq
  simp only [List.map_map] at hids
  refine ⟨⟨?_,?_⟩,hids⟩
  · change (r'.transportPaths.map (Prod.fst ∘ fun p =>
      (p.transportConnId,p.active,p.consecutiveErrors))).Nodup
    rw [hids]
    exact h.nodup
  · intro q hq
    have hmem := List.mem_map_of_mem
      (f := fun p : TransportPath => (p.transportConnId,p.active,p.consecutiveErrors)) hq
    rw [heq] at hmem
    obtain ⟨p,hp,hfields⟩ := List.mem_map.1 hmem
    simp only [Prod.mk.injEq] at hfields
    exact (h.paths p hp).congr hfields.1.symm hfields.2.1.symm hfields.2.2.symm

theorem PathRun.Sound.congr {id : Nat} {s : PathRun} (h : s.Sound id) {st' : Impl}
    (hn : st'.nextId = s.st.nextId)
    (hf : ∀ r', st'.find id = some r' → ∃ r, s.st.find id = some r ∧
      (r.Tracked s.history → r'.Tracked s.history) ∧
      ∀ p ∈ r'.transportPaths, ∃ q ∈ r.transportPaths, p.transportConnId = q.transportConnId) :
    PathRun.Sound id { s with st := st' } where
  tracked := by
    intro r' hr'
    obtain ⟨r,hr,ht,-⟩ := hf r' hr'
    exact ht (h.tracked r hr)
  below := by
    intro r' hr' p hp
    obtain ⟨r,hr,-,hids⟩ := hf r' hr'
    obtain ⟨q,hq,hid⟩ := hids p hp
    rw [hid]
    exact hn ▸ h.below r hr q hq
  history := fun a ha => hn ▸ h.history a ha

theorem PathRun.Sound.same {id : Nat} {s : PathRun} (h : s.Sound id) {st' : Impl}
    (hn : st'.nextId = s.st.nextId) (hf : st'.find id = s.st.find id) :
    PathRun.Sound id { s with st := st' } :=
  h.congr hn (fun r' hr' => ⟨r',hf ▸ hr',fun ht => ht,fun p hp => ⟨p,hp,rfl⟩⟩)

theorem exists_same_id {a b : List TransportPath}
    (h : a.map TransportPath.transportConnId = b.map TransportPath.transportConnId)
    {p : TransportPath} (hp : p ∈ a) : ∃ q ∈ b, p.transportConnId = q.transportConnId := by
  have hmem := List.mem_map_of_mem (f := TransportPath.transportConnId) hp
  rw [h] at hmem
  obtain ⟨q,hq,hid⟩ := List.mem_map.1 hmem
  exact ⟨q,hq,hid.symm⟩

theorem PathRun.Sound.flush {env : Env} {id : Nat} {s : PathRun} (h : s.Sound id) :
    (s.act env id .flush).Sound id := by
  have hfoot := s.st.flushQueue_footprint env id
  have hback : ∀ r', (s.st.flushQueue env id).find id = some r' → ∃ r, s.st.find id = some r ∧
      r'.Tracked ((s.st.flushAttempts env id).reverse ++ s.history) ∧
      r'.transportPaths.map TransportPath.transportConnId =
        r.transportPaths.map TransportPath.transportConnId := by
    intro r' hr'
    obtain ⟨r,hr,-⟩ := hfoot.find_some hr'
    obtain ⟨r₁,hr₁,ht₁,hids₁⟩ := ConnectionRecord.Tracked.flush (h := h.tracked r hr) hr
    rw [hr',Option.some.injEq] at hr₁
    subst hr₁
    exact ⟨r,hr,ht₁,hids₁⟩
  have hnext : (s.st.flushQueue env id).nextId = s.st.nextId := hfoot.nextId
  refine ⟨fun r' hr' => ?_,fun r' hr' p hp => ?_,fun a ha => ?_⟩
  · obtain ⟨r,hr,ht,-⟩ := hback r' hr'
    exact ht
  · obtain ⟨r,hr,-,hids⟩ := hback r' hr'
    obtain ⟨q,hq,hid⟩ := exists_same_id hids hp
    rw [hid]
    exact hnext ▸ h.below r hr q hq
  · have hlt : a.via < s.st.nextId := by
      rcases List.mem_append.1 ha with ha | ha
      · rw [List.mem_reverse] at ha
        cases hb : s.st.hasBatch id with
        | false => simp [(Impl.flushAttempts_none env hb).1] at ha
        | true =>
          cases hr : s.st.find id with
          | none =>
            unfold Impl.flushAttempts at ha
            rw [hr] at ha
            split at ha <;> simp at ha
          | some r =>
            obtain ⟨st₁,batch,-,-,hatt,-⟩ := Impl.flushQueue_batch env hr hb
            rw [hatt] at ha
            obtain ⟨p,hp,hvia⟩ := Impl.mem_attempts ha
            rw [hvia]
            exact h.below r hr p (ConnectionRecord.mem_activePaths hp).1
      · exact h.history a ha
    exact hnext ▸ hlt

theorem PathRun.Sound.attach {env : Env} {id : Nat} {s : PathRun} (h : s.Sound id) (ep : Endpoint)
    (scheme : String) : (s.act env id (.attach ep scheme)).Sound id := by
  have hnext : (s.st.attachTransport id ep scheme).nextId = s.st.nextId+1 := rfl
  have hback : ∀ r', (s.st.attachTransport id ep scheme).find id = some r' →
      ∃ r, s.st.find id = some r ∧ r' = { r with transportPaths := r.transportPaths ++
        [{ transportConnId := s.st.nextId, scheme := scheme,
           priority := s.st.schemePriorityIndex scheme, remote := ep }] } := by
    intro r' hr'
    obtain ⟨r,hr,⟨-,heq⟩ | ⟨hne,-⟩⟩ := Impl.attachTransport_find hr'
    · exact ⟨r,hr,heq⟩
    · exact absurd rfl hne
  refine ⟨fun r' hr' => ?_,fun r' hr' p hp => ?_,fun a ha => ?_⟩
  · obtain ⟨r,hr,rfl⟩ := hback r' hr'
    have ht := h.tracked r hr
    have hunknown : failures s.history s.st.nextId = 0 ∧ ¬ ReachedThree s.history s.st.nextId :=
      failures_unknown (fun a ha => Nat.ne_of_lt (h.history a ha))
    refine ⟨?_,?_⟩
    · rw [List.map_append,List.map_singleton,List.nodup_append]
      refine ⟨ht.nodup,by simp,?_⟩
      intro x hx y hy
      obtain ⟨p,hp,rfl⟩ := List.mem_map.1 hx
      rw [List.mem_singleton.1 hy]
      exact Nat.ne_of_lt (h.below r hr p hp)
    · intro p hp
      rcases List.mem_append.1 hp with hp | hp
      · exact ht.paths p hp
      · rw [List.mem_singleton.1 hp]
        exact ⟨hunknown.1.symm,iff_of_false (by simp) hunknown.2⟩
  · obtain ⟨r,hr,rfl⟩ := hback r' hr'
    have hlt : p.transportConnId < s.st.nextId+1 := by
      rcases List.mem_append.1 hp with hp | hp
      · exact Nat.lt_succ_of_lt (h.below r hr p hp)
      · rw [List.mem_singleton.1 hp]
        exact Nat.lt_succ_self _
    exact hlt
  · exact Nat.lt_succ_of_lt (h.history a ha)

theorem PathRun.Sound.act {env : Env} {id : Nat} {s : PathRun} (h : s.Sound id) (step : PathStep) :
    (s.act env id step).Sound id := by
  cases step with
  | enqueue frame =>
    have hqueue : Footprint (fun _ => True) s.st (s.st.getOrCreateQueue id).1 :=
      s.st.getOrCreateQueue_footprint id
    exact h.same hqueue.nextId (s.st.getOrCreateQueue_same id id).1
  | flush => exact h.flush
  | register scheme ops => exact h.same rfl rfl
  | negotiate hp schemes =>
    refine h.congr rfl (fun r' hr' => ?_)
    rw [Impl.find_modify_self] at hr'
    obtain ⟨r,hr,rfl⟩ := Option.map_eq_some_iff.1 hr'
    have hpaths := s.st.authenticate_paths hp schemes r
    refine ⟨r,hr,fun ht => (ht.of_map hpaths).1,fun p hp => ?_⟩
    exact exists_same_id ((h.tracked r hr).of_map hpaths).2 hp
  | attach ep scheme => exact h.attach ep scheme
  | disconnected via =>
    refine h.congr (s.st.handleDisconnect_nextId via) (fun r' hr' => ?_)
    obtain ⟨r,hr,rfl | rfl⟩ := Impl.handleDisconnect_find hr'
    · exact ⟨r',hr,fun ht => ht,fun p hp => ⟨p,hp,rfl⟩⟩
    · have hsub : (r.dropPath via).transportPaths.Sublist r.transportPaths := List.filter_sublist
      refine ⟨r,hr,fun ht => ⟨ht.nodup.sublist (hsub.map _),fun p hp => ht.paths p ?_⟩,?_⟩
      · exact hsub.subset hp
      · exact fun p hp => ⟨p,hsub.subset hp,rfl⟩

theorem pathRun_start (env : Env) (st : Impl) (ep : Endpoint) :
    PathRun.Sound st.nextId ⟨st.insertRecord env ep,[]⟩ := by
  have hnext : (st.insertRecord env ep).nextId = st.nextId+1 := rfl
  have hunknown : failures [] st.nextId = 0 ∧ ¬ ReachedThree [] st.nextId :=
    failures_unknown (by simp)
  refine ⟨fun r hr => ?_,fun r hr p hp => ?_,by simp⟩
  · rw [Impl.insertRecord_find,Option.some.injEq] at hr
    subst hr
    refine ⟨by simp [Impl.newRecord],fun p hp => ?_⟩
    rw [List.mem_singleton.1 hp]
    exact ⟨hunknown.1.symm,iff_of_false (by simp) hunknown.2⟩
  · rw [Impl.insertRecord_find,Option.some.injEq] at hr
    subst hr
    rw [List.mem_singleton.1 hp]
    exact Nat.lt_succ_self _

/-- From the connect on, every flush goes down the active paths and keeps to them, and a path's
errors and state are those of its attempts. -/
theorem flushed_on_active_paths (env : Env) (st : Impl) (ep : Endpoint) (steps : List PathStep)
    (h : Along (PathRun.act env st.nextId) (FallbackFree st.nextId)
      ⟨st.insertRecord env ep,[]⟩ steps) :
    Along (PathRun.act env st.nextId) (FlushSound env st.nextId) ⟨st.insertRecord env ep,[]⟩
      steps ∧
    ∀ r, (run (PathRun.act env st.nextId) ⟨st.insertRecord env ep,[]⟩ steps).st.find st.nextId =
        some r →
      ∀ p ∈ r.transportPaths,
        p.Tracked (run (PathRun.act env st.nextId) ⟨st.insertRecord env ep,[]⟩ steps).history := by
  have hkeep : ∀ (s : PathRun) step, s.Sound st.nextId → FallbackFree st.nextId s step →
      (s.act env st.nextId step).Sound st.nextId := fun s step hs _ => hs.act step
  refine ⟨h.promises hkeep ?_ (pathRun_start env st ep),fun r hr => ?_⟩
  · intro s step hs hfree
    cases step with
    | flush => exact hs.flushSound hfree
    | _ => trivial
  · exact ((h.invariant hkeep (pathRun_start env st ep)).tracked r hr).paths

/-- A manager with a TCP connector. -/
def withTcp : Impl := (Impl.start NodeIdentity.alice).registerConnector "tcp" {}

/-- Some calls to the connectors fail. -/
def failoverEnv : Env := { Env.sample false with sends := fun n => !([2,4,6].contains n) }

def failoverStart : PathRun := ⟨withTcp.insertRecord failoverEnv (Endpoint.sample "b" 0),[]⟩

/-- A second path is attached. The first one takes a frame, then refuses three, and is left out. -/
def failover : List PathStep :=
  [.register "ice" {},.attach (Endpoint.sample "b" 0) "ice",.enqueue [7],.flush,.enqueue [8],.flush,
    .enqueue [9],.flush,.enqueue [10],.flush,.enqueue [11],.flush]

theorem flushed_on_active_paths_failover :
    Along (PathRun.act failoverEnv 1) (FlushSound failoverEnv 1) failoverStart failover ∧
    ∃ r, (run (PathRun.act failoverEnv 1) failoverStart failover).st.find 1 = some r ∧
      r.transportPaths.map (fun p => (p.transportConnId,p.active,p.consecutiveErrors)) =
        [(1,false,3),(2,true,0)] ∧
      ∀ p ∈ r.transportPaths,
        p.Tracked [⟨2,true⟩,⟨2,true⟩,⟨1,false⟩,⟨2,true⟩,⟨1,false⟩,⟨2,true⟩,⟨1,false⟩,⟨1,true⟩] := by
  obtain ⟨hsound,htracked⟩ := flushed_on_active_paths failoverEnv withTcp (Endpoint.sample "b" 0)
    failover (by decide +kernel)
  obtain ⟨hpaths,hhistory⟩ :
      ((run (PathRun.act failoverEnv 1) failoverStart failover).st.find 1).map (fun r =>
        r.transportPaths.map (fun p => (p.transportConnId,p.active,p.consecutiveErrors))) =
          some [(1,false,3),(2,true,0)] ∧
      (run (PathRun.act failoverEnv 1) failoverStart failover).history =
        [⟨2,true⟩,⟨2,true⟩,⟨1,false⟩,⟨2,true⟩,⟨1,false⟩,⟨2,true⟩,⟨1,false⟩,⟨1,true⟩] := by
    decide +kernel
  obtain ⟨r,hr,hfields⟩ := Option.map_eq_some_iff.mp hpaths
  refine ⟨hsound,r,hr,hfields,fun p hp => ?_⟩
  rw [← hhistory]
  exact htracked r hr p hp

/-- The connector refuses every frame. -/
def refusingEnv : Env := { Env.sample false with sends := fun _ => false }

/-- Three failed flushes deactivate the only path; a fourth frame then waits in the queue. -/
def threeFailures : List PathStep :=
  [.enqueue [7],.flush,.enqueue [7],.flush,.enqueue [7],.flush,.enqueue [7]]

/-- The fourth flush hands its frame to the connector of the inactive path, under the path's own
id: with no path active the fallback scheme takes over. -/
theorem frame_on_inactive_path :
    ¬ Along (PathRun.act refusingEnv 1) (FlushSound refusingEnv 1)
      ⟨withTcp.insertRecord refusingEnv (Endpoint.sample "b" 0),[]⟩
      (threeFailures ++ [.flush]) := by
  intro h
  generalize hbefore : run (PathRun.act refusingEnv 1)
    ⟨withTcp.insertRecord refusingEnv (Endpoint.sample "b" 0),[]⟩ threeFailures = before
  have hlast : FlushSound refusingEnv 1 before .flush := hbefore ▸ h.inside
  have hfound : ∃ r, before.st.find 1 = some r ∧ ∃ p ∈ r.transportPaths,
      p.transportConnId = 1 ∧ p.scheme = "tcp" ∧ p.active = false := by
    have hp : (before.st.find 1).map (fun r => r.transportPaths.map (fun p =>
        (p.transportConnId,p.scheme,p.active))) = some [(1,"tcp",false)] := by
      rw [← hbefore]
      decide +kernel
    obtain ⟨r,hr,hpaths⟩ := Option.map_eq_some_iff.1 hp
    have hmem : (1,"tcp",false) ∈ r.transportPaths.map (fun p =>
        (p.transportConnId,p.scheme,p.active)) := by rw [hpaths]; exact List.mem_singleton.2 rfl
    obtain ⟨p,hp,hfields⟩ := List.mem_map.1 hmem
    simp only [Prod.mk.injEq] at hfields
    exact ⟨r,hr,p,hp,hfields⟩
  obtain ⟨r,hr,p,hp,hid,hscheme,hinactive⟩ := hfound
  obtain ⟨new,hnew,hhanded⟩ := (hlast r hr).handed
  have htargets : (before.st.flushQueue refusingEnv 1).log.map Effect.target =
      some (1,"") :: before.st.log.map Effect.target := by
    rw [← hbefore]
    decide +kernel
  rw [hnew,List.map_append,← List.singleton_append] at htargets
  have hmem : some (1,"") ∈ new.map Effect.target := by
    rw [(List.append_inj' htargets rfl).1]
    exact List.mem_singleton.2 rfl
  obtain ⟨e,he,htarget⟩ := List.mem_map.1 hmem
  have hactive := hhanded e he 1 "" htarget p hp hid (by rw [hscheme]; rfl)
  rw [hinactive] at hactive
  exact absurd hactive (by simp)

end GoodNet
