import GoodNet.ManagerRun
set_option autoImplicit false

/-! What becomes of a batch that `flush_queue` has drained. The paths are tried in turn, each
with the whole batch, and the verdict on a path is a single flag although its connector may
take some frames and refuse others. -/

namespace GoodNet
open Codec

/-- The frames a connector call was offered, and whether it took them. -/
def Effect.offers : Effect → List (Bytes × Bool)
  | .sendTo _ _ _ f ok => [(f,ok)]
  | .sendGather _ _ _ fs ok => fs.map (fun f => (f,ok))
  | _ => []

def Effect.isDrop : Effect → Bool
  | .drop .. => true
  | _ => false

/-- What has been logged since an earlier state, oldest first. -/
def Impl.since (st old : Impl) : List Effect :=
  (st.log.take (st.log.length-old.log.length)).reverse

/-- The offers among it. -/
def Impl.offersSince (st old : Impl) : List (Bytes × Bool) := (st.since old).flatMap Effect.offers

/-- The batch that `flush_queue` drains. -/
def Impl.drained (st : Impl) (id : Nat) : List Bytes :=
  if st.shuttingDown then []
  else
    match st.find id, st.sendQueues.lookup id with
    | some _, some q => (q.drainBatch 64).2
    | _, _ => []

/-- How often frame `i` of a batch of `n` has been taken, when the batch is offered over and
over from its first frame to its last. -/
def timesTaken (n i : Nat) (offers : List (Bytes × Bool)) : Nat :=
  offers.zipIdx.countP (fun o => o.1.2 && o.2 % n == i)

/-- Nothing is taken twice or out of order, and what nobody takes is reported. -/
structure Impl.Accounts (env : Env) (st : Impl) (id : Nat) : Prop where
  inOrder : ∃ rounds, ((st.flushQueue env id).offersSince st).map Prod.fst =
    (List.replicate rounds (st.drained id)).flatten
  once : ∀ i < (st.drained id).length,
    timesTaken (st.drained id).length i ((st.flushQueue env id).offersSince st) ≤ 1
  reported : ∀ i < (st.drained id).length,
    timesTaken (st.drained id).length i ((st.flushQueue env id).offersSince st) = 0 →
      ∃ why, .drop id why ∈ (st.flushQueue env id).since st

/-- A single `send_gather` for the whole batch. -/
def ConnectorOps.gathers (ops : ConnectorOps) (n : Nat) : Bool :=
  ops.hasSendGather && decide (1 < n)

/-- A connector's answers for the frames of a batch of `n`. -/
def ConnectorOps.answers (env : Env) (ops : ConnectorOps) (asked n : Nat) : List Bool :=
  if ops.gathers n then List.replicate n (env.sends asked)
  else (List.range n).map (fun i => env.sends (asked+i))

/-- The number of calls those answers take. -/
def ConnectorOps.questions (ops : ConnectorOps) (n : Nat) : Nat := if ops.gathers n then 1 else n

def tookAll (answers : List Bool) : Bool := answers.all id

/-- The answers of the paths' connectors, up to the first that takes everything. -/
def Impl.pathAnswers (env : Env) (st : Impl) (n : Nat) : Nat → List TransportPath → List (List Bool)
  | _, [] => []
  | asked, p :: ps =>
    match st.findConnector p.scheme with
    | none => st.pathAnswers env n asked ps
    | some ops =>
      let answers := ops.answers env asked n
      if tookAll answers then [answers]
      else answers :: st.pathAnswers env n (asked+ops.questions n) ps

/-- A connector took some frames and refused others. -/
def Divided (answers : List Bool) : Prop := true ∈ answers ∧ false ∈ answers

/-- After a divided path the next ones refuse what it took. -/
def Spares (earlier later : List Bool) : Prop :=
  Divided earlier → ∀ i : Nat, earlier[i]? = some true → later[i]? = some false

/-- Paths are not offered again what a divided path took, or refuse it; without an active path
the fallback connector takes the whole batch, if there is one. -/
def Impl.FlushesWhole (env : Env) (st : Impl) (id : Nat) : Prop :=
  ∀ r, st.find id = some r → st.drained id ≠ [] →
    if r.activePaths = [] then
      ∀ ops, st.findConnector r.fallbackScheme = some ops →
        false ∉ ops.answers env st.asked (st.drained id).length
    else
      (st.pathAnswers env (st.drained id).length st.asked r.activePaths).Pairwise Spares

/-- `st'` has asked `questions` times and logged `offers` without dropping anything. -/
structure Offered (st st' : Impl) (questions : Nat) (offers : List (Bytes × Bool)) : Prop where
  log : ∃ new : List Effect, st'.log = new.reverse ++ st.log ∧ new.flatMap Effect.offers = offers ∧
    ∀ e ∈ new, e.isDrop = false
  asked : st'.asked = st.asked+questions
  connectors : st'.connectors = st.connectors

section
variable {st st' st'' : Impl} {a b : Nat} {x y : List (Bytes × Bool)}

theorem Offered.refl (st : Impl) : Offered st st 0 [] :=
  ⟨⟨[],rfl,rfl,by simp⟩,rfl,rfl⟩

theorem Offered.trans (h : Offered st st' a x) (h' : Offered st' st'' b y) :
    Offered st st'' (a+b) (x ++ y) := by
  obtain ⟨⟨new,hlog,hx,hd⟩,hasked,hconn⟩ := h
  obtain ⟨⟨new',hlog',hy,hd'⟩,hasked',hconn'⟩ := h'
  refine ⟨⟨new ++ new',?_,?_,fun e he => ?_⟩,by omega,by rw [hconn',hconn]⟩
  · simp [hlog',hlog]
  · rw [List.flatMap_append,hx,hy]
  · rcases List.mem_append.mp he with he | he
    · exact hd e he
    · exact hd' e he

theorem Offered.emit (st : Impl) (e : Effect) (he : e.isDrop = false) :
    Offered st (st.emit e) 0 e.offers :=
  ⟨⟨[e],rfl,by simp,by simpa using he⟩,rfl,rfl⟩

theorem Offered.ask (st : Impl) : Offered st st.ask 1 [] :=
  ⟨⟨[],rfl,rfl,by simp⟩,rfl,rfl⟩

theorem Offered.quiet (h : Offered st st' a x) (st'' : Impl) (hlog : st''.log = st'.log)
    (hasked : st''.asked = st'.asked) (hconn : st''.connectors = st'.connectors) :
    Offered st st'' a x := by
  obtain ⟨⟨new,hl,hrest⟩,ha,hc⟩ := h
  exact ⟨⟨new,hlog.trans hl,hrest⟩,hasked.trans ha,hconn.trans hc⟩

/-- The reports of a frame that was taken add no offer. -/
theorem Offered.stats (h : Offered st st' a x) (k v : Nat) (via : Nat) :
    Offered st ((st'.emit (.stat .txBytes k via)).emit (.stat .txPacket v via)) a x := by
  have hstats := (Offered.emit st' (.stat .txBytes k via) rfl).trans
    (Offered.emit (st'.emit (.stat .txBytes k via)) (.stat .txPacket v via) rfl)
  have hall := h.trans hstats
  simpa [Effect.offers] using hall

theorem zip_replicate_length {α β : Type} (l : List α) (b : β) :
    l.zip (List.replicate l.length b) = l.map (fun a => (a,b)) := by
  induction l with
  | nil => rfl
  | cons a l ih => simp [List.replicate_succ,ih]

theorem Impl.sendEach_offered (env : Env) (st : Impl) (owner : ConnectionRecord) (via : Nat) (scheme : String)
    (frames : List Bytes) :
    Offered st (st.sendEach env owner via scheme frames).1 frames.length
        (frames.zip ((List.range frames.length).map (fun i => env.sends (st.asked+i)))) ∧
      (st.sendEach env owner via scheme frames).2 =
        tookAll ((List.range frames.length).map (fun i => env.sends (st.asked+i))) := by
  induction frames generalizing st with
  | nil => exact ⟨Offered.refl st,rfl⟩
  | cons f fs ih =>
    unfold Impl.sendEach
    dsimp only
    have hone : Offered st (st.ask.emit (.sendTo owner via scheme f (env.sends st.asked))) 1
        [(f,env.sends st.asked)] := (Offered.ask st).trans (Offered.emit st.ask _ rfl)
    have hfirst : Offered st
        (if env.sends st.asked then
          ((st.ask.emit (.sendTo owner via scheme f (env.sends st.asked))).emit
            (.stat .txBytes f.length via)).emit (.stat .txPacket 1 via)
        else st.ask.emit (.sendTo owner via scheme f (env.sends st.asked))) 1
        [(f,env.sends st.asked)] := by
      split
      · exact hone.stats f.length 1 via
      · exact hone
    obtain ⟨hrest,hall⟩ := ih (if env.sends st.asked then
          ((st.ask.emit (.sendTo owner via scheme f (env.sends st.asked))).emit
            (.stat .txBytes f.length via)).emit (.stat .txPacket 1 via)
        else st.ask.emit (.sendTo owner via scheme f (env.sends st.asked)))
    rw [hfirst.asked] at hrest hall
    have hshift : (List.range (fs.length+1)).map (fun i => env.sends (st.asked+i)) =
        env.sends st.asked :: (List.range fs.length).map (fun i => env.sends (st.asked+1+i)) := by
      rw [List.range_succ_eq_map,List.map_cons,List.map_map]
      refine congrArg _ (List.map_congr_left fun i _ => ?_)
      simp only [Function.comp,Nat.succ_eq_add_one]
      congr 1
      omega
    refine ⟨?_,?_⟩
    · have htrans := hfirst.trans hrest
      rw [List.length_cons,hshift,List.zip_cons_cons,Nat.add_comm fs.length 1]
      exact htrans
    · rw [hall,List.length_cons,hshift,tookAll,tookAll,List.all_cons]
      rfl

theorem Impl.flushFrames_offered (env : Env) (st : Impl) (owner : ConnectionRecord) (via : Nat)
    (scheme : String) (ops : ConnectorOps) (frames : List Bytes) :
    Offered st (st.flushFramesToConnector env owner via scheme ops frames).1
        (ops.questions frames.length) (frames.zip (ops.answers env st.asked frames.length)) ∧
      (st.flushFramesToConnector env owner via scheme ops frames).2 =
        tookAll (ops.answers env st.asked frames.length) := by
  unfold Impl.flushFramesToConnector
  split
  · rename_i hnone
    rw [List.isEmpty_iff.mp hnone]
    refine ⟨?_,?_⟩
    · simp only [ConnectorOps.questions,ConnectorOps.gathers,List.length_nil]
      simpa using Offered.refl st
    · simp [tookAll,ConnectorOps.answers,ConnectorOps.gathers]
  · rename_i hsome
    split
    · rename_i hgather
      have hg : ops.gathers frames.length = true := hgather
      have hpos : frames.length ≠ 0 := by simpa using hsome
      have hone : Offered st
          (st.ask.emit (.sendGather owner via scheme frames (env.sends st.asked))) 1
          (frames.map (fun f => (f,env.sends st.asked))) :=
        (Offered.ask st).trans (Offered.emit st.ask _ rfl)
      have hzip : frames.zip (ops.answers env st.asked frames.length) =
          frames.map (fun f => (f,env.sends st.asked)) := by
        simp only [ConnectorOps.answers,hg,ite_true]
        exact zip_replicate_length frames _
      have hq : ops.questions frames.length = 1 := by simp [ConnectorOps.questions,hg]
      have hall : tookAll (ops.answers env st.asked frames.length) = env.sends st.asked := by
        simp [tookAll,ConnectorOps.answers,hg,List.all_replicate,hpos]
      rw [hzip,hq,hall]
      dsimp only
      split
      · rename_i hok
        exact ⟨hone.stats (totalBytes frames) frames.length via,hok.symm⟩
      · rename_i hok
        exact ⟨hone,(Bool.eq_false_iff.mpr hok).symm⟩
    · rename_i hgather
      have hg : ops.gathers frames.length = false := Bool.eq_false_iff.mpr hgather
      simp only [ConnectorOps.questions,ConnectorOps.answers,hg,Bool.false_eq_true,ite_false]
      exact st.sendEach_offered env owner via scheme frames

theorem Impl.pathAnswers_congr (env : Env) (h : st'.connectors = st.connectors) (n asked : Nat)
    (paths : List TransportPath) :
    st'.pathAnswers env n asked paths = st.pathAnswers env n asked paths := by
  have hfind : st'.findConnector = st.findConnector := by
    funext scheme
    simp only [Impl.findConnector,h]
  induction paths generalizing asked with
  | nil => rfl
  | cons p ps ih =>
    simp only [Impl.pathAnswers,hfind,ih]

/-- The loop over the paths offers the batch once for each connector it asks, and ends well if
one of them takes all of it. -/
theorem Impl.tryPaths_offered (env : Env) (st : Impl) (id : Nat) (owner : ConnectionRecord)
    (batch : List Bytes) (paths : List TransportPath) :
    (∃ questions, Offered st (st.tryPaths env id owner batch paths).1 questions
        ((st.pathAnswers env batch.length st.asked paths).flatMap (fun a => batch.zip a))) ∧
      (st.tryPaths env id owner batch paths).2 =
        (st.pathAnswers env batch.length st.asked paths).any tookAll := by
  induction paths generalizing st with
  | nil => exact ⟨⟨0,Offered.refl st⟩,rfl⟩
  | cons p ps ih =>
    unfold Impl.tryPaths Impl.pathAnswers
    cases hops : st.findConnector p.scheme with
    | none => exact ih st
    | some ops =>
      obtain ⟨hsent,hverdict⟩ := st.flushFrames_offered env owner p.transportConnId p.scheme
        ops batch
      dsimp only
      rw [hverdict]
      cases hall : tookAll (ops.answers env st.asked batch.length) with
      | true =>
        refine ⟨⟨ops.questions batch.length,?_⟩,?_⟩
        · simpa using hsent.quiet (Impl.modifyPath _ id p.transportConnId _) rfl rfl rfl
        · simp [hall]
      | false =>
        simp only [Bool.false_eq_true,ite_false]
        have hfail := hsent.quiet (Impl.modifyPath
          (st.flushFramesToConnector env owner p.transportConnId p.scheme ops batch).1 id
          p.transportConnId TransportPath.fail) rfl rfl rfl
        obtain ⟨⟨questions,hrest⟩,hany⟩ := ih (Impl.modifyPath
          (st.flushFramesToConnector env owner p.transportConnId p.scheme ops batch).1 id
          p.transportConnId TransportPath.fail)
        rw [hfail.asked,Impl.pathAnswers_congr env hfail.connectors] at hrest hany
        refine ⟨⟨ops.questions batch.length+questions,?_⟩,?_⟩
        · rw [List.flatMap_cons]
          exact hfail.trans hrest
        · rw [hany,List.any_cons,hall,Bool.false_or]

theorem ConnectorOps.length_answers (env : Env) (ops : ConnectorOps) (asked n : Nat) :
    (ops.answers env asked n).length = n := by
  unfold ConnectorOps.answers
  split
  · exact List.length_replicate
  · simp

theorem Impl.length_pathAnswers (env : Env) (st : Impl) (n asked : Nat)
    (paths : List TransportPath) : ∀ a ∈ st.pathAnswers env n asked paths, a.length = n := by
  induction paths generalizing asked with
  | nil => simp [Impl.pathAnswers]
  | cons p ps ih =>
    unfold Impl.pathAnswers
    split
    · exact ih asked
    · rename_i ops hops
      have hlen := ops.length_answers env asked n
      intro a ha
      dsimp only at ha
      split at ha
      · rw [List.mem_singleton.mp ha]
        exact hlen
      · rcases List.mem_cons.mp ha with rfl | ha
        · exact hlen
        · exact ih _ a ha

/-- A path is followed by another only if it did not take everything. -/
theorem Impl.pathAnswers_short (env : Env) (st : Impl) (n asked : Nat)
    (paths : List TransportPath) :
    (st.pathAnswers env n asked paths).Pairwise (fun a _ => tookAll a = false) := by
  induction paths generalizing asked with
  | nil => exact .nil
  | cons p ps ih =>
    unfold Impl.pathAnswers
    split
    · exact ih asked
    · dsimp only
      split
      · exact List.pairwise_singleton _ _
      · rename_i hall
        exact .cons (fun _ _ => Bool.eq_false_iff.mpr hall) (ih _)

end

section
variable {n i : Nat}

/-- In a list that starts at index `m`, only the entry `i` places further on has that index. -/
theorem countP_at {α : Type} (p : α → Bool) (l : List α) (m i : Nat) :
    (l.zipIdx m).countP (fun o => p o.1 && o.2 == m+i) = if l[i]?.any p then 1 else 0 := by
  induction l generalizing m i with
  | nil => simp
  | cons a l ih =>
    rw [List.zipIdx_cons,List.countP_cons]
    cases i with
    | zero =>
      have hrest : (l.zipIdx (m+1)).countP (fun o => p o.1 && o.2 == m+0) = 0 := by
        rw [List.countP_eq_zero]
        intro o ho
        have hle := List.le_snd_of_mem_zipIdx ho
        have hne : o.2 ≠ m := by omega
        simp [hne]
      rw [hrest]
      simp
    | succ i =>
      have hih := ih (m+1) i
      rw [show m+1+i = m+(i+1) by omega] at hih
      rw [hih]
      simp

/-- The offers of one round, which starts at a multiple of the length of the batch. -/
theorem countP_round (round : List (Bytes × Bool)) (hn : round.length = n) (hi : i < n) (k : Nat) :
    (round.zipIdx (n*k)).countP (fun o => o.1.2 && o.2 % n == i) =
      if round[i]?.any Prod.snd then 1 else 0 := by
  rw [← countP_at Prod.snd round (n*k) i]
  refine List.countP_congr (fun o ho => ?_)
  have hle := List.le_snd_of_mem_zipIdx ho
  have hlt := List.snd_lt_add_of_mem_zipIdx ho
  obtain ⟨j,hj⟩ := Nat.exists_eq_add_of_le hle
  have hmod : o.2 % n = j := by
    rw [hj,Nat.mul_add_mod]
    exact Nat.mod_eq_of_lt (by omega)
  simp only [hmod,Bool.and_eq_true,beq_iff_eq]
  constructor
  · rintro ⟨ho,rfl⟩
    exact ⟨ho,hj⟩
  · rintro ⟨ho,heq⟩
    exact ⟨ho,by omega⟩

/-- A frame has been taken as often as there are rounds whose answer for it was yes. -/
theorem timesTaken_rounds (batch : List Bytes) (rounds : List (List Bool))
    (hlen : ∀ a ∈ rounds, a.length = batch.length) (hi : i < batch.length) :
    timesTaken batch.length i (rounds.flatMap (fun a => batch.zip a)) =
      rounds.countP (fun a => a[i]? == some true) := by
  have hgen : ∀ k, ((rounds.flatMap (fun a => batch.zip a)).zipIdx (batch.length*k)).countP
      (fun o => o.1.2 && o.2 % batch.length == i) =
        rounds.countP (fun a => a[i]? == some true) := by
    induction rounds with
    | nil => intro k; rfl
    | cons a rounds ih =>
      intro k
      have ha := hlen a List.mem_cons_self
      have hzip : (batch.zip a).length = batch.length := by simp [ha]
      rw [List.flatMap_cons,List.zipIdx_append,List.countP_append,countP_round _ hzip hi k,hzip,
        ← Nat.mul_succ,ih (fun b hb => hlen b (List.mem_cons_of_mem a hb)),List.countP_cons,
        Nat.add_comm]
      congr 1
      have hai : i < a.length := ha ▸ hi
      simp [hi,hai]
  have hzero := hgen 0
  rw [Nat.mul_zero] at hzero
  exact hzero

/-- At most one entry passes a test when no two do. -/
theorem countP_le_one {α : Type} (p : α → Bool) (l : List α) :
    l.countP p ≤ 1 ↔ l.Pairwise (fun a b => p a = true → p b = false) := by
  induction l with
  | nil => simp
  | cons a l ih =>
    rw [List.countP_cons,List.pairwise_cons,← ih]
    cases ha : p a with
    | false => simp
    | true =>
      simp only [ite_true,forall_const]
      constructor
      · intro h
        have hzero : l.countP p = 0 := by omega
        refine ⟨fun b hb => Bool.eq_false_iff.mpr (List.countP_eq_zero.mp hzero b hb),by omega⟩
      · rintro ⟨h,_⟩
        have hzero : l.countP p = 0 :=
          List.countP_eq_zero.mpr (fun b hb => Bool.eq_false_iff.mp (h b hb))
        omega

end

/-- The batch went round as `rounds` says, and a drop was reported or not. -/
structure Went (st st' : Impl) (id : Nat) (batch : List Bytes) (rounds : List (List Bool))
    (dropped : Bool) : Prop where
  offers : st'.offersSince st = rounds.flatMap (fun a => batch.zip a)
  drops : (∃ why, .drop id why ∈ st'.since st) ↔ dropped = true
  whole : ∀ a ∈ rounds, a.length = batch.length

section
variable {env : Env} {st st' : Impl} {id i : Nat} {batch : List Bytes} {rounds : List (List Bool)}
  {dropped : Bool}

theorem Impl.since_eq {new : List Effect} (h : st'.log = new.reverse ++ st.log) :
    st'.since st = new := by
  simp [Impl.since,h]

theorem Offered.went {questions : Nat}
    (h : Offered st st' questions (rounds.flatMap (fun a => batch.zip a)))
    (hw : ∀ a ∈ rounds, a.length = batch.length) : Went st st' id batch rounds false := by
  obtain ⟨new,hlog,hnew,hdrop⟩ := h.log
  refine ⟨?_,?_,hw⟩
  · rw [Impl.offersSince,Impl.since_eq hlog,hnew]
  · rw [Impl.since_eq hlog]
    constructor
    · rintro ⟨why,hin⟩
      exact (hdrop _ hin).symm
    · intro hf
      cases hf

theorem Offered.reported {questions : Nat}
    (h : Offered st st' questions (rounds.flatMap (fun a => batch.zip a)))
    (hw : ∀ a ∈ rounds, a.length = batch.length) (why : DropReason) :
    Went st (st'.emit (.drop id why)) id batch rounds true := by
  obtain ⟨new,hlog,hnew,_⟩ := h.log
  have hemit : (st'.emit (.drop id why)).log = (new ++ [Effect.drop id why]).reverse ++ st.log := by
    simp [hlog]
  refine ⟨?_,?_,hw⟩
  · rw [Impl.offersSince,Impl.since_eq hemit,List.flatMap_append,hnew]
    simp [Effect.offers]
  · rw [Impl.since_eq hemit]
    exact ⟨fun _ => rfl,fun _ => ⟨why,by simp⟩⟩

theorem Impl.flushQueue_nothing (h : st.drained id = []) : st.flushQueue env id = st := by
  unfold Impl.drained at h
  unfold Impl.flushQueue
  cases hd : st.shuttingDown with
  | true => rfl
  | false =>
    cases hr : st.find id with
    | none => rfl
    | some r =>
      cases hq : st.sendQueues.lookup id with
      | none => rfl
      | some q =>
        simp only [hd,hr,hq,Bool.false_eq_true,ite_false] at h
        simp [h]

theorem Impl.drained_some {r : ConnectionRecord} (hr : st.find id = some r)
    (h : st.drained id ≠ []) : st.shuttingDown = false ∧
      ∃ q, st.sendQueues.lookup id = some q ∧ st.drained id = (q.drainBatch 64).2 := by
  cases hd : st.shuttingDown with
  | true => simp [Impl.drained,hd] at h
  | false =>
    cases hq : st.sendQueues.lookup id with
    | none => simp [Impl.drained,hd,hr,hq] at h
    | some q => exact ⟨rfl,q,rfl,by simp [Impl.drained,hd,hr,hq]⟩

/-- With active paths the batch goes round them, and is reported if none takes it whole. -/
theorem Impl.flushQueue_paths {r : ConnectionRecord} (hr : st.find id = some r)
    (h : st.drained id ≠ []) (hp : r.activePaths ≠ []) :
    Went st (st.flushQueue env id) id (st.drained id)
      (st.pathAnswers env (st.drained id).length st.asked r.activePaths)
      (!(st.pathAnswers env (st.drained id).length st.asked r.activePaths).any tookAll) := by
  obtain ⟨hd,q,hq,hbatch⟩ := Impl.drained_some hr h
  rw [hbatch] at h ⊢
  have hsome : (q.drainBatch 64).2.isEmpty = false := by simpa using h
  have hset := (Offered.refl st).quiet (st.setQueue id (q.drainBatch 64).1) rfl rfl rfl
  obtain ⟨⟨questions,htried⟩,hverdict⟩ := (st.setQueue id (q.drainBatch 64).1).tryPaths_offered
    env id r (q.drainBatch 64).2 r.activePaths
  have hoffered := hset.trans htried
  rw [hset.asked,Nat.add_zero,Impl.pathAnswers_congr env hset.connectors,List.nil_append]
    at hoffered
  rw [hset.asked,Nat.add_zero,Impl.pathAnswers_congr env hset.connectors] at hverdict
  have hw := st.length_pathAnswers env (q.drainBatch 64).2.length st.asked r.activePaths
  have hpaths : r.activePaths.isEmpty = false := by simpa using hp
  unfold Impl.flushQueue
  simp only [hd,hr,hq,hsome,hverdict,hpaths,Bool.false_eq_true,ite_false]
  cases hany : (st.pathAnswers env (q.drainBatch 64).2.length st.asked r.activePaths).any
      tookAll with
  | true => exact hoffered.went hw
  | false => exact hoffered.reported hw _

/-- Without one the fallback connector gets the batch, and its answers are not looked at. -/
theorem Impl.flushQueue_fallback {r : ConnectionRecord} (hr : st.find id = some r)
    (h : st.drained id ≠ []) (hp : r.activePaths = []) {ops : ConnectorOps}
    (hops : st.findConnector r.fallbackScheme = some ops) :
    Went st (st.flushQueue env id) id (st.drained id)
      [ops.answers env st.asked (st.drained id).length] false := by
  obtain ⟨hd,q,hq,hbatch⟩ := Impl.drained_some hr h
  rw [hbatch] at h ⊢
  have hsome : (q.drainBatch 64).2.isEmpty = false := by simpa using h
  have hset := (Offered.refl st).quiet (st.setQueue id (q.drainBatch 64).1) rfl rfl rfl
  obtain ⟨hsent,_⟩ := (st.setQueue id (q.drainBatch 64).1).flushFrames_offered env r id
    r.fallbackScheme ops (q.drainBatch 64).2
  have hfind : (st.setQueue id (q.drainBatch 64).1).findConnector r.fallbackScheme = some ops := hops
  have hoffered := hset.trans hsent
  rw [hset.asked,Nat.add_zero] at hoffered
  unfold Impl.flushQueue
  simp only [hd,hr,hq,hsome,hp,Impl.tryPaths,hfind,Bool.false_eq_true,ite_false,List.isEmpty_nil]
  refine Offered.went (by simpa using hoffered) (fun a ha => ?_)
  rw [List.mem_singleton.mp ha]
  exact ops.length_answers env st.asked (q.drainBatch 64).2.length

theorem Impl.flushQueue_unroutable {r : ConnectionRecord} (hr : st.find id = some r)
    (h : st.drained id ≠ []) (hp : r.activePaths = [])
    (hops : st.findConnector r.fallbackScheme = none) :
    Went st (st.flushQueue env id) id (st.drained id) [] true := by
  obtain ⟨hd,q,hq,hbatch⟩ := Impl.drained_some hr h
  rw [hbatch] at h ⊢
  have hsome : (q.drainBatch 64).2.isEmpty = false := by simpa using h
  have hset := (Offered.refl st).quiet (st.setQueue id (q.drainBatch 64).1) rfl rfl rfl
  have hfind : (st.setQueue id (q.drainBatch 64).1).findConnector r.fallbackScheme = none := hops
  unfold Impl.flushQueue
  simp only [hd,hr,hq,hsome,hp,Impl.tryPaths,hfind,Bool.false_eq_true,ite_false,List.isEmpty_nil]
  exact hset.reported (by simp) _

theorem Went.accounts_iff (h : Went st (st.flushQueue env id) id (st.drained id) rounds dropped) :
    st.Accounts env id ↔
      (∀ i < (st.drained id).length, rounds.countP (fun a => a[i]? == some true) ≤ 1) ∧
      (∀ i < (st.drained id).length, rounds.countP (fun a => a[i]? == some true) = 0 →
        dropped = true) := by
  have htaken : ∀ i < (st.drained id).length,
      timesTaken (st.drained id).length i ((st.flushQueue env id).offersSince st) =
        rounds.countP (fun a => a[i]? == some true) := by
    intro i hi
    rw [h.offers]
    exact timesTaken_rounds (st.drained id) rounds h.whole hi
  constructor
  · intro ha
    refine ⟨fun i hi => ?_,fun i hi hnone => ?_⟩
    · rw [← htaken i hi]
      exact ha.once i hi
    · rw [← htaken i hi] at hnone
      exact h.drops.mp (ha.reported i hi hnone)
  · rintro ⟨honce,hreported⟩
    refine ⟨⟨rounds.length,?_⟩,fun i hi => ?_,fun i hi hnone => ?_⟩
    · rw [h.offers]
      have hw := h.whole
      clear h htaken honce hreported
      induction rounds with
      | nil => rfl
      | cons a rounds ih =>
        have ha := hw a List.mem_cons_self
        rw [List.flatMap_cons,List.map_append,ih (fun b hb => hw b (List.mem_cons_of_mem a hb)),
          List.map_fst_zip (by omega),List.length_cons,List.replicate_succ,List.flatten_cons]
    · rw [htaken i hi]
      exact honce i hi
    · rw [htaken i hi] at hnone
      exact h.drops.mpr (hreported i hi hnone)

/-- Rounds that take no frame twice are those after which nothing taken is taken again. -/
theorem spares_iff {n : Nat} (hlen : ∀ a ∈ rounds, a.length = n)
    (hshort : rounds.Pairwise (fun a _ => tookAll a = false)) :
    (∀ i < n, rounds.countP (fun a => a[i]? == some true) ≤ 1) ↔ rounds.Pairwise Spares := by
  have hboth : ∀ i < n, ∀ a ∈ rounds, ∀ b ∈ rounds, tookAll a = false →
      (((a[i]? == some true) = true → (b[i]? == some true) = false) ↔
        (Divided a → a[i]? = some true → b[i]? = some false)) := by
    intro i hi a ha b hb hall
    have hbi : i < b.length := hlen b hb ▸ hi
    have hfalse : false ∈ a := by
      rw [tookAll,List.all_eq_false] at hall
      obtain ⟨x,hx,hne⟩ := hall
      cases x with
      | false => exact hx
      | true => exact absurd rfl hne
    simp only [beq_iff_eq,List.getElem?_eq_getElem hbi]
    constructor
    · intro h _ htrue
      simpa using h htrue
    · intro h htrue
      have hdiv : Divided a := ⟨List.mem_of_getElem? htrue,hfalse⟩
      simpa using h hdiv htrue
  rw [List.pairwise_iff_getElem] at hshort
  constructor
  · intro h
    rw [List.pairwise_iff_getElem]
    intro x y hx hy hxy hdiv i htrue
    have hi : i < n := by
      rw [← hlen _ (List.getElem_mem hx)]
      exact (List.getElem?_eq_some_iff.mp htrue).1
    have hpair := List.pairwise_iff_getElem.mp ((countP_le_one _ _).mp (h i hi)) x y hx hy hxy
    exact (hboth i hi _ (List.getElem_mem hx) _ (List.getElem_mem hy)
      (hshort x y hx hy hxy)).mp hpair hdiv htrue
  · intro h i hi
    rw [countP_le_one,List.pairwise_iff_getElem]
    intro x y hx hy hxy
    refine (hboth i hi _ (List.getElem_mem hx) _ (List.getElem_mem hy) (hshort x y hx hy hxy)).mpr ?_
    exact fun hdiv htrue => List.pairwise_iff_getElem.mp h x y hx hy hxy hdiv i htrue

/-- A round in which everything was taken leaves no frame behind. -/
theorem countP_ne_zero_of_tookAll {n : Nat} (hlen : ∀ a ∈ rounds, a.length = n)
    (hany : rounds.any tookAll = true) (hi : i < n) :
    rounds.countP (fun a => a[i]? == some true) ≠ 0 := by
  obtain ⟨a,ha,hall⟩ := List.any_eq_true.mp hany
  have hai : i < a.length := hlen a ha ▸ hi
  have htrue : a[i] = true := List.all_eq_true.mp hall _ (List.getElem_mem hai)
  intro hzero
  have hnot := List.countP_eq_zero.mp hzero a ha
  simp [hai,htrue] at hnot

end

/-- A batch is accounted for exactly when no path is offered again, and takes again, what a
divided path before it took, and the fallback connector, if it comes to that, takes all. -/
theorem flush_accounts_iff (env : Env) (st : Impl) (id : Nat) :
    st.Accounts env id ↔ st.FlushesWhole env id := by
  by_cases hnone : st.drained id = []
  · refine ⟨fun _ r _ hsome => absurd hnone hsome,fun _ => ⟨⟨0,?_⟩,?_,?_⟩⟩
    · rw [Impl.flushQueue_nothing hnone]
      simp [Impl.offersSince,Impl.since]
    · simp [hnone]
    · simp [hnone]
  · obtain ⟨r,hr⟩ : ∃ r, st.find id = some r := by
      cases hr : st.find id with
      | some r => exact ⟨r,rfl⟩
      | none => simp [Impl.drained,hr] at hnone
    have hcond : st.FlushesWhole env id ↔ _ :=
      ⟨fun h => h r hr hnone,fun h r' hr' _ => (Option.some.inj (hr.symm.trans hr')) ▸ h⟩
    rw [hcond]
    by_cases hp : r.activePaths = []
    · rw [if_pos hp]
      cases hops : st.findConnector r.fallbackScheme with
      | none =>
        rw [(Impl.flushQueue_unroutable hr hnone hp hops).accounts_iff]
        simp
      | some ops =>
        have hlen := ops.length_answers env st.asked (st.drained id).length
        rw [(Impl.flushQueue_fallback hr hnone hp hops).accounts_iff]
        constructor
        · rintro ⟨_,hreported⟩ ops' hops' hin
          cases hops'
          obtain ⟨i,hi,hfalse⟩ := List.getElem_of_mem hin
          have hdrop := hreported i (hlen ▸ hi) (by simp [hi,hfalse])
          cases hdrop
        · intro h
          refine ⟨fun i _ => List.countP_le_length,fun i hi hzero => ?_⟩
          have hai : i < (ops.answers env st.asked (st.drained id).length).length := hlen.symm ▸ hi
          have hrefused : (ops.answers env st.asked (st.drained id).length)[i] = false := by
            simpa [hai] using hzero
          exact absurd (hrefused ▸ List.getElem_mem hai) (h ops rfl)
    · rw [if_neg hp,(Impl.flushQueue_paths hr hnone hp).accounts_iff]
      have hlen := st.length_pathAnswers env (st.drained id).length st.asked r.activePaths
      rw [← spares_iff hlen (st.pathAnswers_short env _ st.asked r.activePaths)]
      refine ⟨fun h => h.1,fun h => ⟨h,fun i hi hzero => ?_⟩⟩
      rw [Bool.not_eq_true']
      by_contra hany
      exact countP_ne_zero_of_tookAll hlen (Bool.not_eq_false _ ▸ hany) hi hzero

def TransportPath.sample (via : Nat) (scheme : String) (priority : UInt8) (active : Bool) :
    TransportPath :=
  { transportConnId := via, scheme := scheme, priority := priority, active := active,
    remote := Endpoint.sample "a" 0 }

/-- An established connection with these paths and these frames in its queue. -/
def Impl.loaded (paths : List TransportPath) (frames : List Bytes) : Impl :=
  { identity := NodeIdentity.alice,
    records := AList.singleton 1
      { id := 1, remote := Endpoint.sample "a" 0, state := .established, transportPaths := paths },
    connectors := (AList.singleton "tcp" {}).insert "ice" {},
    sendQueues := AList.singleton 1 { frames := frames, pendingBytes := totalBytes frames } }

def twoPaths : Impl :=
  Impl.loaded [TransportPath.sample 1 "tcp" 0 true,TransportPath.sample 2 "ice" 1 true] [[1],[2]]

/-- The only path of the connection has been given up. -/
def noPaths : Impl := Impl.loaded [TransportPath.sample 1 "tcp" 0 false] [[1]]

/-- Connectors that refuse their second call, or every call. -/
def Env.refuses (refused : Nat → Bool) : Env :=
  { Env.sample false with sends := fun n => !refused n }

/-- A frame that the first path took is sent again on the second, and a frame that the fallback
connector refuses is lost without a report. -/
theorem flush_unaccounted :
    ¬ twoPaths.Accounts (Env.refuses (fun n => n == 1)) 1 ∧
      ¬ noPaths.Accounts (Env.refuses (fun _ => true)) 1 := by
  refine ⟨fun h => ?_,fun h => ?_⟩
  · exact absurd (h.once 0 (by decide +kernel)) (by decide +kernel)
  · obtain ⟨why,hin⟩ := h.reported 0 (by decide +kernel) (by decide +kernel)
    have hquiet : ((noPaths.flushQueue (Env.refuses (fun _ => true)) 1).since noPaths).all
        (fun e => !e.isDrop) = true := by decide +kernel
    have hdrop := List.all_eq_true.mp hquiet _ hin
    cases hdrop

end GoodNet
