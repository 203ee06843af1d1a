import GoodNet.QuietSteps
import GoodNet.Lib.History
set_option autoImplicit false

/-! What `send_frame` writes: packet counters, path health, queues and the trace of frames
handed to connectors. Everything else of the manager is as it was. -/

namespace GoodNet
open Codec

/-- A record without what sending writes to it. -/
def ConnectionRecord.unsent (r : ConnectionRecord) : ConnectionRecord :=
  { r with sendPacketId := 0, transportPaths := r.transportPaths.map TransportPath.core }

/-- What sending leaves in the trace. -/
def Effect.isTraffic : Effect → Bool
  | .sendTo .. => true
  | .sendGather .. => true
  | .stat .txBytes .. => true
  | .stat .txPacket .. => true
  | .drop .. => true
  | _ => false

theorem Impl.mem_ids (st : Impl) (id : Nat) : id ∈ st.ids ↔ ∃ r, st.find id = some r := by
  have hkeys : id ∈ st.ids ↔ (st.records.lookup id).isSome := by
    rw [AList.lookup_isSome]
    exact AList.mem_keys.symm
  rw [hkeys,Option.isSome_iff_exists]
  rfl

theorem Impl.ids_modify (st : Impl) (id : Nat) (f : ConnectionRecord → ConnectionRecord) :
    (st.modify id f).ids.Perm st.ids := by
  unfold modify
  cases h : st.find id with
  | none => exact List.Perm.refl _
  | some r =>
    have hkeys : (st.records.insert id (f r)).keys = id :: st.ids.erase id := AList.keys_insert _
    change (st.records.insert id (f r)).keys.Perm st.ids
    rw [hkeys]
    exact (List.perm_cons_erase ((st.mem_ids id).2 ⟨r,h⟩)).symm

structure Footprint (allowed : Effect → Prop) (st st' : Impl) : Prop where
  find : ∀ id, (st'.find id).map ConnectionRecord.unsent = (st.find id).map ConnectionRecord.unsent
  ids : st'.ids.Perm st.ids
  uri : st'.uriIndex = st.uriIndex
  pk : st'.pkIndex = st.pkIndex
  transport : st'.transportIndex = st.transportIndex
  nextId : st'.nextId = st.nextId
  identity : st'.identity = st.identity
  connectors : st'.connectors = st.connectors
  schemePriority : st'.schemePriority = st.schemePriority
  pending : st'.pendingMessages = st.pendingMessages
  asked : st.asked ≤ st'.asked
  log : ∃ new, st'.log = new ++ st.log ∧ ∀ e ∈ new, allowed e

section
variable {allowed : Effect → Prop} {st st' st'' : Impl}

theorem Footprint.refl (st : Impl) : Footprint allowed st st where
  find := fun _ => rfl
  ids := List.Perm.refl _
  uri := rfl
  pk := rfl
  transport := rfl
  nextId := rfl
  identity := rfl
  connectors := rfl
  schemePriority := rfl
  pending := rfl
  asked := Nat.le_refl _
  log := ⟨[],rfl,by simp⟩

theorem Footprint.trans (h : Footprint allowed st st') (h' : Footprint allowed st' st'') :
    Footprint allowed st st'' where
  find := fun id => (h'.find id).trans (h.find id)
  ids := h'.ids.trans h.ids
  uri := h'.uri.trans h.uri
  pk := h'.pk.trans h.pk
  transport := h'.transport.trans h.transport
  nextId := h'.nextId.trans h.nextId
  identity := h'.identity.trans h.identity
  connectors := h'.connectors.trans h.connectors
  schemePriority := h'.schemePriority.trans h.schemePriority
  pending := h'.pending.trans h.pending
  asked := h.asked.trans h'.asked
  log := History.added_trans h.log h'.log

theorem Footprint.mono {looser : Effect → Prop} (h : Footprint allowed st st')
    (hm : ∀ e, allowed e → looser e) : Footprint looser st st' := by
  obtain ⟨new,hl,ha⟩ := h.log
  exact { h with log := ⟨new,hl,fun e he => hm e (ha e he)⟩ }

theorem Footprint.emit (st : Impl) {e : Effect} (he : allowed e) :
    Footprint allowed st (st.emit e) :=
  { (Footprint.refl st : Footprint allowed st st) with log := ⟨[e],rfl,by simpa using he⟩ }

theorem Footprint.ask (st : Impl) : Footprint allowed st st.ask :=
  { Footprint.refl st with asked := Nat.le_succ _ }

theorem Footprint.setQueue (st : Impl) (id : Nat) (q : PerConnQueue) :
    Footprint allowed st (st.setQueue id q) := { Footprint.refl st with }

theorem Footprint.modify (st : Impl) (id : Nat) {f : ConnectionRecord → ConnectionRecord}
    (hf : ∀ r, (f r).unsent = r.unsent) : Footprint allowed st (st.modify id f) := by
  refine { Footprint.refl st with find := ?_, ids := st.ids_modify id f }
  intro j
  rw [Impl.find_modify]
  split
  · rename_i hj
    subst hj
    cases st.find j with
    | none => rfl
    | some r => simp [hf]
  · rfl

theorem Footprint.find_some (h : Footprint allowed st st') {id : Nat} {r : ConnectionRecord}
    (hr : st'.find id = some r) : ∃ r₀, st.find id = some r₀ ∧ r₀.unsent = r.unsent := by
  have hf := h.find id
  rw [hr] at hf
  cases h0 : st.find id with
  | none => simp [h0] at hf
  | some r₀ => exact ⟨r₀,rfl,by simpa [h0] using hf.symm⟩

theorem Footprint.found (h : Footprint allowed st st') {id : Nat} {r : ConnectionRecord}
    (hr : st.find id = some r) : ∃ r', st'.find id = some r' ∧ r'.unsent = r.unsent := by
  have hf := h.find id
  rw [hr] at hf
  cases h0 : st'.find id with
  | none => simp [h0] at hf
  | some r' => exact ⟨r',rfl,by simpa [h0] using hf⟩

/-- Records that differ in what sending writes agree on every other field. -/
theorem ConnectionRecord.unsent_field {α : Type} (f : ConnectionRecord → α)
    (hf : ∀ r : ConnectionRecord, f r.unsent = f r) {a b : ConnectionRecord}
    (h : a.unsent = b.unsent) : f a = f b := by
  rw [← hf a,h,hf b]

end

/-- The name a connector is looked up under. -/
def connectorName (scheme : String) : String := if scheme = "" then "tcp" else scheme

/-- Where the frames of `owner` may go: to the connector of an active path or, when no path is
active, to that of the fallback scheme. -/
def ConnectionRecord.Reaches (st : Impl) (owner : ConnectionRecord) (id via : Nat)
    (scheme : String) : Prop :=
  (∃ p ∈ owner.transportPaths, p.active = true ∧ p.transportConnId = via ∧ p.scheme = scheme) ∨
    owner.activePaths = [] ∧ (st.findConnector scheme).isSome = true ∧ via = id ∧
      scheme = owner.fallbackScheme

def Effect.onPathOf (st : Impl) (owner : ConnectionRecord) (id : Nat) : Effect → Prop
  | .sendTo o via scheme _ _ => o = owner ∧ owner.Reaches st id via scheme
  | .sendGather o via scheme _ _ => o = owner ∧ owner.Reaches st id via scheme
  | e => e.isTraffic = true

section
variable (env : Env)

/-- The frames go where both kinds of call say, and nowhere else. -/
theorem Impl.sendEach_footprint {allowed : Effect → Prop} (st : Impl) (owner : ConnectionRecord)
    (via : Nat) (scheme : String) (frames : List Bytes)
    (hsend : ∀ f ok, allowed (.sendTo owner via scheme f ok))
    (hstat : ∀ n, allowed (.stat .txBytes n via)) (hpacket : allowed (.stat .txPacket 1 via)) :
    Footprint allowed st (st.sendEach env owner via scheme frames).1 := by
  induction frames generalizing st with
  | nil => exact Footprint.refl st
  | cons f fs ih =>
    unfold sendEach
    have hsent : Footprint allowed st
        (st.ask.emit (.sendTo owner via scheme f (env.sends st.asked))) :=
      (Footprint.ask st).trans (Footprint.emit _ (hsend _ _))
    cases hok : env.sends st.asked with
    | true =>
      rw [hok] at hsent
      have hcounted := (Footprint.emit (st.ask.emit (.sendTo owner via scheme f true))
        (hstat f.length)).trans (Footprint.emit _ hpacket)
      exact (hsent.trans hcounted).trans (ih _)
    | false =>
      rw [hok] at hsent
      exact hsent.trans (ih _)

theorem Impl.flushFrames_footprint {allowed : Effect → Prop} (st : Impl) (owner : ConnectionRecord)
    (via : Nat) (scheme : String) (ops : ConnectorOps) (frames : List Bytes)
    (hsend : ∀ f ok, allowed (.sendTo owner via scheme f ok))
    (hgather : ∀ fs ok, allowed (.sendGather owner via scheme fs ok))
    (hstat : ∀ n, allowed (.stat .txBytes n via)) (hpacket : ∀ n, allowed (.stat .txPacket n via)) :
    Footprint allowed st (st.flushFramesToConnector env owner via scheme ops frames).1 := by
  unfold flushFramesToConnector
  split
  · exact Footprint.refl st
  · split
    · have hsent : Footprint allowed st
          (st.ask.emit (.sendGather owner via scheme frames (env.sends st.asked))) :=
        (Footprint.ask st).trans (Footprint.emit _ (hgather _ _))
      cases hok : env.sends st.asked with
      | true =>
        rw [hok] at hsent
        exact hsent.trans ((Footprint.emit _ (hstat _)).trans (Footprint.emit _ (hpacket _)))
      | false =>
        rw [hok] at hsent
        exact hsent
    · exact st.sendEach_footprint env owner via scheme frames hsend hstat (hpacket 1)

theorem Impl.modifyPath_footprint {allowed : Effect → Prop} (st : Impl) (id via : Nat)
    {f : TransportPath → TransportPath} (hf : ∀ p, (f p).core = p.core) :
    Footprint allowed st (st.modifyPath id via f) := by
  apply Footprint.modify
  intro r
  simp [ConnectionRecord.unsent,map_modifyPath (g := TransportPath.core) hf]

theorem Impl.tryPaths_footprint (st : Impl) (id : Nat) (owner : ConnectionRecord)
    (batch : List Bytes) {paths : List TransportPath}
    (hp : ∀ p ∈ paths, p ∈ owner.transportPaths ∧ p.active = true) :
    ∀ st₀ : Impl, Footprint (Effect.onPathOf st₀ owner id) st
      (st.tryPaths env id owner batch paths).1 := by
  intro st₀
  induction paths generalizing st with
  | nil => exact Footprint.refl st
  | cons p ps ih =>
    obtain ⟨hmem,hact⟩ := hp p List.mem_cons_self
    have hrest := fun st => ih st (fun q hq => hp q (List.mem_cons_of_mem p hq))
    unfold tryPaths
    split
    · exact hrest st
    · rename_i ops _
      have hsent : Footprint (Effect.onPathOf st₀ owner id) st
          (st.flushFramesToConnector env owner p.transportConnId p.scheme ops batch).1 :=
        st.flushFrames_footprint env owner p.transportConnId p.scheme ops batch
          (fun _ _ => ⟨rfl,.inl ⟨p,hmem,hact,rfl,rfl⟩⟩) (fun _ _ => ⟨rfl,.inl ⟨p,hmem,hact,rfl,rfl⟩⟩)
          (fun _ => rfl) (fun _ => rfl)
      dsimp only
      split
      · exact hsent.trans (modifyPath_footprint _ _ _ TransportPath.core_succeed)
      · exact (hsent.trans (modifyPath_footprint _ _ _ TransportPath.core_fail)).trans (hrest _)

theorem ConnectionRecord.mem_activePaths {r : ConnectionRecord} {p : TransportPath}
    (h : p ∈ r.activePaths) : p ∈ r.transportPaths ∧ p.active = true := by
  have hp := (List.perm_insertionSort _ _).mem_iff.1 h
  exact List.mem_filter.1 hp

theorem Impl.flushQueue_footprint (st : Impl) (id : Nat) :
    Footprint (fun e => ∃ r, st.find id = some r ∧ e.onPathOf st r id) st
      (st.flushQueue env id) := by
  unfold flushQueue
  split
  · exact Footprint.refl st
  · split
    · rename_i r q hr _
      have hown : ∀ e : Effect, e.onPathOf st r id →
          ∃ r, st.find id = some r ∧ e.onPathOf st r id := fun e he => ⟨r,hr,he⟩
      dsimp only
      split
      · exact Footprint.refl st
      · have htried : Footprint (Effect.onPathOf st r id) st
            ((st.setQueue id (q.drainBatch 64).1).tryPaths env id r (q.drainBatch 64).2
              r.activePaths).1 :=
          (Footprint.setQueue st id _).trans
            (tryPaths_footprint env _ id r _ (fun p hp => ConnectionRecord.mem_activePaths hp) st)
        split
        · exact htried.mono hown
        · split
          · rename_i ops hempty hops
            have hfallback : r.Reaches st id id r.fallbackScheme := by
              refine .inr ⟨List.isEmpty_iff.1 hempty,?_,rfl,rfl⟩
              have hsame : st.findConnector r.fallbackScheme = some ops := by
                rw [← hops]
                unfold findConnector
                rw [htried.connectors]
              rw [hsame]
              rfl
            exact (htried.trans (flushFrames_footprint env _ r id _ _ _ (fun _ _ => ⟨rfl,hfallback⟩)
              (fun _ _ => ⟨rfl,hfallback⟩) (fun _ => rfl) (fun _ => rfl))).mono hown
          · have hdrop : (Effect.drop id .connectorNotFound).onPathOf st r id := rfl
            exact (htried.trans (Footprint.emit _ hdrop)).mono hown
    · exact Footprint.refl st

/-- Where `send_frame` hands frames to: paths of the record, its packet counter apart. -/
def Impl.OnPath (st : Impl) (id : Nat) (e : Effect) : Prop :=
  e.isTraffic = true ∧ (e.isWire = true →
    ∃ r, st.find id = some r ∧ ∃ r', r'.unsent = r.unsent ∧ e.onPathOf st r' id)

theorem Effect.onPathOf_traffic {st : Impl} {owner : ConnectionRecord} {id : Nat} {e : Effect}
    (h : e.onPathOf st owner id) : e.isTraffic = true := by
  cases e with
  | sendTo => rfl
  | sendGather => rfl
  | _ => exact h

theorem Effect.onPathOf.connectors {st st' : Impl} {owner : ConnectionRecord} {id : Nat}
    {e : Effect} (h : e.onPathOf st owner id) (hc : st'.connectors = st.connectors) :
    e.onPathOf st' owner id := by
  have hreach : ∀ via scheme, owner.Reaches st id via scheme → owner.Reaches st' id via scheme := by
    intro via scheme hr
    unfold ConnectionRecord.Reaches Impl.findConnector at hr ⊢
    rw [hc]
    exact hr
  cases e with
  | sendTo o via scheme f ok => exact ⟨h.1,hreach _ _ h.2⟩
  | sendGather o via scheme fs ok => exact ⟨h.1,hreach _ _ h.2⟩
  | _ => exact h

theorem Impl.getOrCreateQueue_footprint {allowed : Effect → Prop} (st : Impl) (id : Nat) :
    Footprint allowed st (st.getOrCreateQueue id).1 := by
  unfold getOrCreateQueue
  split
  · exact Footprint.refl st
  · exact Footprint.setQueue st id {}

theorem Impl.sendFrame_footprint (st : Impl) (id : Nat) (msgType : UInt32) (payload : Bytes) :
    Footprint (st.OnPath id) st (st.sendFrame env id msgType payload) := by
  unfold sendFrame
  split
  · exact Footprint.refl st
  · have hbuilt : ∀ {allowed : Effect → Prop}, Footprint allowed st
        (st.buildFrame env id msgType payload).1 := by
      intro allowed
      unfold buildFrame
      split
      · exact Footprint.refl st
      · exact Footprint.modify st id (fun r => rfl)
    dsimp only
    split
    · exact hbuilt
    · refine hbuilt.trans ?_
      unfold pushAndFlush
      generalize hb : st.buildFrame env id msgType payload = built at hbuilt ⊢
      have hqueue : ∀ {allowed : Effect → Prop}, Footprint allowed built.1
          (built.1.getOrCreateQueue id).1 := getOrCreateQueue_footprint _ id
      dsimp only
      split
      · have hpushed : Footprint (fun _ => False) st
            ((built.1.getOrCreateQueue id).1.setQueue id
              ((built.1.getOrCreateQueue id).2.tryPush built.2).1) :=
          (hbuilt.trans hqueue).trans (Footprint.setQueue _ id _)
        refine (hqueue.trans (Footprint.setQueue _ id _)).trans
          ((flushQueue_footprint env _ id).mono ?_)
        rintro e ⟨r,hr,he⟩
        obtain ⟨r₀,hr₀,heq⟩ := hpushed.find_some hr
        have hconn := hpushed.connectors
        refine ⟨Effect.onPathOf_traffic he,fun _ => ⟨r₀,hr₀,r,heq.symm,?_⟩⟩
        exact he.connectors hconn.symm
      · exact hqueue.trans (Footprint.emit _ ⟨rfl,by simp [Effect.isWire]⟩)

end

end GoodNet
