import GoodNet.ManagerSteps
import GoodNet.TcpWrite
set_option autoImplicit false

/-! How a new socket gets into `connections_`. `register_socket` calls `on_connect` and inserts
the connection under the id it was given; the core, which sends on the connection from inside
`on_connect`, has posted tasks for that id by then. -/

namespace GoodNet
open Codec Interleaving

/-- A task of `do_send` or `do_send_gather`, or one of `do_close`. -/
inductive TcpPost where
  | send (id : Nat) (frames : List Bytes)
  | close (id : Nat)
  deriving DecidableEq, Repr

/-- The frames of a task that are for `id`. -/
def TcpPost.framesFor (id : Nat) : TcpPost → List Bytes
  | .send j frames => if j = id then frames else []
  | .close _ => []

/-- `find_connector` has `tcp` for the empty scheme. -/
def isTcp (scheme : String) : Bool := scheme == "" || scheme == "tcp"

/-- What a call of the core makes the connector post. -/
def Effect.tcpPosts : Effect → List TcpPost
  | .sendTo _ via scheme frame _ => if isTcp scheme then [.send via [frame]] else []
  | .sendGather _ via scheme frames _ => if isTcp scheme then [.send via frames] else []
  | .close scheme via => if isTcp scheme then [.close via] else []
  | .closeNow scheme via => if isTcp scheme then [.close via] else []
  | _ => []

/-- The connector and the core it works for. `registering` are the ids that `register_socket`
has been given and not inserted yet; `issued`, `closed` and `handed` are the history: all ids
given to the connector, those it has closed, and the frames handed to it for the former. -/
structure TcpConnector where
  core : Impl
  registering : List Nat := []
  connections : Table Nat TcpConnection := ∅
  posted : List TcpPost := []
  issued : List Nat := []
  closed : List Nat := []
  handed : List (Nat × Bytes) := []

/-- The tasks posted while the core went from one state to the next, oldest first. -/
def tcpPostsOf (st st' : Impl) : List TcpPost :=
  (st'.log.take (st'.log.length-st.log.length)).reverse.flatMap Effect.tcpPosts

def TcpPost.handed : TcpPost → List (Nat × Bytes)
  | .send id frames => frames.map (fun f => (id,f))
  | .close _ => []

/-- The core has gone on to `st`. -/
def TcpConnector.become (s : TcpConnector) (st : Impl) : TcpConnector :=
  let posts := tcpPostsOf s.core st
  { s with
    core := st,
    posted := s.posted ++ posts,
    handed := s.handed ++ (posts.flatMap TcpPost.handed).filter (fun p => s.issued.contains p.1) }

inductive TcpConnectorStep where
  | onConnect (ep : Endpoint)
  | insert (id : Nat)
  | call (e : Event)
  | runTask (i : Nat)
  | readFailed (id : Nat)
  | startWrite (id : Nat)
  | transmit (id i n : Nat)
  | complete (id i : Nat)

/-- The connector has been given an id for a socket. -/
def TcpConnector.issue (s : TcpConnector) (id : Nat) : TcpConnector :=
  { s with registering := s.registering ++ [id], issued := s.issued ++ [id] }

/-- `connections_[id] = conn`. -/
def TcpConnector.insert (s : TcpConnector) (id : Nat) : TcpConnector :=
  { s with
    registering := s.registering.erase id,
    connections := s.connections.insert id {} }

/-- The connector gives up a connection. -/
def TcpConnector.forget (s : TcpConnector) (id : Nat) : TcpConnector :=
  { s with
    connections := s.connections.erase id,
    closed := if id ∈ s.issued then id :: s.closed else s.closed }

/-- It does so, and tells the core. -/
def TcpConnector.drop (s : TcpConnector) (id : Nat) : TcpConnector :=
  (s.forget id).become (s.core.handleDisconnect id)

/-- The task of a send returns when the id is not among the connections; that of a close tells
the core in any case. -/
def TcpConnector.perform (s : TcpConnector) : TcpPost → TcpConnector
  | .send id frames =>
    match s.connections.lookup id with
    | none => s
    | some c => { s with connections := s.connections.insert id (c.enqueue frames) }
  | .close id => s.drop id

def TcpConnector.drive (s : TcpConnector) (id : Nat) (f : TcpConnection → TcpConnection) :
    TcpConnector :=
  match s.connections.lookup id with
  | none => s
  | some c => { s with connections := s.connections.insert id (f c) }

/-- `onConnect` and `insert` are the two halves of `register_socket`; `call` is any call into
the core, be it by another connector. -/
def TcpConnector.act (env : Env) (s : TcpConnector) : TcpConnectorStep → TcpConnector
  | .onConnect ep =>
    let answer := s.core.handleConnect env ep
    if answer.2 = connIdInvalid then s.become answer.1
    else (s.issue answer.2).become answer.1
  | .insert id => if id ∈ s.registering then s.insert id else s
  | .call e => s.become (e.step env s.core)
  | .runTask i =>
    match s.posted[i]? with
    | none => s
    | some task => ({ s with posted := s.posted.eraseIdx i } : TcpConnector).perform task
  | .readFailed id => if (s.connections.lookup id).isSome then s.drop id else s
  | .startWrite id => s.drive id TcpConnection.startWrite
  | .transmit id i n => s.drive id (fun c => c.transmit i n)
  | .complete id i => s.drive id (fun c => c.complete i)

def TcpConnector.run (env : Env) (s : TcpConnector) (steps : List TcpConnectorStep) :
    TcpConnector :=
  Interleaving.run (TcpConnector.act env) s steps

def TcpConnector.handedTo (s : TcpConnector) (id : Nat) : List Bytes :=
  (s.handed.filter (fun p => p.1 == id)).map Prod.snd

def TcpConnector.waitingFor (s : TcpConnector) (id : Nat) : List Bytes :=
  s.posted.flatMap (TcpPost.framesFor id)

def TcpConnector.enqueuedFor (s : TcpConnector) (id : Nat) : List Bytes :=
  ((s.connections.lookup id).map TcpConnection.enqueued).getD []

/-- Every frame handed to the connector for a connection that has not been closed waits in a
task or has got into the write queue. -/
def TcpConnector.NoneLost (s : TcpConnector) : Prop :=
  ∀ id ∈ s.issued, id ∉ s.closed → ∀ f,
    (s.handedTo id).count f ≤ (s.waitingFor id).count f+(s.enqueuedFor id).count f

/-- The task of a send is not run between the two halves of `register_socket`. -/
def TcpConnector.Settled (s : TcpConnector) : TcpConnectorStep → Prop
  | .runTask i => ∀ id ∈ s.registering, ∀ task ∈ s.posted[i]?, task.framesFor id = []
  | _ => True

/-- An id that has not been closed is on its way into the connections or among them. -/
structure TcpConnector.Sound (s : TcpConnector) : Prop where
  unregistered : ∀ id ∈ s.registering, id ∈ s.issued ∧ s.connections.lookup id = none
  once : s.registering.Nodup
  owned : ∀ id, (s.connections.lookup id).isSome → id ∈ s.issued
  addressed : ∀ p ∈ s.handed, p.1 ∈ s.issued
  placed : ∀ id ∈ s.issued, id ∉ s.closed →
    id ∈ s.registering ∨ (s.connections.lookup id).isSome
  noneLost : s.NoneLost

section
variable {env : Env} {s : TcpConnector} {st : Impl}

theorem Steps.nextId_le {st st' : Impl} (h : Steps env st st') : st.nextId ≤ st'.nextId := by
  induction h with
  | refl => exact Nat.le_refl _
  | tail _ ht ih => exact ih.trans ht.nextId_le

theorem Event.nextId_le (env : Env) (st : Impl) (e : Event) :
    st.nextId ≤ (e.step env st).nextId := by
  cases hb : e.isBuffered with
  | false => exact Steps.nextId_le (Event.step_steps st hb)
  | true =>
    cases e with
    | buffered id bytes => exact Nat.le_refl _
    | _ => cases hb

/-- The id is one more than any before, and the counter has moved past it. -/
theorem Impl.handleConnect_id {ep : Endpoint}
    (h : (st.handleConnect env ep).2 ≠ connIdInvalid) :
    (st.handleConnect env ep).2 = st.nextId ∧ st.nextId < (st.handleConnect env ep).1.nextId := by
  unfold handleConnect at h ⊢
  split
  · rename_i hdown
    rw [if_pos hdown] at h
    exact absurd rfl h
  · refine ⟨rfl,?_⟩
    have hnext : (st.insertRecord env ep).nextId = st.nextId+1 := rfl
    have hsend : (st.insertRecord env ep).nextId ≤
        ((st.insertRecord env ep).sendNoiseInit env st.nextId).nextId := by
      unfold sendNoiseInit
      split
      · exact Nat.le_refl _
      · rename_i hs _
        have hwrite : ((st.insertRecord env ep).writeNoise env st.nextId hs []).1.nextId =
            (st.insertRecord env ep).nextId := rfl
        rw [← hwrite]
        dsimp only
        split
        · exact Steps.nextId_le (show Steps env _ _ from closeNow_steps _ _)
        · exact (Impl.sendFrame_outward env _ _ _ _).nextId.ge
    dsimp only
    split
    · omega
    · omega

theorem TcpPost.handed_filter (issued : List Nat) (id : Nat) (task : TcpPost) :
    ((task.handed.filter (fun p => issued.contains p.1)).filter (fun p => p.1 == id)).map Prod.snd =
      if id ∈ issued then task.framesFor id else [] := by
  cases task with
  | close j => simp [handed,framesFor]
  | send j frames =>
    by_cases hj : j = id
    · subst hj
      by_cases hi : j ∈ issued
      · simp [handed,framesFor,hi,List.filter_map,Function.comp_def]
      · simp [handed,hi,List.filter_map,Function.comp_def]
    · simp [handed,framesFor,hj,List.filter_map,Function.comp_def]

theorem TcpConnector.become_handedTo (s : TcpConnector) (st : Impl) (id : Nat) :
    (s.become st).handedTo id = s.handedTo id ++
      if id ∈ s.issued then (tcpPostsOf s.core st).flatMap (TcpPost.framesFor id) else [] := by
  have hnew : ∀ posts : List TcpPost,
      (((posts.flatMap TcpPost.handed).filter (fun p => s.issued.contains p.1)).filter
        (fun p => p.1 == id)).map Prod.snd =
      if id ∈ s.issued then posts.flatMap (TcpPost.framesFor id) else [] := by
    intro posts
    induction posts with
    | nil => simp
    | cons task posts ih =>
      rw [List.flatMap_cons,List.filter_append,List.filter_append,List.map_append,ih,
        TcpPost.handed_filter]
      split <;> simp
  simp only [handedTo,become,List.filter_append,List.map_append]
  rw [← hnew]

theorem TcpConnector.become_waitingFor (s : TcpConnector) (st : Impl) (id : Nat) :
    (s.become st).waitingFor id = s.waitingFor id ++
      (tcpPostsOf s.core st).flatMap (TcpPost.framesFor id) := by
  simp [waitingFor,become]

/-- The core goes on. -/
theorem TcpConnector.Sound.become (h : s.Sound) (st : Impl) : (s.become st).Sound := by
  refine ⟨h.unregistered,h.once,h.owned,fun p hp => ?_,h.placed,fun id hid hopen f => ?_⟩
  · rcases List.mem_append.mp hp with hp | hp
    · exact h.addressed p hp
    · have hin := (List.mem_filter.mp hp).2
      simp only [List.contains_iff_mem] at hin
      exact hin
  · have hkept := h.noneLost id hid hopen f
    have hid : id ∈ s.issued := hid
    rw [become_handedTo,become_waitingFor,if_pos hid,List.count_append,List.count_append]
    show _ ≤ _ + (s.enqueuedFor id).count f
    omega

/-- A connection gets an id that nothing has been handed over for. -/
theorem TcpConnector.Sound.issue (h : s.Sound) {id : Nat} (hfresh : id ∉ s.issued) :
    (s.issue id).Sound := by
  have hnone : s.connections.lookup id = none := by
    cases hc : s.connections.lookup id with
    | none => rfl
    | some c => exact absurd (h.owned id (by simp [hc])) hfresh
  have hunheard : s.handedTo id = [] := by
    simp only [handedTo,List.map_eq_nil_iff,List.filter_eq_nil_iff]
    intro p hp heq
    exact hfresh (beq_iff_eq.mp heq ▸ h.addressed p hp)
  refine ⟨fun j hj => ?_,?_,fun j hj => ?_,fun p hp => ?_,fun j hj hopen => ?_,
    fun j hj hopen f => ?_⟩
  · rcases List.mem_append.mp hj with hj | hj
    · exact ⟨List.mem_append_left _ (h.unregistered j hj).1,(h.unregistered j hj).2⟩
    · rw [List.mem_singleton.mp hj]
      exact ⟨List.mem_append_right _ (List.mem_singleton_self _),hnone⟩
  · refine List.nodup_append.mpr ⟨h.once,by simp,fun a ha b hb => ?_⟩
    rw [List.mem_singleton.mp hb]
    exact fun he => hfresh (he ▸ (h.unregistered a ha).1)
  · exact List.mem_append_left _ (h.owned j hj)
  · exact List.mem_append_left _ (h.addressed p hp)
  · rcases List.mem_append.mp hj with hj | hj
    · exact (h.placed j hj hopen).imp_left (List.mem_append_left _)
    · exact Or.inl (List.mem_append_right _ hj)
  · rcases List.mem_append.mp hj with hj | hj
    · exact h.noneLost j hj hopen f
    · show (s.handedTo j).count f ≤ _
      rw [List.mem_singleton.mp hj,hunheard,List.count_nil]
      exact Nat.zero_le _

/-- Frames move from the tasks into the connections: of an open one none goes missing. -/
theorem TcpConnector.Sound.move (h : s.Sound) {t : Table Nat TcpConnection} {posted : List TcpPost}
    (hsome : ∀ j, (t.lookup j).isSome = (s.connections.lookup j).isSome)
    (hkeep : ∀ j ∈ s.issued, j ∉ s.closed → ∀ f,
      (s.waitingFor j).count f+(s.enqueuedFor j).count f ≤
        (posted.flatMap (TcpPost.framesFor j)).count f+
          (((t.lookup j).map TcpConnection.enqueued).getD []).count f) :
    ({ s with connections := t, posted := posted } : TcpConnector).Sound := by
  refine ⟨fun j hj => ⟨(h.unregistered j hj).1,?_⟩,h.once,fun j hj => h.owned j ?_,h.addressed,
    fun j hj hopen => ?_,fun j hj hopen f => ?_⟩
  · have hsame := hsome j
    rw [(h.unregistered j hj).2] at hsame
    simpa using hsame
  · rw [← hsome]
    exact hj
  · rw [hsome]
    exact h.placed j hj hopen
  · exact (h.noneLost j hj hopen f).trans (hkeep j hj hopen f)

theorem isSome_lookup_insert {t : Table Nat TcpConnection} {id : Nat} {c : TcpConnection}
    (hc : t.lookup id = some c) (c' : TcpConnection) (j : Nat) :
    ((t.insert id c').lookup j).isSome = (t.lookup j).isSome := by
  by_cases hj : j = id
  · subst hj
    simp [hc]
  · rw [AList.lookup_insert_ne hj]

/-- `register_socket` has inserted its connection. -/
theorem TcpConnector.Sound.insert (h : s.Sound) {id : Nat} (hid : id ∈ s.registering) :
    (s.insert id).Sound := by
  obtain ⟨hissued,hnone⟩ := h.unregistered id hid
  refine ⟨fun j hj => ?_,h.once.erase id,fun j hj => ?_,h.addressed,fun j hj hopen => ?_,
    fun j hj hopen f => ?_⟩
  · obtain ⟨hne,hj⟩ := h.once.mem_erase_iff.mp hj
    exact ⟨(h.unregistered j hj).1,
      (AList.lookup_insert_ne hne).trans (h.unregistered j hj).2⟩
  · by_cases hji : j = id
    · exact hji ▸ hissued
    · exact h.owned j (by rw [← AList.lookup_insert_ne hji]; exact hj)
  · by_cases hji : j = id
    · subst hji
      exact Or.inr (by simp [TcpConnector.insert])
    · show _ ∨ ((s.connections.insert id {}).lookup j).isSome
      rw [AList.lookup_insert_ne hji]
      exact (h.placed j hj hopen).imp_left (fun hin => (h.once.mem_erase_iff).mpr ⟨hji,hin⟩)
  · have hkept := h.noneLost j hj hopen f
    have hsame : (s.insert id).enqueuedFor j = s.enqueuedFor j := by
      by_cases hji : j = id
      · subst hji
        simp [enqueuedFor,TcpConnector.insert,hnone]
      · simp only [enqueuedFor,TcpConnector.insert,AList.lookup_insert_ne hji]
    rw [hsame]
    exact hkept

/-- The writer of a connection goes on, which puts nothing into its queue. -/
theorem TcpConnector.Sound.drive (h : s.Sound) (id : Nat) {f : TcpConnection → TcpConnection}
    (hf : ∀ c, (f c).enqueued = c.enqueued) : (s.drive id f).Sound := by
  unfold TcpConnector.drive
  cases hc : s.connections.lookup id with
  | none => exact h
  | some c =>
    refine h.move (isSome_lookup_insert hc _) (fun j _ _ g => Nat.add_le_add_left (le_of_eq ?_) _)
    by_cases hj : j = id
    · subst hj
      simp [enqueuedFor,hc,hf]
    · rw [AList.lookup_insert_ne hj]
      rfl

/-- A connection that is given up is closed. -/
theorem TcpConnector.Sound.forget (h : s.Sound) (id : Nat) : (s.forget id).Sound := by
  have hother : ∀ j, j ∈ s.issued → j ∉ (s.forget id).closed → j ≠ id ∧ j ∉ s.closed := by
    intro j hj hopen
    simp only [TcpConnector.forget] at hopen
    split at hopen
    · simpa using hopen
    · rename_i hno
      exact ⟨fun he => hno (he ▸ hj),hopen⟩
  refine ⟨fun j hj => ⟨(h.unregistered j hj).1,?_⟩,h.once,fun j hj => ?_,h.addressed,
    fun j hj hopen => ?_,fun j hj hopen f => ?_⟩
  · by_cases hji : j = id
    · subst hji
      exact AList.lookup_erase _ _
    · exact (AList.lookup_erase_ne hji).trans (h.unregistered j hj).2
  · by_cases hji : j = id
    · subst hji
      simp [TcpConnector.forget] at hj
    · exact h.owned j (by rw [← AList.lookup_erase_ne hji]; exact hj)
  · obtain ⟨hne,hstill⟩ := hother j hj hopen
    refine (h.placed j hj hstill).imp_right (fun hin => ?_)
    simpa only [TcpConnector.forget,AList.lookup_erase_ne hne] using hin
  · obtain ⟨hne,hstill⟩ := hother j hj hopen
    have hsame : (s.forget id).enqueuedFor j = s.enqueuedFor j := by
      simp only [enqueuedFor,TcpConnector.forget,AList.lookup_erase_ne hne]
    rw [hsame]
    exact h.noneLost j hj hstill f

theorem TcpConnector.Sound.drop (h : s.Sound) (id : Nat) : (s.drop id).Sound :=
  (h.forget id).become _

/-- Tasks go that have no frame for an open connection. -/
theorem TcpConnector.Sound.unpost (h : s.Sound) {posted : List TcpPost}
    (hw : ∀ id ∈ s.issued, id ∉ s.closed → ∀ f,
      (s.waitingFor id).count f = (posted.flatMap (TcpPost.framesFor id)).count f) :
    ({ s with posted := posted } : TcpConnector).Sound :=
  h.move (fun _ => rfl) (fun j hj hopen f => Nat.add_le_add_right (le_of_eq (hw j hj hopen f)) _)

/-- The task of a send runs: what waited in it is now in the write queue. -/
theorem TcpConnector.Sound.send (h : s.Sound) {l₁ l₂ : List TcpPost} {id : Nat}
    {frames : List Bytes} (hp : s.posted = l₁ ++ .send id frames :: l₂)
    (hset : ∀ j ∈ s.registering, (TcpPost.send id frames).framesFor j = []) :
    (({ s with posted := l₁ ++ l₂ } : TcpConnector).perform (.send id frames)).Sound := by
  have hwait : ∀ j f, (s.waitingFor j).count f =
      ((l₁ ++ l₂).flatMap (TcpPost.framesFor j)).count f+
        ((TcpPost.send id frames).framesFor j).count f := by
    intro j f
    simp only [waitingFor,hp,List.flatMap_append,List.flatMap_cons,List.count_append]
    omega
  cases hc : s.connections.lookup id with
  | none =>
    -- a closed connection, or one this connector has never had
    simp only [perform,hc]
    refine h.unpost (fun j hj hopen f => ?_)
    have hnone : (TcpPost.send id frames).framesFor j = [] := by
      by_cases hji : id = j
      · subst hji
        rcases h.placed id hj hopen with hreg | hconn
        · exact hset id hreg
        · simp [hc] at hconn
      · simp [TcpPost.framesFor,hji]
    rw [hwait,hnone,List.count_nil,Nat.add_zero]
  | some c =>
    simp only [perform,hc]
    refine h.move (isSome_lookup_insert hc _) (fun j _ _ f => ?_)
    rw [hwait]
    by_cases hji : j = id
    · subst hji
      simp only [enqueuedFor,hc,TcpPost.framesFor,ite_true,Option.map_some,Option.getD_some,
        AList.lookup_insert,TcpConnection.enqueue,List.count_append]
      omega
    · rw [AList.lookup_insert_ne hji]
      simp only [TcpPost.framesFor,if_neg (Ne.symm hji),List.count_nil,enqueuedFor,Nat.add_zero,
        Nat.le_refl]

/-- Every step keeps the ids apart. -/
theorem TcpConnector.act_bounded (h : ∀ id ∈ s.issued, id < s.core.nextId)
    (a : TcpConnectorStep) : ∀ id ∈ (s.act env a).issued, id < (s.act env a).core.nextId := by
  have hbecome : ∀ (t : TcpConnector) (st : Impl), (∀ id ∈ t.issued, id < st.nextId) →
      ∀ id ∈ (t.become st).issued, id < (t.become st).core.nextId := fun t st ht => ht
  have hdrop : ∀ (t : TcpConnector) (j : Nat), (∀ id ∈ t.issued, id < t.core.nextId) →
      ∀ id ∈ (t.drop j).issued, id < (t.drop j).core.nextId := fun t j ht => by
    refine hbecome _ _ (fun id hid => ?_)
    rw [t.core.handleDisconnect_nextId j]
    exact ht id hid
  have hdrive : ∀ j f, ∀ id ∈ (s.drive j f).issued, id < (s.drive j f).core.nextId := by
    intro j f
    unfold drive
    split <;> exact h
  cases a with
  | onConnect ep =>
    simp only [act]
    split
    · exact hbecome _ _ (fun id hid => Nat.lt_of_lt_of_le (h id hid)
        (Event.nextId_le env s.core (.connected ep)))
    · rename_i hid
      obtain ⟨hid,hlt⟩ := Impl.handleConnect_id hid
      refine hbecome _ _ (fun id hin => ?_)
      rcases List.mem_append.mp hin with hin | hin
      · exact (h id hin).trans hlt
      · rw [List.mem_singleton.mp hin,hid]
        exact hlt
  | insert id =>
    simp only [act]
    split <;> exact h
  | call e =>
    exact hbecome _ _ (fun id hid => Nat.lt_of_lt_of_le (h id hid) (Event.nextId_le env s.core e))
  | runTask i =>
    simp only [act]
    split
    · exact h
    · rename_i task _
      cases task with
      | send id frames =>
        simp only [perform]
        split <;> exact h
      | close id => exact hdrop _ id h
  | readFailed id =>
    simp only [act]
    split
    · exact hdrop s id h
    · exact h
  | startWrite id => exact hdrive id _
  | transmit id i n => exact hdrive id _
  | complete id i => exact hdrive id _

theorem TcpConnector.Sound.act (h : s.Sound) (hb : ∀ id ∈ s.issued, id < s.core.nextId)
    {a : TcpConnectorStep} (ha : s.Settled a) : (s.act env a).Sound := by
  cases a with
  | onConnect ep =>
    simp only [TcpConnector.act]
    split
    · exact h.become _
    · rename_i hid
      refine (h.issue (fun hin => ?_)).become _
      have hlt := hb _ hin
      rw [(Impl.handleConnect_id hid).1] at hlt
      exact Nat.lt_irrefl _ hlt
  | insert id =>
    simp only [TcpConnector.act]
    split
    · rename_i hid
      exact h.insert hid
    · exact h
  | call e => exact h.become _
  | runTask i =>
    simp only [TcpConnector.act]
    split
    · exact h
    · rename_i task hi
      have hp : s.posted = s.posted.take i ++ task :: s.posted.drop (i+1) := by
        obtain ⟨hlt,hget⟩ := List.getElem?_eq_some_iff.mp hi
        rw [← hget,← List.drop_eq_getElem_cons hlt,List.take_append_drop]
      rw [List.eraseIdx_eq_take_drop_succ]
      cases task with
      | send id frames => exact h.send hp (fun j hj => ha j hj _ hi)
      | close id =>
        refine (h.unpost (fun j _ _ f => ?_)).drop id
        have hwait : s.waitingFor j = (s.posted.take i).flatMap (TcpPost.framesFor j) ++
            (s.posted.drop (i+1)).flatMap (TcpPost.framesFor j) := by
          rw [waitingFor,congrArg (List.flatMap (TcpPost.framesFor j)) hp]
          simp [TcpPost.framesFor]
        rw [hwait,List.flatMap_append]
  | readFailed id =>
    simp only [TcpConnector.act]
    split
    · exact h.drop id
    · exact h
  | startWrite id => exact h.drive id (fun c => c.startWrite_enqueued)
  | transmit id i n => exact h.drive id (fun c => c.transmit_enqueued i n)
  | complete id i => exact h.drive id (fun c => c.complete_enqueued i)

end

/-- As long as no send for a new id is run before `register_socket` has inserted it. -/
theorem handed_frames_reach_queue (env : Env) (core : Impl) (steps : List TcpConnectorStep)
    (h : Along (TcpConnector.act env) TcpConnector.Settled { core := core } steps) :
    (TcpConnector.run env { core := core } steps).NoneLost := by
  have hstart : (({ core := core } : TcpConnector).Sound) :=
    ⟨by simp,by simp,by simp,by simp,by simp,by simp [TcpConnector.NoneLost]⟩
  exact (h.invariant
    (I := fun s : TcpConnector => s.Sound ∧ ∀ id ∈ s.issued, id < s.core.nextId)
    (fun s a hs ha => ⟨hs.1.act hs.2 ha,TcpConnector.act_bounded hs.2 a⟩)
    ⟨hstart,by simp⟩).1.noneLost

instance (s : TcpConnector) : (a : TcpConnectorStep) → Decidable (s.Settled a)
  | .runTask i => inferInstanceAs (Decidable
      (∀ id ∈ s.registering, ∀ task ∈ s.posted[i]?, task.framesFor id = []))
  | .onConnect _ | .insert _ | .call _ | .readFailed _ | .startWrite _ | .transmit .. |
    .complete .. => inferInstanceAs (Decidable True)

/-- A node that dials has its TCP connector registered with the core. -/
def dialingCore : Impl := (Impl.start NodeIdentity.alice).run (Env.sample false) [.tcp]

/-- The first Noise message gets into the write queue. -/
theorem handed_frames_reach_queue_dialing :
    (TcpConnector.run (Env.sample false) { core := dialingCore }
      [.onConnect (Endpoint.sample "b" epFlagOutbound),.insert 1,.runTask 0]).NoneLost ∧
    ((TcpConnector.run (Env.sample false) { core := dialingCore }
      [.onConnect (Endpoint.sample "b" epFlagOutbound),.insert 1,.runTask 0]).enqueuedFor 1).map
        (fun frame => (Header.decode frame).type) = [msgTypeNoiseInit] := by
  refine ⟨?_,by decide +kernel⟩
  exact handed_frames_reach_queue (Env.sample false) dialingCore _ (by decide +kernel)

/-- The task that carries it runs before `register_socket` goes on, and returns. -/
theorem noise_init_lost :
    ¬ (TcpConnector.run (Env.sample false) { core := dialingCore }
      [.onConnect (Endpoint.sample "b" epFlagOutbound),.runTask 0,.insert 1]).NoneLost ∧
    ((TcpConnector.run (Env.sample false) { core := dialingCore }
      [.onConnect (Endpoint.sample "b" epFlagOutbound),.runTask 0,.insert 1]).handedTo 1).map
        (fun frame => (Header.decode frame).type) = [msgTypeNoiseInit] := by
  refine ⟨fun h => ?_,by decide +kernel⟩
  have hlost := h 1 (by decide +kernel) (by decide +kernel)
    (((TcpConnector.run (Env.sample false) { core := dialingCore }
      [.onConnect (Endpoint.sample "b" epFlagOutbound),.runTask 0,.insert 1]).handedTo 1).headD [])
  exact absurd hlost (by decide +kernel)

end GoodNet
