import GoodNet.ManagerRun
import GoodNet.QuietSteps
set_option autoImplicit false

/-! What the operations that do change records keep of them, field by field, and what
they add to the trace. -/

namespace GoodNet
open Codec

theorem Impl.find_modify_some {st : Impl} {id j : Nat} {g : ConnectionRecord → ConnectionRecord}
    {r' : ConnectionRecord} (h : (st.modify id g).find j = some r') :
    ∃ r, st.find j = some r ∧ ((j = id ∧ r' = g r) ∨ (j ≠ id ∧ r' = r)) := by
  rw [find_modify] at h
  split at h
  · rename_i hj
    subst hj
    obtain ⟨r,hr,rfl⟩ := Option.map_eq_some_iff.mp h
    exact ⟨r,hr,Or.inl ⟨rfl,rfl⟩⟩
  · rename_i hj
    exact ⟨r',h,Or.inr ⟨hj,rfl⟩⟩

theorem Impl.find_erase_some {st st' : Impl} {id j : Nat} {r : ConnectionRecord}
    (h : st'.records = st.records.erase id) (hr : st'.find j = some r) :
    j ≠ id ∧ st.find j = some r := by
  unfold find at hr ⊢
  rw [h] at hr
  by_cases hj : j = id
  · subst hj
    simp at hr
  · rw [AList.lookup_erase_ne hj] at hr
    exact ⟨hj,hr⟩

/-- No record appears, and the ones that stay have `f` unchanged. -/
def Impl.Keeps {α : Type} (f : ConnectionRecord → α) (st st' : Impl) : Prop :=
  ∀ id r', st'.find id = some r' → ∃ r, st.find id = some r ∧ f r' = f r

/-- The same records are there, with `f` unchanged. -/
def Impl.Agrees {α : Type} (f : ConnectionRecord → α) (st st' : Impl) : Prop :=
  ∀ id, (st'.find id).map f = (st.find id).map f

section
variable {α : Type} {f : ConnectionRecord → α} {env : Env} {st st' st'' : Impl}

theorem Impl.Keeps.refl (st : Impl) : Impl.Keeps f st st := fun _ r hr => ⟨r,hr,rfl⟩

theorem Impl.Keeps.trans (h : Impl.Keeps f st st') (h' : Impl.Keeps f st' st'') :
    Impl.Keeps f st st'' := by
  intro id r hr
  obtain ⟨r₁,hr₁,hf₁⟩ := h' id r hr
  obtain ⟨r₀,hr₀,hf₀⟩ := h id r₁ hr₁
  exact ⟨r₀,hr₀,hf₁.trans hf₀⟩

theorem Impl.Keeps.of_records (h : st'.records = st.records) : Impl.Keeps f st st' := by
  intro id r hr
  unfold find at hr ⊢
  rw [h] at hr
  exact ⟨r,hr,rfl⟩

theorem Impl.Keeps.erase (id : Nat) (h : st'.records = st.records.erase id) :
    Impl.Keeps f st st' := fun _ r hr => ⟨r,(find_erase_some h hr).2,rfl⟩

theorem Impl.Agrees.refl (st : Impl) : Impl.Agrees f st st := fun _ => rfl

theorem Impl.Agrees.trans (h : Impl.Agrees f st st') (h' : Impl.Agrees f st' st'') :
    Impl.Agrees f st st'' := fun id => (h' id).trans (h id)

theorem Impl.Agrees.of_records (h : st'.records = st.records) : Impl.Agrees f st st' := by
  intro id
  unfold find
  rw [h]

theorem Impl.Agrees.modify {g : ConnectionRecord → ConnectionRecord} (id : Nat)
    (hg : ∀ r, f (g r) = f r) : Impl.Agrees f st (st.modify id g) := by
  intro j
  rw [find_modify]
  split
  · rename_i hj
    subst hj
    cases st.find j with
    | none => rfl
    | some r => exact congrArg some (hg r)
  · rfl

theorem Impl.Agrees.modify_at {g : ConnectionRecord → ConnectionRecord} {id : Nat}
    {r : ConnectionRecord} (hr : st.find id = some r) (hg : f (g r) = f r) :
    Impl.Agrees f st (st.modify id g) := by
  intro j
  rw [find_modify]
  split
  · rename_i hj
    subst hj
    rw [hr]
    exact congrArg some hg
  · rfl

theorem Impl.Agrees.find_some (h : Impl.Agrees f st st') {id : Nat} {r : ConnectionRecord}
    (hr : st.find id = some r) : ∃ r', st'.find id = some r' ∧ f r' = f r := by
  have hf := h id
  rw [hr,Option.map_some] at hf
  exact Option.map_eq_some_iff.mp hf

theorem Impl.Agrees.keeps (h : Impl.Agrees f st st') : Impl.Keeps f st st' := by
  intro id r' hr'
  have hf := h id
  rw [hr',Option.map_some] at hf
  obtain ⟨r,hr,he⟩ := Option.map_eq_some_iff.mp hf.symm
  exact ⟨r,hr,he.symm⟩

theorem Quiet.agrees {allowed : Effect → Prop} (h : Quiet allowed st st')
    (hf : ∀ r, f r.core = f r) : Impl.Agrees f st st' := by
  intro id
  have hc := congrArg (Option.map f) (h.find id)
  have hcomp : f ∘ ConnectionRecord.core = f := funext hf
  simpa only [Option.map_map,hcomp] using hc

theorem Impl.dropTransport_agrees (st : Impl) (id peer : Nat)
    (hf : ∀ r, f (r.dropPath id) = f r) : Impl.Agrees f st (st.dropTransport id peer) := by
  have hstart : Impl.Agrees f st (st.eraseTransport id) := Agrees.of_records rfl
  unfold dropTransport
  dsimp only
  split
  · exact hstart
  · split
    · exact hstart.trans (Agrees.modify peer hf)
    · rename_i p _
      have huri : Impl.Agrees f st ((st.eraseTransport id).eraseUri p.remote.key) :=
        Agrees.of_records rfl
      have hpath := huri.trans (Agrees.modify peer hf)
      split
      · exact hpath
      · exact hpath.trans (Agrees.of_records rfl)

theorem Impl.handleDisconnect_keeps (st : Impl) (id : Nat)
    (hf : ∀ r, f (r.dropPath id) = f r) : Impl.Keeps f st (st.handleDisconnect id) := by
  have hstart : Impl.Keeps f st (st.emit (.disconnecting id st.toRegistry)) :=
    Keeps.of_records rfl
  unfold handleDisconnect
  dsimp only
  split
  · exact hstart.trans (dropTransport_agrees _ id _ hf).keeps
  · unfold dropPeer
    split
    · exact hstart
    · exact hstart.trans (Keeps.erase id rfl)

theorem Impl.closed_keeps (st : Impl) (via : Nat) (hf : ∀ id r, f (r.dropPath id) = f r) :
    Impl.Keeps f st (st.closed env via) := by
  have hask : Impl.Keeps f st st.ask := Keeps.of_records rfl
  unfold closed
  split
  · exact hask.trans (handleDisconnect_keeps _ via (hf via))
  · exact hask

theorem Impl.closeNowVia_keeps (st : Impl) (scheme : String) (via : Nat)
    (hf : ∀ id r, f (r.dropPath id) = f r) :
    Impl.Keeps f st (st.closeNowVia env scheme via).1 := by
  have hemit : ∀ e, Impl.Keeps f st (st.emit e) := fun e => Keeps.of_records rfl
  have hcall : ∀ e, Impl.Keeps f st ((st.emit e).closed env via) := fun e =>
    (hemit e).trans (closed_keeps _ via hf)
  unfold closeNowVia
  split
  · split
    · exact hcall _
    · split
      · exact hcall _
      · exact Keeps.refl st
  · exact Keeps.refl st

theorem Impl.closeVia_keeps (st : Impl) (scheme : String) (via : Nat)
    (hf : ∀ id r, f (r.dropPath id) = f r) : Impl.Keeps f st (st.closeVia env scheme via).1 := by
  have hemit : Impl.Keeps f st (st.emit (.close scheme via)) := Keeps.of_records rfl
  unfold closeVia
  split
  · split
    · exact hemit.trans (closed_keeps _ via hf)
    · exact Keeps.refl st
  · exact Keeps.refl st

theorem Impl.closePaths_keeps {close : Impl → String → Nat → Impl × Bool}
    (hclose : ∀ st scheme via, Impl.Keeps f st (close st scheme via).1) (st : Impl)
    (paths : List TransportPath) : Impl.Keeps f st (st.closePaths close paths).1 := by
  induction paths generalizing st with
  | nil => exact Keeps.refl st
  | cons p ps ih => exact (hclose st _ _).trans (ih _)

theorem Impl.closeNow_keeps (st : Impl) (id : Nat) (hf : ∀ id r, f (r.dropPath id) = f r) :
    Impl.Keeps f st (st.closeNow env id) := by
  have hclose : ∀ (st : Impl) scheme via, Impl.Keeps f st (st.closeNowVia env scheme via).1 :=
    fun st scheme via => closeNowVia_keeps st scheme via hf
  unfold closeNow
  split
  · exact Keeps.refl st
  · rename_i r _
    dsimp only
    split
    · exact closePaths_keeps hclose st r.transportPaths
    · exact (closePaths_keeps hclose st r.transportPaths).trans (hclose _ _ _)

theorem Impl.disconnect_keeps (st : Impl) (id : Nat) (hf : ∀ id r, f (r.dropPath id) = f r) :
    Impl.Keeps f st (st.disconnect env id) := by
  have hclose : ∀ (st : Impl) scheme via, Impl.Keeps f st (st.closeVia env scheme via).1 :=
    fun st scheme via => closeVia_keeps st scheme via hf
  have hdrain : Impl.Keeps f st (st.markDraining id) := by
    unfold markDraining
    split
    · exact Keeps.of_records rfl
    · exact Keeps.refl st
  unfold disconnect
  dsimp only
  split
  · exact hdrain
  · split
    · exact hdrain.trans (closePaths_keeps hclose _ _)
    · exact (hdrain.trans (closePaths_keeps hclose _ _)).trans (hclose _ _ _)

theorem Impl.removeDuplicate_keeps (st : Impl) (id : Nat) (r : ConnectionRecord) :
    Impl.Keeps f st (st.removeDuplicate id r) := Keeps.erase id rfl

theorem Impl.setRecvBuf_agrees (st : Impl) (id : Nat) (bytes : Bytes)
    (hf : ∀ (r : ConnectionRecord) b, f { r with recvBuf := b } = f r) :
    Impl.Agrees f st (st.setRecvBuf id bytes) := Agrees.modify id (fun r => hf r bytes)

theorem Impl.attachTransport_find {peer j : Nat} {ep : Endpoint} {scheme : String}
    {r' : ConnectionRecord} (h : (st.attachTransport peer ep scheme).find j = some r') :
    ∃ r, st.find j = some r ∧ ((j = peer ∧ r' = { r with transportPaths := r.transportPaths ++
      [{ transportConnId := st.nextId, scheme := scheme,
         priority := st.schemePriorityIndex scheme, remote := ep }] }) ∨ (j ≠ peer ∧ r' = r)) :=
  find_modify_some h

theorem Impl.attachTransport_agrees (peer : Nat) (ep : Endpoint) (scheme : String)
    (hf : ∀ (r : ConnectionRecord) paths, f { r with transportPaths := paths } = f r) :
    Impl.Agrees f st (st.attachTransport peer ep scheme) := Agrees.modify peer (fun r => hf r _)

theorem Impl.authenticate_keeps (st : Impl) (hp : HandshakePayload) (schemes : List String)
    (r : ConnectionRecord) :
    (st.authenticate hp schemes r).handshake = r.handshake ∧
      (st.authenticate hp schemes r).peerAuthenticated = true ∧
      (st.authenticate hp schemes r).state = r.state ∧
      (st.authenticate hp schemes r).session = r.session ∧
      (st.authenticate hp schemes r).isLocalhost = r.isLocalhost ∧
      (st.authenticate hp schemes r).localhostPassthrough = r.localhostPassthrough ∧
      (st.authenticate hp schemes r).remote = r.remote ∧
      (st.authenticate hp schemes r).recvBuf = r.recvBuf := by
  unfold authenticate
  dsimp only
  split
  · exact ⟨rfl,rfl,rfl,rfl,rfl,rfl,rfl,rfl⟩
  · exact ⟨rfl,rfl,rfl,rfl,rfl,rfl,rfl,rfl⟩

/-- `insertRecord`, with the first Noise message already drawn when we are the initiator. -/
def Impl.openConnection (env : Env) (st : Impl) (ep : Endpoint) : Impl :=
  let opened := st.insertRecord env ep
  match (opened.find st.nextId).bind ConnectionRecord.handshake with
  | some hs => if ep.outbound then (opened.writeNoise env st.nextId hs []).1 else opened
  | none => opened

/-- The state `handle_connect` initialises a handshake to. -/
def Impl.freshHandshake (env : Env) (st : Impl) (ep : Endpoint) : Noise.HandshakeState :=
  Noise.HandshakeState.init env.sodium ep.outbound
    ((env.sodium.pkToCurve25519 st.identity.devicePubkey).getD (env.random st.asked))
    (env.sodium.skToCurve25519 st.identity.deviceSeckey)

theorem Impl.insertRecord_find (st : Impl) (ep : Endpoint) :
    (st.insertRecord env ep).find st.nextId = some (st.newRecord env ep) := by
  unfold insertRecord find
  exact AList.lookup_insert st.records

theorem Impl.insertRecord_find_ne {ep : Endpoint} {j : Nat} (hj : j ≠ st.nextId) :
    (st.insertRecord env ep).find j = st.find j := by
  unfold insertRecord find
  exact AList.lookup_insert_ne hj

theorem Impl.openConnection_inbound {ep : Endpoint} (h : ep.outbound = false) :
    st.openConnection env ep = st.insertRecord env ep := by
  unfold openConnection
  dsimp only
  rw [insertRecord_find]
  simp [newRecord,h]

theorem Impl.openConnection_outbound {ep : Endpoint} (h : ep.outbound = true) :
    st.openConnection env ep =
      ((st.insertRecord env ep).writeNoise env st.nextId (st.freshHandshake env ep) []).1 := by
  unfold openConnection
  dsimp only
  rw [insertRecord_find]
  simp [newRecord,freshHandshake,h]

/-- The new connection is the only change: its record is fresh, but for the handshake of
an initiator, which has written its first message. -/
theorem Impl.openConnection_find {ep : Endpoint} {j : Nat} {r' : ConnectionRecord}
    (h : (st.openConnection env ep).find j = some r') :
    (j ≠ st.nextId ∧ st.find j = some r') ∨
    (j = st.nextId ∧ ep.outbound = false ∧ r' = st.newRecord env ep) ∨
    (j = st.nextId ∧ ep.outbound = true ∧ r' = (st.newRecord env ep).withHandshake
      ((st.freshHandshake env ep).writeMessage env.sodium (env.random (st.asked+1)) []).state) := by
  cases ho : ep.outbound with
  | false =>
    rw [openConnection_inbound ho] at h
    by_cases hj : j = st.nextId
    · subst hj
      rw [insertRecord_find] at h
      cases h
      exact Or.inr (Or.inl ⟨rfl,rfl,rfl⟩)
    · rw [insertRecord_find_ne hj] at h
      exact Or.inl ⟨hj,h⟩
  | true =>
    rw [openConnection_outbound ho] at h
    unfold writeNoise at h
    dsimp only at h
    rw [find_emit] at h
    obtain ⟨r,hr,⟨rfl,rfl⟩ | ⟨hj,rfl⟩⟩ := find_modify_some h
    · rw [find_ask,insertRecord_find] at hr
      cases hr
      exact Or.inr (Or.inr ⟨rfl,rfl,rfl⟩)
    · rw [find_ask,insertRecord_find_ne hj] at hr
      exact Or.inl ⟨hj,hr⟩

theorem Impl.openConnection_find_ne {ep : Endpoint} {j : Nat} (hj : j ≠ st.nextId) :
    (st.openConnection env ep).find j = st.find j := by
  cases ho : ep.outbound with
  | false =>
    rw [openConnection_inbound ho]
    exact insertRecord_find_ne hj
  | true =>
    rw [openConnection_outbound ho]
    unfold writeNoise
    dsimp only
    rw [find_emit,find_modify,if_neg hj,find_ask]
    exact insertRecord_find_ne hj

theorem Impl.openConnection_log (env : Env) (st : Impl) (ep : Endpoint) :
    (st.openConnection env ep).log =
      (if ep.outbound then [Effect.noiseWrite st.nextId (st.freshHandshake env ep)
          (env.random (st.asked+1)) ((st.freshHandshake env ep).writeMessage env.sodium
            (env.random (st.asked+1)) [])] else []) ++
        .stat .connect 1 st.nextId :: .registered ep.key st.nextId :: st.log := by
  cases ho : ep.outbound with
  | false =>
    rw [openConnection_inbound ho]
    rfl
  | true =>
    rw [openConnection_outbound ho]
    rfl

/-- Everything `handle_disconnect` can do. -/
theorem Impl.handleDisconnect_cases (st : Impl) (id : Nat) :
    (∃ peer, st.transportIndex.lookup id = some peer ∧ st.handleDisconnect id =
      (st.emit (.disconnecting id st.toRegistry)).dropTransport id peer) ∨
    (st.transportIndex.lookup id = none ∧ st.find id = none ∧
      st.handleDisconnect id = st.emit (.disconnecting id st.toRegistry)) ∨
    (st.transportIndex.lookup id = none ∧ ∃ r, st.find id = some r ∧ st.handleDisconnect id =
      (((st.emit (.disconnecting id st.toRegistry)).forgetPeer id r).emit
        (.stat .disconnect 1 id)).emit (.notify r.remote.key .closed)) := by
  unfold handleDisconnect
  dsimp only
  cases ht : st.transportIndex.lookup id with
  | some peer =>
    refine Or.inl ⟨peer,rfl,?_⟩
    have ht' : (st.emit (.disconnecting id st.toRegistry)).transportIndex.lookup id = some peer := ht
    rw [ht']
  | none =>
    have ht' : (st.emit (.disconnecting id st.toRegistry)).transportIndex.lookup id = none := ht
    rw [ht']
    unfold dropPeer
    rw [find_emit]
    cases hf : st.find id with
    | none => exact Or.inr (Or.inl ⟨rfl,rfl,rfl⟩)
    | some r => exact Or.inr (Or.inr ⟨rfl,r,rfl,rfl⟩)

/-- Everything the secondary branch can do, up to reports. -/
theorem Impl.dropTransport_cases (st : Impl) (id peer : Nat) :
    (st.find peer = none ∧ st.dropTransport id peer = st.eraseTransport id) ∨
    (∃ r, st.find peer = some r ∧ r.findPathByTransportId id = none ∧
      st.dropTransport id peer =
        (st.eraseTransport id).modify peer (ConnectionRecord.dropPath id)) ∨
    (∃ r p, st.find peer = some r ∧ r.findPathByTransportId id = some p ∧
      (st.dropTransport id peer).toRegistry = (((st.eraseTransport id).eraseUri
        p.remote.key).modify peer (ConnectionRecord.dropPath id)).toRegistry) := by
  unfold dropTransport
  have hfind : (st.eraseTransport id).find peer = st.find peer := rfl
  dsimp only
  rw [hfind]
  cases hf : st.find peer with
  | none => exact Or.inl ⟨rfl,rfl⟩
  | some r =>
    dsimp only
    cases hp : r.findPathByTransportId id with
    | none => exact Or.inr (Or.inl ⟨r,rfl,hp,rfl⟩)
    | some p =>
      refine Or.inr (Or.inr ⟨r,p,rfl,hp,?_⟩)
      dsimp only
      split
      · rfl
      · rfl

/-- A record that a disconnect leaves has lost at most one path. -/
theorem Impl.handleDisconnect_find {st : Impl} {via id : Nat} {r' : ConnectionRecord}
    (h : (st.handleDisconnect via).find id = some r') :
    ∃ r, st.find id = some r ∧ (r' = r ∨ r' = r.dropPath via) := by
  have hdrop : ∀ (st₁ : Impl) peer, st₁.records = st.records →
      (st₁.modify peer (ConnectionRecord.dropPath via)).find id = some r' →
      ∃ r, st.find id = some r ∧ (r' = r ∨ r' = r.dropPath via) := by
    intro st₁ peer hrec hr'
    have hsame : ∀ j, st₁.find j = st.find j := fun j => by unfold find; rw [hrec]
    rw [find_modify] at hr'
    split at hr'
    · rename_i hid
      obtain ⟨r,hr,rfl⟩ := Option.map_eq_some_iff.1 hr'
      exact ⟨r,by rw [hid,← hsame]; exact hr,.inr rfl⟩
    · exact ⟨r',by rw [← hsame]; exact hr',.inl rfl⟩
  rcases st.handleDisconnect_cases via with ⟨peer,-,heq⟩ | ⟨-,-,heq⟩ | ⟨-,r,-,heq⟩
  · rw [heq] at h
    rcases dropTransport_cases (st.emit (.disconnecting via st.toRegistry)) via peer with
      ⟨-,hd⟩ | ⟨r,-,-,hd⟩ | ⟨r,p,-,-,hd⟩
    · rw [hd] at h
      exact ⟨r',h,.inl rfl⟩
    · rw [hd] at h
      exact hdrop _ peer rfl h
    · have hrec := congrArg Registry.records hd
      unfold find at h
      rw [hrec] at h
      exact hdrop _ peer rfl h
  · rw [heq] at h
    exact ⟨r',h,.inl rfl⟩
  · rw [heq] at h
    exact ⟨r',(find_erase_some rfl h).2,.inl rfl⟩

theorem Impl.dropTransport_same (st : Impl) (id peer : Nat) :
    (st.dropTransport id peer).nextId = st.nextId ∧
      (st.dropTransport id peer).sendQueues = st.sendQueues ∧
      (st.dropTransport id peer).pkIndex = st.pkIndex := by
  unfold dropTransport
  dsimp only
  split
  · exact ⟨rfl,rfl,rfl⟩
  · split
    · exact ⟨rfl,rfl,rfl⟩
    · split
      · exact ⟨rfl,rfl,rfl⟩
      · exact ⟨rfl,rfl,rfl⟩

/-- What the loop over the paths of a leaving record erases. -/
theorem eraseTransports_lookup (index : Table Nat Nat) (id : Nat) (paths : List TransportPath)
    (tid : Nat) : (eraseTransports index id paths).lookup tid =
      if ∃ p ∈ paths, p.transportConnId = tid ∧ tid ≠ id then none else index.lookup tid := by
  induction paths generalizing index with
  | nil => simp [eraseTransports]
  | cons p ps ih =>
    have hstep : eraseTransports index id (p :: ps) =
        eraseTransports (if p.transportConnId = id then index
          else index.erase p.transportConnId) id ps := rfl
    rw [hstep,ih]
    by_cases hrest : ∃ q ∈ ps, q.transportConnId = tid ∧ tid ≠ id
    · have hall : ∃ q ∈ p :: ps, q.transportConnId = tid ∧ tid ≠ id := by
        obtain ⟨q,hq,hk⟩ := hrest
        exact ⟨q,List.mem_cons_of_mem p hq,hk⟩
      rw [if_pos hrest,if_pos hall]
    · rw [if_neg hrest]
      by_cases hp : p.transportConnId = tid ∧ tid ≠ id
      · have hall : ∃ q ∈ p :: ps, q.transportConnId = tid ∧ tid ≠ id :=
          ⟨p,List.mem_cons_self,hp⟩
        have hid : ¬p.transportConnId = id := fun hc => hp.2 (hp.1.symm.trans hc)
        rw [if_pos hall,if_neg hid,hp.1,AList.lookup_erase]
      · have hall : ¬∃ q ∈ p :: ps, q.transportConnId = tid ∧ tid ≠ id := by
          rintro ⟨q,hq,hk⟩
          rcases List.mem_cons.mp hq with rfl | hq
          · exact hp hk
          · exact hrest ⟨q,hq,hk⟩
        rw [if_neg hall]
        split
        · rfl
        · rename_i hid
          refine AList.lookup_erase_ne (fun hc => hp ⟨hc.symm,fun hc' => hid ?_⟩)
          exact hc.symm.trans hc'

theorem Impl.find_forgetPeer {id j : Nat} (r : ConnectionRecord) (hj : j ≠ id) :
    (st.forgetPeer id r).find j = st.find j := AList.lookup_erase_ne hj

theorem Impl.forgetPeer_pk {id j : Nat} {r : ConnectionRecord} {key : String}
    (h : (st.forgetPeer id r).pkIndex.lookup key = some j) : st.pkIndex.lookup key = some j ∧
      (r.peerAuthenticated = true → key ≠ r.pkHex) := by
  unfold forgetPeer at h
  dsimp only at h
  split at h
  · by_cases hk : key = r.pkHex
    · subst hk
      simp at h
    · rw [AList.lookup_erase_ne hk] at h
      exact ⟨h,fun _ => hk⟩
  · rename_i ha
    exact ⟨h,fun ha' => absurd ha' ha⟩

theorem Impl.commitSession_pk (env : Env) (st : Impl) (id : Nat) (r : ConnectionRecord)
    (hs : Noise.HandshakeState) :
    (st.commitSession env id r hs).pkIndex = st.pkIndex.insert r.pkHex id := rfl

theorem Impl.dropTransport_log (st : Impl) (id peer : Nat) :
    ∃ new, (st.dropTransport id peer).log = new ++ st.log ∧ ∀ e ∈ new, e.isReport = true := by
  unfold dropTransport
  dsimp only
  split
  · exact ⟨[],rfl,by simp⟩
  · split
    · exact ⟨[],rfl,by simp⟩
    · split
      · exact ⟨[],rfl,by simp⟩
      · exact ⟨[.transportChange peer _ false],rfl,by simp [Effect.isReport]⟩

theorem Impl.handleDisconnect_log (st : Impl) (id : Nat) :
    ∃ new, (st.handleDisconnect id).log = new ++ .disconnecting id st.toRegistry :: st.log ∧
      ∀ e ∈ new, e.isReport = true := by
  rcases st.handleDisconnect_cases id with ⟨peer,_,h⟩ | ⟨_,_,h⟩ | ⟨_,r,_,h⟩
  · rw [h]
    exact dropTransport_log _ id peer
  · rw [h]
    exact ⟨[],rfl,by simp⟩
  · rw [h]
    exact ⟨[.notify r.remote.key .closed,.stat .disconnect 1 id],rfl,by simp [Effect.isReport]⟩

theorem Impl.handleDisconnect_nextId (st : Impl) (id : Nat) :
    (st.handleDisconnect id).nextId = st.nextId := by
  rcases st.handleDisconnect_cases id with ⟨peer,_,h⟩ | ⟨_,_,h⟩ | ⟨_,r,_,h⟩
  · rw [h]
    exact (dropTransport_same _ id peer).1
  · rw [h]
    rfl
  · rw [h]
    rfl

/-- What `decrypt` through the record changes: the session, and a note of the packet id
when the window took it. -/
theorem Impl.decryptFor_cases (env : Env) (st : Impl) (id : Nat) (s : NoiseSession)
    (hdr : Header) (payload : Bytes) :
    let mid := st.modify id (ConnectionRecord.withSession
      (s.decrypt env.sodium env.zstd payload hdr.packetId).1)
    (macLen ≤ payload.length ∧ (s.recvWindow.accept hdr.packetId).2 = true ∧
      (st.decryptFor env id s hdr payload).1 = mid.emit (.accepted id hdr.packetId)) ∨
    (¬(macLen ≤ payload.length ∧ (s.recvWindow.accept hdr.packetId).2 = true) ∧
      (st.decryptFor env id s hdr payload).1 = mid) := by
  unfold decryptFor
  dsimp only
  split
  · rename_i h
    exact Or.inl ⟨h.1,h.2,rfl⟩
  · rename_i h
    exact Or.inr ⟨h,rfl⟩

theorem Impl.decryptFor_find (env : Env) (st : Impl) (id j : Nat) (s : NoiseSession)
    (hdr : Header) (payload : Bytes) : (st.decryptFor env id s hdr payload).1.find j =
      (st.modify id (ConnectionRecord.withSession
        (s.decrypt env.sodium env.zstd payload hdr.packetId).1)).find j := by
  rcases st.decryptFor_cases env id s hdr payload with ⟨_,_,h⟩ | ⟨_,h⟩
  · rw [h]
    rfl
  · rw [h]

/-- The four ways a payload of an established connection goes. -/
theorem Impl.openPayload_cases {id : Nat} {r : ConnectionRecord} {hdr : Header} {payload : Bytes}
    {out : Option Bytes} (h : st.openPayload env id r hdr payload = (st',out)) :
    (st' = st ∧ out = some payload ∧
      (r.localhostPassthrough = true ∨ r.isLocalhost = true ∨ r.session = none)) ∨
    (st' = st.emit (.drop id .trustedFromRemote) ∧ out = none) ∨
    (∃ s, r.session = some s ∧ hdr.flags &&& gnetFlagTrusted = 0 ∧
      (st.decryptFor env id s hdr payload).2 = [] ∧ out = none ∧
      st' = (st.decryptFor env id s hdr payload).1.emit (.drop id .decryptFail)) ∨
    (∃ s, r.session = some s ∧ hdr.flags &&& gnetFlagTrusted = 0 ∧
      (st.decryptFor env id s hdr payload).2 ≠ [] ∧
      out = some (st.decryptFor env id s hdr payload).2 ∧
      st' = (st.decryptFor env id s hdr payload).1) := by
  unfold openPayload at h
  split at h
  · rename_i hp
    cases h
    exact Or.inl ⟨rfl,rfl,Or.inl hp⟩
  · split at h
    · split at h
      · cases h
        exact Or.inr (Or.inl ⟨rfl,rfl⟩)
      · rename_i hl
        cases h
        exact Or.inl ⟨rfl,rfl,Or.inr (Or.inl (by simpa using hl))⟩
    · rename_i ht
      split at h
      · rename_i hl
        cases h
        exact Or.inl ⟨rfl,rfl,Or.inr (Or.inl hl)⟩
      · split at h
        · rename_i hs
          cases h
          exact Or.inl ⟨rfl,rfl,Or.inr (Or.inr hs)⟩
        · rename_i s hs
          dsimp only at h
          split at h
          · rename_i he
            cases h
            exact Or.inr (Or.inr (Or.inl
              ⟨s,hs,not_not.mp ht,List.isEmpty_iff.mp he,rfl,rfl⟩))
          · rename_i he
            cases h
            exact Or.inr (Or.inr (Or.inr
              ⟨s,hs,not_not.mp ht,fun hn => he (List.isEmpty_iff.mpr hn),rfl,rfl⟩))

theorem Impl.openPayload_log {id : Nat} {r : ConnectionRecord} {hdr : Header} {payload : Bytes}
    {out : Option Bytes} (h : st.openPayload env id r hdr payload = (st',out)) :
    ∃ new, st'.log = new ++ st.log ∧
      ∀ e ∈ new, e.isReport = true ∨ e = .accepted id hdr.packetId := by
  have hdec : ∀ s, ∃ new, (st.decryptFor env id s hdr payload).1.log = new ++ st.log ∧
      ∀ e ∈ new, e.isReport = true ∨ e = .accepted id hdr.packetId := by
    intro s
    rcases st.decryptFor_cases env id s hdr payload with ⟨_,_,hd⟩ | ⟨_,hd⟩
    · exact ⟨[.accepted id hdr.packetId],by rw [hd]; rfl,by simp⟩
    · exact ⟨[],by rw [hd]; rfl,by simp⟩
  rcases openPayload_cases h with
    ⟨rfl,_⟩ | ⟨rfl,_⟩ | ⟨s,_,_,_,_,rfl⟩ | ⟨s,_,_,_,_,rfl⟩
  · exact ⟨[],rfl,by simp⟩
  · exact ⟨[.drop id .trustedFromRemote],rfl,by simp [Effect.isReport]⟩
  · obtain ⟨new,hl,hn⟩ := hdec s
    refine ⟨.drop id .decryptFail :: new,congrArg _ hl,?_⟩
    intro e he
    rcases List.mem_cons.mp he with rfl | he
    · exact Or.inl rfl
    · exact hn e he
  · exact hdec s

theorem Impl.openPayload_agrees {id : Nat} {r : ConnectionRecord} {hdr : Header}
    {payload : Bytes} {out : Option Bytes} (h : st.openPayload env id r hdr payload = (st',out))
    (hf : ∀ (r : ConnectionRecord) s, f (r.withSession s) = f r) : Impl.Agrees f st st' := by
  have hdec : ∀ s, Impl.Agrees f st (st.decryptFor env id s hdr payload).1 := by
    intro s j
    rw [decryptFor_find]
    exact Agrees.modify id (fun r => hf r _) j
  rcases openPayload_cases h with
    ⟨rfl,_⟩ | ⟨rfl,_⟩ | ⟨s,_,_,_,_,rfl⟩ | ⟨s,_,_,_,_,rfl⟩
  · exact Agrees.refl st'
  · exact Agrees.of_records rfl
  · exact (hdec s).trans (Agrees.of_records rfl)
  · exact hdec s

theorem Impl.rekeySession_cases (env : Env) (st : Impl) (id : Nat) :
    (st.rekeySession env id).1 = st ∨ ∃ r s, st.find id = some r ∧ r.session = some s ∧
      r.established = true ∧ (st.rekeySession env id).1 = (st.modify id (fun r =>
        { r with session := some (s.rekey env.sodium), sendPacketId := 1 })).emit (.rekeyed id) := by
  unfold rekeySession
  split
  · exact Or.inl rfl
  · rename_i r hr
    split
    · exact Or.inl rfl
    · rename_i s hs
      split
      · exact Or.inl rfl
      · rename_i he
        exact Or.inr ⟨r,s,hr,hs,by simpa using he,rfl⟩

theorem Impl.rekeySession_agrees (id : Nat) (hf : ∀ (r : ConnectionRecord) s n,
      f { r with session := s, sendPacketId := n } = f r) :
    Impl.Agrees f st (st.rekeySession env id).1 := by
  rcases st.rekeySession_cases env id with h | ⟨r,s,_,_,_,h⟩
  · rw [h]
    exact Agrees.refl st
  · rw [h]
    exact Agrees.modify id (fun r => hf r _ _)

theorem Impl.readNoise_agrees (id : Nat) (kind : NoiseFrame) (hs : Noise.HandshakeState)
    (msg : Bytes) (cap : Nat) (hf : ∀ (r : ConnectionRecord) hs, f (r.withHandshake hs) = f r) :
    Impl.Agrees f st (st.readNoise env id kind hs msg cap).1 := Agrees.modify id (fun r => hf r _)

theorem Impl.writeNoise_agrees (id : Nat) (hs : Noise.HandshakeState) (payload : Bytes)
    (hf : ∀ (r : ConnectionRecord) hs, f (r.withHandshake hs) = f r) :
    Impl.Agrees f st (st.writeNoise env id hs payload).1 := Agrees.modify id (fun r => hf r _)

/-- A Noise call goes from one handshake state to another, never from or to none. -/
theorem Impl.readNoise_agrees_at {id : Nat} {kind : NoiseFrame} {hs hs' : Noise.HandshakeState}
    {msg : Bytes} {cap : Nat} {r : ConnectionRecord} (hr : st.find id = some r)
    (hh : r.handshake = some hs') (hf : f (r.withHandshake (hs.readMessage env.sodium msg).state) =
      f { r with handshake := some hs' }) :
    Impl.Agrees f st (st.readNoise env id kind hs msg cap).1 := by
  have hsame : ({ r with handshake := some hs' } : ConnectionRecord) = r := by rw [← hh]
  rw [hsame] at hf
  exact Agrees.modify_at hr hf

theorem Impl.writeNoise_agrees_at {id : Nat} {hs hs' : Noise.HandshakeState} {payload : Bytes}
    {r : ConnectionRecord} (hr : st.find id = some r) (hh : r.handshake = some hs')
    (hf : f (r.withHandshake (hs.writeMessage env.sodium (env.random st.asked) payload).state) =
      f { r with handshake := some hs' }) :
    Impl.Agrees f st (st.writeNoise env id hs payload).1 := by
  have hsame : ({ r with handshake := some hs' } : ConnectionRecord) = r := by rw [← hh]
  rw [hsame] at hf
  exact Agrees.modify_at hr hf

end

end GoodNet
