import GoodNet.ManagerMotions
import GoodNet.RelayedWindow
import GoodNet.Delivery
import GoodNet.Lib.Interleaving
set_option autoImplicit false

/-! The endpoint a handler gets with a packet. `dispatch_packet` and `get_peer_endpoint` copy the
endpoint the connector gave to `on_connect` and fill in the id; the key of the handshake is kept
in other fields of the record. -/

namespace GoodNet
open Codec Noise Interleaving

def Impl.getPeerEndpoint (st : Impl) (id : Nat) : Option Endpoint :=
  (st.find id).map (fun r => { r.remote with peerId := id })

/-- The manager, with a note of the endpoint each connection was announced with. -/
structure EndpointRun where
  st : Impl
  announced : Table Nat Endpoint := ∅

def EndpointRun.act (env : Env) (s : EndpointRun) (e : Event) : EndpointRun where
  st := e.step env s.st
  announced :=
    match e with
    | .connected ep =>
      if s.st.shuttingDown then s.announced else s.announced.insert s.st.nextId ep
    | _ => s.announced

/-- What a record keeps from its connect on. -/
def ConnectionRecord.origin (r : ConnectionRecord) : Nat × Endpoint := (r.id,r.remote)

/-- A delivery is made for an established connection that `known` has the origin of, and its
endpoint is the one of the record, with the id. -/
def Effect.ComesFrom (known : Nat → Nat × Endpoint → Prop) : Effect → Prop
  | .deliver owner _ _ remote _ _ =>
    owner.established = true ∧ owner.peerAuthenticated = true ∧
      remote = { owner.remote with peerId := owner.id } ∧ known owner.id owner.origin
  | _ => True

def Impl.HasOrigin (st : Impl) (id : Nat) (origin : Nat × Endpoint) : Prop :=
  ∃ r, st.find id = some r ∧ r.origin = origin

/-- Later in a call that brings in no connection. -/
structure Descends (S : Sodium) (base st : Impl) : Prop where
  sound : st.SoundRecords S
  records : Impl.Keeps ConnectionRecord.origin base st
  log : ∃ new, st.log = new ++ base.log ∧ ∀ e ∈ new, e.ComesFrom base.HasOrigin

section
variable {env : Env} {base st st' : Impl}

theorem Impl.authenticate_origin (st : Impl) (hp : HandshakePayload) (schemes : List String)
    (r : ConnectionRecord) : (st.authenticate hp schemes r).origin = r.origin := by
  unfold authenticate
  dsimp only
  split
  · rfl
  · rfl

theorem Effect.comesFrom_other {known : Nat → Nat × Endpoint → Prop} {e : Effect}
    (h : e.isDelivery = false) : e.ComesFrom known := by
  cases e <;> first | exact True.intro | cases h

theorem Effect.isDelivery_plainReport {e : Effect} (h : e.isReport = true) :
    e.isDelivery = false := by
  cases e <;> first | rfl | cases h

theorem Effect.isDelivery_outward {e : Effect} (h : e.Outward) : e.isDelivery = false := by
  cases e <;> first | rfl | (rcases h with h | h <;> cases h)

theorem Descends.refl {S : Sodium} (h : st.SoundRecords S) : Descends S st st :=
  ⟨h,fun _ r hr => ⟨r,hr,rfl⟩,[],rfl,by simp⟩

theorem Descends.extend {S : Sodium} (h : Descends S base st) (hs : st'.SoundRecords S)
    (hk : Impl.Keeps ConnectionRecord.origin st st')
    (hl : ∃ new, st'.log = new ++ st.log ∧ ∀ e ∈ new, e.ComesFrom base.HasOrigin) :
    Descends S base st' := by
  obtain ⟨new,hl,hn⟩ := hl
  obtain ⟨old,ho,hold⟩ := h.log
  refine ⟨hs,fun id r' hr' => ?_,new ++ old,by rw [hl,ho,List.append_assoc],fun e he => ?_⟩
  · obtain ⟨r,hr,hf⟩ := hk id r' hr'
    obtain ⟨r₀,hr₀,hf₀⟩ := h.records id r hr
    exact ⟨r₀,hr₀,hf.trans hf₀⟩
  · rcases List.mem_append.1 he with he | he
    · exact hn e he
    · exact hold e he

/-- Steps that deliver nothing. -/
theorem Descends.keep {S : Sodium} (h : Descends S base st) (hs : st'.SoundRecords S)
    (hk : Impl.Keeps ConnectionRecord.origin st st')
    (hl : ∃ new, st'.log = new ++ st.log ∧ ∀ e ∈ new, e.isDelivery = false) :
    Descends S base st' := by
  obtain ⟨new,hl,hn⟩ := hl
  exact h.extend hs hk ⟨new,hl,fun e he => Effect.comesFrom_other (hn e he)⟩

theorem Micro.descends (h : Micro env st st') (hid : ∀ id r, base.find id = some r → r.id = id)
    (hn : st'.nextId = st.nextId) (hd : Descends env.sodium base st) :
    Descends env.sodium base st' := by
  have hs := h.sound hd.sound
  cases h with
  | silent h =>
    obtain ⟨new,hl,hnew⟩ := h.log
    exact hd.keep hs (h.agrees (fun r => rfl)).keeps
      ⟨new,hl,fun e he => Effect.isDelivery_plainReport (hnew e he)⟩
  | @frame id msgType payload h =>
    have hq := st.sendFrame_outward env id msgType payload
    obtain ⟨new,hl,hnew⟩ := hq.log
    exact hd.keep hs (hq.agrees (fun r => rfl)).keeps
      ⟨new,hl,fun e he => Effect.isDelivery_outward (hnew e he)⟩
  | direct msgType h =>
    exact hd.keep hs (Impl.Keeps.of_records rfl) ⟨[_],rfl,by simp [Effect.isDelivery]⟩
  | connect ep =>
    have hnext := (st.openConnection_same env ep).1
    omega
  | @attach peer r ep scheme h he =>
    have hnext : (st.attachTransport peer ep scheme).nextId = st.nextId+1 := rfl
    omega
  | disconnect id =>
    obtain ⟨new,hl,hnew⟩ := st.handleDisconnect_log id
    refine hd.keep hs (st.handleDisconnect_keeps id (fun r => rfl))
      ⟨new ++ [.disconnecting id st.toRegistry],by rw [hl,List.append_assoc]; rfl,fun e he => ?_⟩
    rcases List.mem_append.mp he with he | he
    · exact Effect.isDelivery_plainReport (hnew e he)
    · rw [List.mem_singleton.mp he]
      rfl
  | duplicate h =>
    exact hd.keep hs (st.removeDuplicate_keeps _ _) ⟨[_],rfl,by simp [Effect.isDelivery]⟩
  | read msg h =>
    exact hd.keep hs (Impl.readNoise_agrees _ _ _ _ _ (fun r hs => rfl)).keeps
      ⟨[_],rfl,by simp [Effect.isDelivery]⟩
  | write payload h hl hok hk =>
    exact hd.keep hs (Impl.writeNoise_agrees _ _ _ (fun r hs => rfl)).keeps
      ⟨[_],rfl,by simp [Effect.isDelivery]⟩
  | @authenticate id hs' hp schemes h hrs =>
    exact hd.keep hs (Impl.Agrees.modify id (st.authenticate_origin hp schemes)).keeps
      ⟨[],rfl,by simp⟩
  | commit h hh ha hdup hf =>
    exact hd.keep hs (Impl.commitSession_agrees (fun r => rfl)).keeps
      ⟨[_],rfl,by simp [Effect.isDelivery]⟩
  | rekey id =>
    have hk : Impl.Keeps ConnectionRecord.origin st (st.rekeySession env id).1 :=
      (Impl.rekeySession_agrees id (fun _ _ _ => rfl)).keeps
    rcases st.rekeySession_cases env id with h | ⟨r,s,_,_,_,h⟩
    · rw [h]
      exact hd
    · rw [h] at hs hk ⊢
      exact hd.keep hs hk ⟨[_],rfl,by simp [Effect.isDelivery]⟩
  | refuse h he ho =>
    obtain ⟨new,hl,hnew⟩ := Impl.openPayload_log ho
    refine hd.keep hs (Impl.openPayload_agrees ho (fun _ _ => rfl)).keeps ⟨new,hl,fun e he => ?_⟩
    rcases hnew e he with he | rfl
    · exact Effect.isDelivery_plainReport he
    · rfl
  | @receive mid id r hdr payload plain sink h he ho =>
    obtain ⟨new,hl,hnew⟩ := Impl.openPayload_log ho
    obtain ⟨r₀,hr₀,horigin⟩ := hd.records id r h
    have hidr : r.id = id := (congrArg Prod.fst horigin).trans (hid id r₀ hr₀)
    refine hd.extend hs (Impl.openPayload_agrees ho (fun _ _ => rfl)).keeps
      ⟨.deliver r sink hdr { r.remote with peerId := id } payload plain ::
        .stat .rxPacket 1 id :: .stat .rxBytes payload.length id :: new,?_,fun e he' => ?_⟩
    · simp only [List.cons_append]
      rw [← hl]
      rfl
    · rcases List.mem_cons.1 he' with rfl | he'
      · refine ⟨he,((hd.sound.record id r h).settled he).1,by rw [hidr],?_⟩
        rw [hidr]
        exact ⟨r₀,hr₀,horigin.symm⟩
      · rcases List.mem_cons.1 he' with rfl | he'
        · trivial
        · rcases List.mem_cons.1 he' with rfl | he'
          · trivial
          · rcases hnew e he' with hrep | rfl
            · exact Effect.comesFrom_other (Effect.isDelivery_plainReport hrep)
            · trivial

theorem Tick.nextId_le (h : Tick env st st') : st.nextId ≤ st'.nextId := by
  cases h with
  | micro h => exact h.nextId_le
  | buffer id bytes => exact Nat.le_refl _

theorem Ticks.nextId_le (h : Ticks env st st') : st.nextId ≤ st'.nextId := by
  induction h with
  | refl => exact Nat.le_refl _
  | tail _ h ih => exact Nat.le_trans ih h.nextId_le

/-- A run of small steps that hands out no id brings in no connection. -/
theorem Ticks.descends (h : Ticks env base st') (hs : base.SoundRecords env.sodium)
    (hid : ∀ id r, base.find id = some r → r.id = id) (hn : st'.nextId = base.nextId) :
    Descends env.sodium base st' := by
  induction h with
  | refl => exact Descends.refl hs
  | @tail mid last h htick ih =>
    have hfirst := Ticks.nextId_le h
    have hlast := htick.nextId_le
    have hd := ih (by omega)
    cases htick with
    | micro h => exact h.descends hid (by omega) hd
    | buffer id bytes =>
      exact hd.keep (hd.sound.buffer id bytes) (mid.setRecvBuf_agrees id bytes (fun _ _ => rfl)).keeps
        ⟨[],rfl,by simp⟩

/-- The note of the announced endpoints agrees with the records and with what was delivered. -/
structure EndpointRun.Noted (env : Env) (s : EndpointRun) : Prop where
  sound : s.st.SoundRecords env.sodium
  ids : ∀ id r, s.st.find id = some r → r.id = id
  records : ∀ id r, s.st.find id = some r → s.announced.lookup id = some r.remote
  fresh : ∀ id ep, s.announced.lookup id = some ep → id < s.st.nextId
  log : ∀ e ∈ s.st.log, e.ComesFrom (fun id origin => s.announced.lookup id = some origin.2)

theorem EndpointRun.Noted.descend {announced : Table Nat Endpoint}
    (h : EndpointRun.Noted env ⟨base,announced⟩) (ht : Ticks env base st')
    (hn : st'.nextId = base.nextId) : EndpointRun.Noted env ⟨st',announced⟩ := by
  have hd := ht.descends h.sound h.ids hn
  refine ⟨hd.sound,fun id r hr => ?_,fun id r hr => ?_,fun id ep hep => ?_,fun e he => ?_⟩
  · obtain ⟨r₀,hr₀,horigin⟩ := hd.records id r hr
    exact (congrArg Prod.fst horigin).trans (h.ids id r₀ hr₀)
  · obtain ⟨r₀,hr₀,horigin⟩ := hd.records id r hr
    have hremote : r.remote = r₀.remote := congrArg Prod.snd horigin
    rw [hremote]
    exact h.records id r₀ hr₀
  · have hlt := h.fresh id ep hep
    simp only [hn]
    exact hlt
  · obtain ⟨new,hl,hnew⟩ := hd.log
    simp only [hl] at he
    rcases List.mem_append.1 he with he | he
    · cases e with
      | deliver owner sink hdr remote wire plain =>
        obtain ⟨hest,hauth,hremote,r₀,hr₀,horigin⟩ := hnew _ he
        refine ⟨hest,hauth,hremote,?_⟩
        rw [← horigin]
        exact h.records owner.id r₀ hr₀
      | _ => trivial
    · exact h.log e he

/-- The connection a connect brings in is noted with its endpoint. -/
theorem EndpointRun.Noted.open {announced : Table Nat Endpoint}
    (h : EndpointRun.Noted env ⟨st,announced⟩) (ep : Endpoint) :
    EndpointRun.Noted env ⟨st.openConnection env ep,announced.insert st.nextId ep⟩ := by
  have hnext := (st.openConnection_same env ep).1
  have hold : ∀ id ep', announced.lookup id = some ep' →
      (announced.insert st.nextId ep).lookup id = some ep' := by
    intro id ep' hep
    have hlt : id < st.nextId := h.fresh id ep' hep
    rw [AList.lookup_insert_ne (Nat.ne_of_lt hlt)]
    exact hep
  have hnew : ∀ id r, (st.openConnection env ep).find id = some r →
      st.find id = some r ∨ id = st.nextId ∧ r.origin = (st.nextId,ep) := by
    intro id r hr
    rcases Impl.openConnection_find hr with ⟨_,hr⟩ | ⟨rfl,_,rfl⟩ | ⟨rfl,_,rfl⟩
    · exact .inl hr
    · exact .inr ⟨rfl,rfl⟩
    · exact .inr ⟨rfl,rfl⟩
  refine ⟨(Micro.connect ep).sound h.sound,fun id r hr => ?_,fun id r hr => ?_,
    fun id ep' hep => ?_,fun e he => ?_⟩
  · rcases hnew id r hr with hr | ⟨rfl,horigin⟩
    · exact h.ids id r hr
    · exact congrArg Prod.fst horigin
  · rcases hnew id r hr with hr | ⟨rfl,horigin⟩
    · exact hold id _ (h.records id r hr)
    · have hremote : r.remote = ep := congrArg Prod.snd horigin
      rw [hremote]
      exact AList.lookup_insert announced
  · dsimp only at hep ⊢
    rw [hnext]
    by_cases hid : id = st.nextId
    · omega
    · rw [AList.lookup_insert_ne hid] at hep
      have hlt : id < st.nextId := h.fresh id ep' hep
      omega
  · dsimp only at he
    rw [Impl.openConnection_log] at he
    have hquiet : ∀ e', e' ∈ st.log → e'.ComesFrom (fun id origin =>
        (announced.insert st.nextId ep).lookup id = some origin.2) := by
      intro e' he'
      have hfrom := h.log e' he'
      cases e' with
      | deliver owner sink hdr remote wire plain =>
        obtain ⟨hest,hauth,hremote,hnoted⟩ := hfrom
        exact ⟨hest,hauth,hremote,hold _ _ hnoted⟩
      | _ => trivial
    rcases List.mem_append.1 he with he | he
    · split at he
      · rw [List.mem_singleton.1 he]
        trivial
      · cases he
    · rcases List.mem_cons.1 he with rfl | he
      · trivial
      · rcases List.mem_cons.1 he with rfl | he
        · trivial
        · exact hquiet e he

/-- A further transport of an established peer is announced with another endpoint, and the record
keeps its own. -/
theorem EndpointRun.Noted.attach {announced : Table Nat Endpoint}
    (h : EndpointRun.Noted env ⟨st,announced⟩) {peer : Nat} {r : ConnectionRecord} (ep : Endpoint)
    (scheme : String) (hr : st.find peer = some r) (he : r.established = true) :
    EndpointRun.Noted env ⟨st.attachTransport peer ep scheme,announced⟩ := by
  have hk : Impl.Keeps ConnectionRecord.origin st (st.attachTransport peer ep scheme) :=
    (Impl.attachTransport_agrees peer ep scheme (fun _ _ => rfl)).keeps
  refine ⟨(Micro.attach ep scheme hr he).sound h.sound,fun id r' hr' => ?_,fun id r' hr' => ?_,
    fun id ep' hep => ?_,fun e hmem => ?_⟩
  · obtain ⟨r₀,hr₀,horigin⟩ := hk id r' hr'
    exact (congrArg Prod.fst horigin).trans (h.ids id r₀ hr₀)
  · obtain ⟨r₀,hr₀,horigin⟩ := hk id r' hr'
    have hremote : r'.remote = r₀.remote := congrArg Prod.snd horigin
    rw [hremote]
    exact h.records id r₀ hr₀
  · exact Nat.lt_succ_of_lt (h.fresh id ep' hep)
  · have hlog : (st.attachTransport peer ep scheme).log =
        .transportChange peer scheme true :: .registered ep.key peer :: st.log := rfl
    rw [hlog] at hmem
    rcases List.mem_cons.1 hmem with rfl | hmem
    · trivial
    · rcases List.mem_cons.1 hmem with rfl | hmem
      · trivial
      · exact h.log e hmem

/-- `handle_connect` is the connect and then steps that hand out no id. -/
theorem Impl.handleConnect_ticks (st : Impl) (ep : Endpoint) (h : st.shuttingDown = false) :
    Ticks env (st.openConnection env ep) (st.handleConnect env ep).1 := by
  unfold handleConnect
  rw [if_neg (by simp [h])]
  dsimp only
  cases ho : ep.outbound with
  | false =>
    rw [openConnection_inbound ho]
    exact Relation.ReflTransGen.refl
  | true =>
    rw [openConnection_outbound ho,if_pos rfl]
    have hfound : ((st.insertRecord env ep).find st.nextId).bind ConnectionRecord.handshake =
        some (st.freshHandshake env ep) := by
      rw [insertRecord_find]
      rfl
    unfold sendNoiseInit
    rw [hfound]
    dsimp only
    have hclose : ∀ a : Impl, Ticks env a (a.closeNow env st.nextId) := fun a =>
      Relation.ReflTransGen.mono (fun _ _ => Tick.micro) _ _ (a.closeNow_steps st.nextId)
    split
    · exact hclose _
    · exact Relation.ReflTransGen.single (.micro (.frame _ (.inl rfl)))

theorem EndpointRun.Noted.act {s : EndpointRun} (h : s.Noted env) (e : Event) :
    (s.act env e).Noted env := by
  obtain ⟨st,announced⟩ := s
  have hfixed : (e.step env st).nextId = (e.opening env st).nextId :=
    ((Event.step_motions h.sound e).invariant (I := fun _ => True) trivial
      (fun _ _ _ _ _ => trivial)).2.nextId
  have hsame : (e.opening env st).nextId = st.nextId →
      EndpointRun.Noted env ⟨e.step env st,announced⟩ := fun hn =>
    h.descend (Event.step_ticks st e) (hfixed.trans hn)
  cases e with
  | connected ep =>
    unfold EndpointRun.act
    dsimp only
    split
    · rename_i hdown
      refine hsame ?_
      change (if st.shuttingDown then st else st.insertRecord env ep).nextId = st.nextId
      rw [if_pos hdown]
    · rename_i hdown
      have hup : st.shuttingDown = false := by simpa using hdown
      refine (h.open ep).descend (st.handleConnect_ticks ep hup) ?_
      rw [(st.openConnection_same env ep).1]
      refine hfixed.trans ?_
      change (if st.shuttingDown then st else st.insertRecord env ep).nextId = st.nextId+1
      rw [if_neg hdown]
      rfl
  | addTransport pk ep scheme =>
    change EndpointRun.Noted env ⟨(st.handleAddTransport pk ep scheme).1,announced⟩
    rcases st.handleAddTransport_cases pk ep scheme with heq | ⟨peer,r,hr,he,heq⟩
    · rw [heq]
      exact h
    · rw [heq]
      exact h.attach ep scheme hr he
  | _ => exact hsame rfl

end

/-- What `on_ice_signal` looks its session up with. -/
def hex32 (pk : Key) : String := bytesToHex pk.bytes

/-- `ep` is told apart by the id of the connection and by the user key its handshake verified. -/
structure ConnectionRecord.NamedBy (r : ConnectionRecord) (ep : Endpoint) : Prop where
  id : ep.peerId = r.id
  key : ep.pubkey = r.peerUserPubkey

theorem ConnectionRecord.namedBy_iff {r : ConnectionRecord} {ep : Endpoint}
    (h : ep.peerId = r.id) : r.NamedBy ep ↔ ep.pubkey = r.peerUserPubkey :=
  ⟨fun hn => hn.key,fun hk => ⟨h,hk⟩⟩

theorem hex32_eq_pkHex {pk : Key} {r : ConnectionRecord} :
    hex32 pk = r.pkHex ↔ pk = r.peerUserPubkey := by
  constructor
  · intro h
    exact Block.ext (bytesToHex_inj h)
  · intro h
    rw [h]
    rfl

/-- An accepted payload leaves the user key it is signed with in the record. -/
theorem Impl.processHandshakePayload_key {env : Env} {st : Impl} {id : Nat} {data : Bytes}
    (h : (st.processHandshakePayload env id data).2 = true) :
    ∃ r hp, hp = HandshakePayload.decode data ∧
      env.sodium.verifyDetached hp.signature (hp.userPubkey.bytes ++ hp.devicePubkey.bytes)
        hp.userPubkey = true ∧
      (st.processHandshakePayload env id data).1.find id = some r ∧
      r.peerAuthenticated = true ∧ r.peerUserPubkey = hp.userPubkey := by
  obtain ⟨r,hr,hverify,hst⟩ := processHandshakePayload_accepted h
  refine ⟨st.authenticate (HandshakePayload.decode data) (getSchemes data) r,_,rfl,hverify,?_,
    (st.authenticate_keeps _ _ r).2.1,?_⟩
  · rw [hst,find_modify_self,hr]
    rfl
  · unfold authenticate
    dsimp only
    split
    · rfl
    · rfl

/-- The key of the endpoint is the one the connector announced, on both paths and to a query. -/
theorem endpoint_key_announced (env : Env) (identity : NodeIdentity) (events : List Event) :
    let s := run (EndpointRun.act env) ⟨Impl.start identity,∅⟩ events
    (∀ owner sink hdr remote wire plain,
      Effect.deliver owner sink hdr remote wire plain ∈ s.st.log →
      owner.established = true ∧ owner.peerAuthenticated = true ∧ remote.peerId = owner.id ∧
      ∃ ep, s.announced.lookup owner.id = some ep ∧
        (owner.NamedBy remote ↔ ep.pubkey = owner.peerUserPubkey) ∧
        (hex32 remote.pubkey = owner.pkHex ↔ ep.pubkey = owner.peerUserPubkey)) ∧
    (∀ id r, s.st.find id = some r → r.established = true →
      r.peerAuthenticated = true ∧ ∃ remote ep, s.st.getPeerEndpoint id = some remote ∧
        remote.peerId = id ∧ s.announced.lookup id = some ep ∧
        (r.NamedBy remote ↔ ep.pubkey = r.peerUserPubkey) ∧
        (hex32 remote.pubkey = r.pkHex ↔ ep.pubkey = r.peerUserPubkey)) ∧
    ∀ (st : Impl) id data, (st.processHandshakePayload env id data).2 = true →
      ∃ r hp, hp = HandshakePayload.decode data ∧
        env.sodium.verifyDetached hp.signature (hp.userPubkey.bytes ++ hp.devicePubkey.bytes)
          hp.userPubkey = true ∧
        (st.processHandshakePayload env id data).1.find id = some r ∧
        r.peerAuthenticated = true ∧ r.peerUserPubkey = hp.userPubkey := by
  intro s
  have hstart : EndpointRun.Noted env ⟨Impl.start identity,∅⟩ := by
    refine ⟨start_sound env identity,?_,?_,?_,?_⟩
    · exact fun id r hr => by simp [Impl.start,Impl.find] at hr
    · exact fun id r hr => by simp [Impl.start,Impl.find] at hr
    · exact fun id ep hep => by simp at hep
    · exact fun e he => by simp [Impl.start] at he
  have hrun : s.Noted env := run_invariant (I := EndpointRun.Noted env)
    (fun s e hi => hi.act e) hstart events
  refine ⟨fun owner sink hdr remote wire plain hmem => ?_,fun id r hr he => ?_,
    fun st id data h => Impl.processHandshakePayload_key h⟩
  · obtain ⟨hest,hauth,hremote,hnoted⟩ := hrun.log _ hmem
    have hid : remote.peerId = owner.id := by rw [hremote]
    have hkey : remote.pubkey = owner.remote.pubkey := by rw [hremote]
    refine ⟨hest,hauth,hid,owner.remote,hnoted,?_,?_⟩
    · rw [ConnectionRecord.namedBy_iff hid,hkey]
    · rw [hex32_eq_pkHex,hkey]
  · have hsettled := ((hrun.sound.record id r hr).settled he).1
    have hremote : s.st.getPeerEndpoint id = some { r.remote with peerId := id } := by
      unfold Impl.getPeerEndpoint
      rw [hr]
      rfl
    refine ⟨hsettled,_,r.remote,hremote,rfl,hrun.records id r hr,?_,hex32_eq_pkHex⟩
    exact ConnectionRecord.namedBy_iff (hrun.ids id r hr).symm

/-- A connector that knows whom it is connected to. -/
def bobExpectsAlice : List Event := (eventsOf bobHears).map (fun e =>
  match e with
  | .connected ep => .connected { ep with pubkey := NodeIdentity.alice.userPubkey }
  | e => e)

set_option maxRecDepth 10000 in
theorem endpoint_key_announced_chat :
    ∃ owner sink hdr remote wire plain, Effect.deliver owner sink hdr remote wire plain ∈
        (run (EndpointRun.act (Env.sample false)) ⟨Impl.start NodeIdentity.bob,∅⟩
          bobExpectsAlice).st.log ∧
      owner.established = true ∧ owner.NamedBy remote := by
  have hheard : (run (EndpointRun.act (Env.sample false)) ⟨Impl.start NodeIdentity.bob,∅⟩
      bobExpectsAlice).st.log.any (fun e =>
        match e with
        | .deliver owner _ _ _ _ _ => decide (((run (EndpointRun.act (Env.sample false))
            ⟨Impl.start NodeIdentity.bob,∅⟩ bobExpectsAlice).announced.lookup owner.id).map
              Endpoint.pubkey = some owner.peerUserPubkey)
        | _ => false) = true := by decide +kernel
  obtain ⟨e,hmem,hp⟩ := List.any_eq_true.1 hheard
  split at hp
  · rename_i owner sink hdr remote wire plain
    obtain ⟨hest,-,-,ep,hnoted,hnamed,-⟩ := (endpoint_key_announced (Env.sample false)
      NodeIdentity.bob bobExpectsAlice).1 owner sink hdr remote wire plain hmem
    rw [hnoted] at hp
    exact ⟨owner,sink,hdr,remote,wire,plain,hmem,hest,hnamed.2 (by simpa using hp)⟩
  · cases hp

set_option maxRecDepth 10000 in
/-- The TCP connector announces no key, and the handler of the chat is told the zero key. -/
theorem chat_without_key :
    ¬ (∀ (env : Env) identity (events : List Event) owner sink hdr remote wire plain,
      Effect.deliver owner sink hdr remote wire plain ∈
        (run (EndpointRun.act env) ⟨Impl.start identity,∅⟩ events).st.log →
      owner.NamedBy remote) ∧
    ¬ (∀ (env : Env) identity (events : List Event) id r remote,
      (run (EndpointRun.act env) ⟨Impl.start identity,∅⟩ events).st.find id = some r →
      r.established = true →
      (run (EndpointRun.act env) ⟨Impl.start identity,∅⟩ events).st.getPeerEndpoint id =
        some remote → r.NamedBy remote) := by
  obtain ⟨hheard,hasked⟩ :
      (run (EndpointRun.act (Env.sample false)) ⟨Impl.start NodeIdentity.bob,∅⟩
        (eventsOf bobHears)).st.log.any (fun e =>
          match e with
          | .deliver owner _ _ remote _ _ =>
            decide (remote.pubkey = Block.zero 32) &&
              decide (owner.peerUserPubkey = NodeIdentity.alice.userPubkey) &&
              decide (NodeIdentity.alice.userPubkey ≠ Block.zero 32)
          | _ => false) = true ∧
      ((run (EndpointRun.act (Env.sample false)) ⟨Impl.start NodeIdentity.bob,∅⟩
        (eventsOf bobHears)).st.find 1).any (fun r => r.established &&
          decide (r.remote.pubkey ≠ r.peerUserPubkey)) = true := by decide +kernel
  refine ⟨fun h => ?_,fun h => ?_⟩
  · obtain ⟨e,hmem,hp⟩ := List.any_eq_true.1 hheard
    split at hp
    · rename_i owner sink hdr remote wire plain
      simp only [Bool.and_eq_true,decide_eq_true_eq] at hp
      obtain ⟨⟨hzero,hkey⟩,hne⟩ := hp
      have hnamed := (h _ _ _ _ _ _ _ _ _ hmem).key
      exact hne (hkey.symm.trans (hnamed.symm.trans hzero))
    · cases hp
  · obtain ⟨r,hr,hp⟩ := (Option.any_eq_true _ _).1 hasked
    simp only [Bool.and_eq_true,decide_eq_true_eq] at hp
    have hremote := congrArg (Option.map (fun r => { r.remote with peerId := 1 })) hr
    exact hp.2 (h _ _ _ 1 r _ hr hp.1 hremote).key

end GoodNet
