import GoodNet.ManagerMotions
import GoodNet.Lib.Interleaving
set_option autoImplicit false

/-! Which connector a connection comes from, and which connectors are called for it.
`handle_connect` is not told who calls it and writes `tcp`; `process_handshake_payload` writes
the negotiated scheme over it. -/

namespace GoodNet
open Codec Noise Interleaving

/-- The manager, with a note of the connector that created each connection. -/
structure OriginRun where
  st : Impl
  creator : Table Nat String := ∅

/-- A call, and the connector that makes it. -/
structure ConnectorCall where
  caller : String
  event : Event

def OriginRun.act (env : Env) (s : OriginRun) (c : ConnectorCall) : OriginRun where
  st := c.event.step env s.st
  creator :=
    match c.event with
    | .connected _ => if s.st.shuttingDown then s.creator else s.creator.insert s.st.nextId c.caller
    | _ => s.creator

/-- The schemes of the peer that a frame would have negotiated with, when it carries a payload
that is taken over. -/
def Impl.offered (env : Env) (st : Impl) (id : Nat) (hdr : Header) (payload : Bytes) :
    Option (List String) :=
  let heard := fun hs : HandshakeState =>
    let d := hs.readMessage env.sodium payload
    if d.authentic env.sodium then some (getSchemes d.payloadOut) else none
  if hdr.type = msgTypeNoiseResp then (st.handshakeAs id true).bind heard
  else if hdr.type = msgTypeNoiseFin then (st.handshakeAs id false).bind heard
  else none

/-- Connections come from the TCP connector, and negotiation chooses TCP. -/
def ConnectorCall.overTcp (env : Env) (s : OriginRun) (c : ConnectorCall) : Bool :=
  match c.event with
  | .connected _ => s.st.shuttingDown || c.caller == "tcp"
  | .dispatch id hdr payload =>
    (s.st.find id).all (fun r => (s.st.offered env id hdr payload).all (fun schemes =>
      connectorName (s.st.negotiateScheme { r with peerSchemes := schemes }) == "tcp"))
  | _ => true

/-- The first path bears the id of the record and the scheme of its creator. -/
def OriginRun.Primary (s : OriginRun) : Prop :=
  ∀ id r, s.st.find id = some r → ∃ p rest, r.transportPaths = p :: rest ∧
    p.transportConnId = id ∧ s.creator.lookup id = some p.scheme

/-- The connector a call goes to, and the id it is about. -/
def Effect.called : Effect → Option (Nat × String)
  | .sendTo _ via scheme _ _ => some (via,scheme)
  | .sendGather _ via scheme _ _ => some (via,scheme)
  | .close scheme via => some (via,scheme)
  | .closeNow scheme via => some (via,scheme)
  | _ => none

/-- A connector that is called for a connection is the one that created it. -/
def Effect.Directed (creator : Table Nat String) (e : Effect) : Prop :=
  ∀ via scheme, e.called = some (via,scheme) →
    ∀ c, creator.lookup via = some c → connectorName scheme = c

/-- An id in use, and the scheme its creator goes by. -/
def Aimed (creator : Table Nat String) (next via : Nat) (scheme : String) : Prop :=
  via < next ∧ ∀ c, creator.lookup via = some c → connectorName scheme = c

/-- Schemes and paths of a record. -/
def ConnectionRecord.wires (r : ConnectionRecord) : (String × String) × List (Nat × String) :=
  r.spine.2

/-- Schemes and paths of a record that TCP created: the paths behind the first one are
nobody's first. -/
structure TcpWired (creator : Table Nat String) (next id : Nat)
    (w : (String × String) × List (Nat × String)) : Prop where
  locally : w.1.1 = ""
  negotiated : connectorName w.1.2 = "tcp"
  paths : ∃ rest, w.2 = (id,"tcp") :: rest ∧ ∀ t ∈ rest, creator.lookup t.1 = none ∧ t.1 < next
  created : creator.lookup id = some "tcp"
  bounded : id < next

structure Impl.OverTcp (creator : Table Nat String) (st : Impl) : Prop where
  records : ∀ id r, st.find id = some r → TcpWired creator st.nextId id r.wires
  transports : ∀ tid peer, st.transportIndex.lookup tid = some peer →
    creator.lookup tid = none ∧ tid < st.nextId
  log : ∀ e ∈ st.log, ∀ via scheme, e.called = some (via,scheme) →
    Aimed creator st.nextId via scheme
  fresh : ∀ id c, creator.lookup id = some c → id < st.nextId

section
variable {creator : Table Nat String} {env : Env} {st st' : Impl}

theorem TcpWired.place {next id via : Nat} {scheme : String}
    {w : (String × String) × List (Nat × String)} (h : TcpWired creator next id w)
    (hp : (via,scheme) ∈ w.2) : Aimed creator next via scheme := by
  obtain ⟨rest,hw,hrest⟩ := h.paths
  rw [hw] at hp
  rcases List.mem_cons.1 hp with heq | hp
  · cases heq
    refine ⟨h.bounded,fun c hc => ?_⟩
    rw [h.created,Option.some.injEq] at hc
    rw [← hc]
    rfl
  · obtain ⟨hnone,hlt⟩ := hrest _ hp
    refine ⟨hlt,fun c hc => ?_⟩
    rw [hnone] at hc
    cases hc

theorem TcpWired.fallback {next id : Nat} {r : ConnectionRecord}
    (h : TcpWired creator next id r.wires) : Aimed creator next id r.fallbackScheme := by
  have hname : connectorName r.fallbackScheme = "tcp" := by
    have hlocal : r.localScheme = "" := h.locally
    unfold ConnectionRecord.fallbackScheme
    split
    · rw [hlocal]
      rfl
    · exact h.negotiated
  refine ⟨h.bounded,fun c hc => ?_⟩
  rw [h.created,Option.some.injEq] at hc
  rw [hname,hc]

theorem Impl.OverTcp.told (h : st.OverTcp creator) {id via : Nat} {scheme : String}
    (ht : st.Told id via scheme) : Aimed creator st.nextId via scheme := by
  obtain ⟨r,hr,hp | ⟨rfl,rfl⟩⟩ := ht
  · exact (h.records id r hr).place hp
  · exact (h.records _ r hr).fallback

/-- Steps that keep the wiring of all records that stay. -/
theorem Impl.OverTcp.keep {new : List Effect} (h : st.OverTcp creator)
    (hk : Impl.Keeps ConnectionRecord.wires st st') (hn : st'.nextId = st.nextId)
    (ht : ∀ tid peer, st'.transportIndex.lookup tid = some peer →
      ∃ peer', st.transportIndex.lookup tid = some peer')
    (hlog : st'.log = new ++ st.log)
    (hnew : ∀ e ∈ new, ∀ via scheme, e.called = some (via,scheme) →
      Aimed creator st.nextId via scheme) : st'.OverTcp creator := by
  refine ⟨fun id r' hr' => ?_,fun tid peer htid => ?_,?_,hn ▸ h.fresh⟩
  · obtain ⟨r,hr,hspine⟩ := hk id r' hr'
    rw [hspine,hn]
    exact h.records id r hr
  · obtain ⟨peer',hp⟩ := ht tid peer htid
    rw [hn]
    exact h.transports tid peer' hp
  · rw [hn,hlog]
    exact List.forall_mem_append.2 ⟨hnew,h.log⟩

theorem Impl.OverTcp.emit (h : st.OverTcp creator) {e : Effect}
    (he : ∀ via scheme, e.called = some (via,scheme) → Aimed creator st.nextId via scheme) :
    (st.emit e).OverTcp creator := by
  have hlog : (st.emit e).log = [e] ++ st.log := rfl
  refine h.keep (Keeps.of_records rfl) rfl (fun tid peer ht => ⟨peer,ht⟩) hlog (fun e' he' => ?_)
  rw [List.mem_singleton.1 he']
  exact he

theorem Effect.isPlain_called {e : Effect} (h : e.isPlain = true) : e.called = none := by
  cases e <;> first | rfl | cases h

theorem Impl.OverTcp.mild (h : st.OverTcp creator) (hm : Mild st st') : st'.OverTcp creator := by
  obtain ⟨new,hlog,hplain⟩ := hm.log
  have hk : Impl.Keeps ConnectionRecord.wires st st' := by
    intro id r' hr'
    obtain ⟨r,hr,hspine⟩ := hm.spine.keeps id r' hr'
    exact ⟨r,hr,congrArg Prod.snd hspine⟩
  refine h.keep hk hm.nextId (fun tid peer ht => ⟨peer,hm.transport ▸ ht⟩) hlog
    (fun e he via scheme hc => ?_)
  rw [Effect.isPlain_called (hplain e he)] at hc
  cases hc

theorem ConnectionRecord.Reaches.told {id via : Nat} {scheme : String} {r r' : ConnectionRecord}
    (h : r'.Reaches st id via scheme) (hr : st.find id = some r) (hu : r'.unsent = r.unsent) :
    st.Told id via scheme := by
  have hspine := ConnectionRecord.spine_of_unsent hu
  rcases h with ⟨p,hp,-,rfl,rfl⟩ | ⟨-,-,rfl,rfl⟩
  · refine ⟨r,hr,.inl ?_⟩
    have hplaces : r'.transportPaths.map TransportPath.place =
        r.transportPaths.map TransportPath.place := congrArg (fun w => w.2.2) hspine
    rw [← hplaces]
    exact List.mem_map_of_mem hp
  · refine ⟨r,hr,.inr ⟨rfl,?_⟩⟩
    exact ConnectionRecord.unsent_field ConnectionRecord.fallbackScheme (fun _ => rfl) hu

theorem Impl.OverTcp.frame (h : st.OverTcp creator) (id : Nat) (msgType : UInt32)
    (payload : Bytes) : (st.sendFrame env id msgType payload).OverTcp creator := by
  have hfoot := st.sendFrame_footprint env id msgType payload
  have hagrees : Impl.Agrees ConnectionRecord.spine st (st.sendFrame env id msgType payload) :=
    (Talk.frame st id msgType payload).agrees
  obtain ⟨new,hlog,hpath⟩ := hfoot.log
  have hk : Impl.Keeps ConnectionRecord.wires st (st.sendFrame env id msgType payload) := by
    intro j r' hr'
    obtain ⟨r,hr,hspine⟩ := hagrees.keeps j r' hr'
    exact ⟨r,hr,congrArg Prod.snd hspine⟩
  refine h.keep hk hfoot.nextId (fun tid peer ht => ⟨peer,hfoot.transport ▸ ht⟩) hlog
    (fun e he via scheme hc => ?_)
  obtain ⟨htraffic,hwire⟩ := hpath e he
  cases e with
  | sendTo o v s' f ok =>
    obtain ⟨r,hr,r',hu,-,hreach⟩ := hwire rfl
    cases hc
    exact h.told (hreach.told hr hu)
  | sendGather o v s' fs ok =>
    obtain ⟨r,hr,r',hu,-,hreach⟩ := hwire rfl
    cases hc
    exact h.told (hreach.told hr hu)
  | close => cases htraffic
  | closeNow => cases htraffic
  | _ => cases hc

theorem Impl.handleDisconnect_uncalled (st : Impl) (via : Nat) :
    ∃ new, (st.handleDisconnect via).log = new ++ st.log ∧ ∀ e ∈ new, e.called = none := by
  unfold handleDisconnect
  dsimp only
  split
  · unfold dropTransport
    dsimp only
    split
    · exact ⟨[_],rfl,by simp [Effect.called]⟩
    · split
      · exact ⟨[_],rfl,by simp [Effect.called]⟩
      · split
        · exact ⟨[_],rfl,by simp [Effect.called]⟩
        · exact ⟨[_,_],rfl,by simp [Effect.called]⟩
  · unfold dropPeer
    split
    · exact ⟨[_],rfl,by simp [Effect.called]⟩
    · exact ⟨[_,_,_],rfl,by simp [Effect.called]⟩

/-- A transport that goes leaves the index; no entry comes. -/
theorem Impl.handleDisconnect_transports {via tid peer : Nat}
    (h : (st.handleDisconnect via).transportIndex.lookup tid = some peer) :
    ∃ peer', st.transportIndex.lookup tid = some peer' := by
  have herase : ∀ index : Table Nat Nat, (index.erase via).lookup tid = some peer →
      ∃ peer', index.lookup tid = some peer' := by
    intro index hl
    by_cases ht : tid = via
    · rw [ht,AList.lookup_erase] at hl
      cases hl
    · rw [AList.lookup_erase_ne ht] at hl
      exact ⟨peer,hl⟩
  unfold handleDisconnect at h
  dsimp only at h
  split at h
  · rename_i p _
    have hdrop : ((st.emit (.disconnecting via st.toRegistry)).dropTransport via p).transportIndex =
        st.transportIndex.erase via := by
      unfold dropTransport
      dsimp only
      split
      · rfl
      · split
        · rfl
        · split
          · rfl
          · rfl
    rw [hdrop] at h
    exact herase _ h
  · unfold dropPeer at h
    split at h
    · exact ⟨peer,h⟩
    · rename_i r _
      have hindex : (eraseTransports st.transportIndex via r.transportPaths).lookup tid =
        some peer := h
      rw [eraseTransports_lookup] at hindex
      split at hindex
      · cases hindex
      · exact ⟨peer,hindex⟩

theorem TcpWired.dropPath {next id via : Nat} {r : ConnectionRecord}
    (h : TcpWired creator next id r.wires) (hvia : creator.lookup via = none) :
    TcpWired creator next id (r.dropPath via).wires := by
  obtain ⟨rest,hw,hrest⟩ := h.paths
  have hne : id ≠ via := by
    intro heq
    rw [← heq,h.created] at hvia
    cases hvia
  have hplaces : (r.dropPath via).wires.2 = r.wires.2.filter (fun t => t.1 != via) := by
    unfold ConnectionRecord.dropPath ConnectionRecord.wires ConnectionRecord.spine
    dsimp only
    rw [List.filter_map]
    rfl
  refine ⟨h.locally,h.negotiated,⟨rest.filter (fun t => t.1 != via),?_,?_⟩,h.created,h.bounded⟩
  · rw [hplaces,hw,List.filter_cons_of_pos (by simpa using hne)]
  · exact fun t ht => hrest t (List.mem_of_mem_filter ht)

/-- Further transports go one by one, and a record goes with its first. -/
theorem Impl.OverTcp.handleDisconnect (h : st.OverTcp creator) (via : Nat) :
    (st.handleDisconnect via).OverTcp creator := by
  obtain ⟨new,hlog,hnew⟩ := st.handleDisconnect_uncalled via
  have hn := st.handleDisconnect_nextId via
  refine ⟨fun id r' hr' => ?_,fun tid peer ht => ?_,?_,hn ▸ h.fresh⟩
  · rw [hn]
    rcases st.handleDisconnect_cases via with ⟨peer,ht,-⟩ | ⟨-,-,heq⟩ | ⟨-,r,-,heq⟩
    · obtain ⟨r,hr,rfl | rfl⟩ := handleDisconnect_find hr'
      · exact h.records id r' hr
      · exact (h.records id r hr).dropPath (h.transports via peer ht).1
    · rw [heq] at hr'
      exact h.records id r' hr'
    · rw [heq] at hr'
      exact h.records id r' (find_erase_some rfl hr').2
  · obtain ⟨peer',hp⟩ := handleDisconnect_transports ht
    rw [hn]
    exact h.transports tid peer' hp
  · rw [hn,hlog]
    refine List.forall_mem_append.2 ⟨fun e he v scheme hc => ?_,h.log⟩
    rw [hnew e he] at hc
    cases hc

theorem Impl.negotiateScheme_congr {r r' : ConnectionRecord} (h : st.Fixed st')
    (hp : r'.peerSchemes = r.peerSchemes) : st'.negotiateScheme r' = st.negotiateScheme r := by
  unfold negotiateScheme localSchemes
  rw [h.connectors,h.schemePriority,hp]

/-- Negotiation writes its result over the scheme of the first path. -/
theorem Impl.authenticate_wires {hp : HandshakePayload} {schemes : List String}
    {r : ConnectionRecord} {next id : Nat} (h : TcpWired creator next id r.wires)
    (hneg : connectorName (st.negotiateScheme { r with peerSchemes := schemes }) = "tcp") :
    TcpWired creator next id (st.authenticate hp schemes r).wires := by
  obtain ⟨rest,hw,hrest⟩ := h.paths
  have hsame : st.negotiateScheme { r with
      peerUserPubkey := hp.userPubkey, peerDevicePubkey := hp.devicePubkey,
      peerAuthenticated := true, peerSchemes := schemes, peerCoreMeta := hp.coreMeta } =
      st.negotiateScheme { r with peerSchemes := schemes } := rfl
  have hplaces : r.transportPaths.map TransportPath.place = (id,"tcp") :: rest := hw
  unfold authenticate
  dsimp only
  rw [hsame]
  generalize st.negotiateScheme { r with peerSchemes := schemes } = scheme at hneg ⊢
  have hshown : (if scheme = "" then "tcp" else scheme) = "tcp" := hneg
  split
  · rename_i hnil
    rw [hnil] at hplaces
    cases hplaces
  · rename_i tp tail hcons
    rw [hcons,List.map_cons,List.cons.injEq] at hplaces
    obtain ⟨hhead,htail⟩ := hplaces
    refine ⟨h.locally,hneg,⟨rest,?_,hrest⟩,h.created,h.bounded⟩
    have hid : tp.transportConnId = id := congrArg Prod.fst hhead
    unfold ConnectionRecord.wires ConnectionRecord.spine
    dsimp only
    rw [List.map_cons,htail,hshown,← hid]
    rfl

/-- A motion in which negotiation, if it comes to that, chooses TCP. -/
theorem Motion.overTcp {heard : Nat → NoiseFrame → Read → Prop} (h : Motion env heard st st')
    (hst : st.OverTcp creator)
    (hneg : ∀ id kind d r, heard id kind d → kind ≠ .init → d.authentic env.sodium = true →
      st.find id = some r →
      connectorName (st.negotiateScheme { r with peerSchemes := getSchemes d.payloadOut }) = "tcp") :
    st'.OverTcp creator := by
  have hwire : ∀ (a : Impl) id (f : ConnectionRecord → ConnectionRecord), a.OverTcp creator →
      (∀ r, (f r).wires = r.wires) → (a.modify id f).OverTcp creator := fun a id f ha hf =>
    ha.keep (Impl.Agrees.modify id hf).keeps rfl (fun tid peer ht => ⟨peer,ht⟩)
      (List.nil_append _).symm (by simp)
  have hnoise : ∀ (a : Impl) id hs e, a.OverTcp creator → e.called = none →
      ((a.modify id (ConnectionRecord.withHandshake hs)).emit e).OverTcp creator := by
    intro a id hs e ha hcalled
    refine (hwire a id (ConnectionRecord.withHandshake hs) ha (fun r => rfl)).emit
      (fun via scheme hc => ?_)
    rw [hcalled] at hc
    cases hc
  have hask : st.ask.OverTcp creator := hst.mild (Mild.ask st)
  cases h with
  | talk h =>
    cases h with
    | mild h => exact hst.mild h
    | frame id msgType payload => exact hst.frame id msgType payload
  | disconnect id => exact hst.handleDisconnect id
  | @hangUp _ id h =>
    have hcall : ∀ (a : Impl) e via scheme, e.called = some (via,scheme) →
        st.Told id via scheme → a.OverTcp creator ∧ st.Fixed a →
        (a.emit e).OverTcp creator ∧ st.Fixed (a.emit e) := by
      intro a e via scheme hc ht ha
      refine ⟨ha.1.emit (fun v s hcalled => ?_),ha.2.trans ⟨rfl,rfl,rfl,rfl⟩⟩
      rw [hc] at hcalled
      cases hcalled
      rw [ha.2.nextId]
      exact hst.told ht
    have hboth : st'.OverTcp creator ∧ st.Fixed st' :=
      Impl.hangUp_rule (fun a b hab ha => ⟨ha.1.mild hab,ha.2.trans hab.fixed⟩)
        (fun a via ha => ⟨ha.1.handleDisconnect via,ha.2.trans (a.handleDisconnect_fixed via)⟩) h
        (fun a via scheme ht ha => hcall a (.close scheme via) via scheme rfl ht ha)
        (fun a via scheme ht ha => hcall a (.closeNow scheme via) via scheme rfl ht ha)
        ⟨hst,rfl,rfl,rfl,rfl⟩
    exact hboth.1
  | duplicate id r =>
    have hlog : (st.removeDuplicate id r).log = [.duplicate id r st.toRegistry] ++ st.log := rfl
    exact hst.keep (Impl.Keeps.erase id rfl) rfl (fun tid peer ht => ⟨peer,ht⟩) hlog
      (by simp [Effect.called])
  | read kind msg cap h => exact hnoise st _ _ _ hst rfl
  | greet h h0 => exact hnoise st.ask _ _ _ hask rfl
  | answer h hd hok => exact hnoise st.ask _ _ _ hask rfl
  | @authenticate id kind d h hd hk ha =>
    refine ⟨fun j r' hr' => ?_,hst.transports,hst.log,hst.fresh⟩
    obtain ⟨r,hr,⟨rfl,rfl⟩ | ⟨-,rfl⟩⟩ := Impl.find_modify_some hr'
    · exact Impl.authenticate_wires (hst.records j r hr) (hneg j kind d r hd hk ha hr)
    · exact hst.records j r' hr
  | @commit id r hs h hh =>
    have hk : Impl.Keeps ConnectionRecord.wires st (st.commitSession env id r hs) :=
      (Impl.commitSession_agrees (fun r => rfl)).keeps
    have hlog : (st.commitSession env id r hs).log = [.established id r hs] ++ st.log := rfl
    exact hst.keep hk rfl (fun tid peer ht => ⟨peer,ht⟩) hlog (by simp [Effect.called])

section
variable {creator' : Table Nat String} {next next' : Nat} (hn : next ≤ next')
  (hold : ∀ j < next, creator'.lookup j = creator.lookup j)
include hn hold

theorem Aimed.grow {via : Nat} {scheme : String} (h : Aimed creator next via scheme) :
    Aimed creator' next' via scheme := by
  refine ⟨Nat.lt_of_lt_of_le h.1 hn,fun c hc => h.2 c ?_⟩
  rw [← hold via h.1]
  exact hc

theorem TcpWired.grow {id : Nat} {w : (String × String) × List (Nat × String)}
    (h : TcpWired creator next id w) : TcpWired creator' next' id w := by
  obtain ⟨rest,hw,hrest⟩ := h.paths
  refine ⟨h.locally,h.negotiated,⟨rest,hw,fun t ht => ?_⟩,?_,Nat.lt_of_lt_of_le h.bounded hn⟩
  · obtain ⟨hnone,hlt⟩ := hrest t ht
    exact ⟨(hold t.1 hlt).trans hnone,Nat.lt_of_lt_of_le hlt hn⟩
  · exact (hold id h.bounded).trans h.created

end

theorem Impl.OverTcp.insertRecord (h : st.OverTcp creator) (ep : Endpoint) :
    (st.insertRecord env ep).OverTcp (creator.insert st.nextId "tcp") := by
  have hnext : (st.insertRecord env ep).nextId = st.nextId+1 := rfl
  have hn : st.nextId ≤ st.nextId+1 := Nat.le_succ _
  have hold : ∀ j < st.nextId, (creator.insert st.nextId "tcp").lookup j = creator.lookup j :=
    fun j hj => AList.lookup_insert_ne (Nat.ne_of_lt hj)
  refine ⟨fun id r hr => ?_,fun tid peer ht => ?_,?_,fun id c hc => ?_⟩
  · rw [hnext]
    by_cases hid : id = st.nextId
    · subst hid
      rw [insertRecord_find,Option.some.injEq] at hr
      subst hr
      exact ⟨rfl,rfl,⟨[],rfl,by simp⟩,AList.lookup_insert creator,Nat.lt_succ_self _⟩
    · rw [insertRecord_find_ne hid] at hr
      exact (h.records id r hr).grow hn hold
  · obtain ⟨hnone,hlt⟩ := h.transports tid peer ht
    exact ⟨(hold tid hlt).trans hnone,Nat.lt_succ_of_lt hlt⟩
  · have hlog : (st.insertRecord env ep).log =
        [.stat .connect 1 st.nextId,.registered ep.key st.nextId] ++ st.log := rfl
    rw [hlog]
    refine List.forall_mem_append.2 ⟨by simp [Effect.called],fun e he via scheme hc => ?_⟩
    exact (h.log e he via scheme hc).grow hn hold
  · rw [hnext]
    by_cases hid : id = st.nextId
    · omega
    · rw [AList.lookup_insert_ne hid] at hc
      exact Nat.lt_succ_of_lt (h.fresh id c hc)

theorem Impl.OverTcp.attachTransport (h : st.OverTcp creator) (peer : Nat) (ep : Endpoint)
    (scheme : String) : (st.attachTransport peer ep scheme).OverTcp creator := by
  have hnext : (st.attachTransport peer ep scheme).nextId = st.nextId+1 := rfl
  have hn : st.nextId ≤ st.nextId+1 := Nat.le_succ _
  have hold : ∀ j < st.nextId, creator.lookup j = creator.lookup j := fun j _ => rfl
  have hnew : creator.lookup st.nextId = none := by
    cases hc : creator.lookup st.nextId with
    | none => rfl
    | some c => exact absurd (h.fresh st.nextId c hc) (Nat.lt_irrefl _)
  refine ⟨fun id r' hr' => ?_,fun tid p ht => ?_,?_,fun id c hc => ?_⟩
  · rw [hnext]
    obtain ⟨r,hr,⟨-,rfl⟩ | ⟨-,rfl⟩⟩ := attachTransport_find hr'
    · have hw := (h.records id r hr).grow hn hold
      obtain ⟨rest,hpaths,hrest⟩ := hw.paths
      refine ⟨hw.locally,hw.negotiated,⟨rest ++ [(st.nextId,scheme)],?_,?_⟩,hw.created,hw.bounded⟩
      · have hplaces : r.transportPaths.map TransportPath.place = (id,"tcp") :: rest := hpaths
        unfold ConnectionRecord.wires ConnectionRecord.spine
        dsimp only
        rw [List.map_append,hplaces]
        rfl
      · intro t ht
        rcases List.mem_append.1 ht with ht | ht
        · exact hrest t ht
        · rw [List.mem_singleton.1 ht]
          exact ⟨hnew,Nat.lt_succ_self _⟩
    · exact (h.records id r' hr).grow hn hold
  · rw [hnext]
    have hindex : (st.transportIndex.insert st.nextId peer).lookup tid = some p := ht
    by_cases hid : tid = st.nextId
    · rw [hid]
      exact ⟨hnew,Nat.lt_succ_self _⟩
    · rw [AList.lookup_insert_ne hid] at hindex
      obtain ⟨hnone,hlt⟩ := h.transports tid p hindex
      exact ⟨hnone,Nat.lt_succ_of_lt hlt⟩
  · have hlog : (st.attachTransport peer ep scheme).log =
        [.transportChange peer scheme true,.registered ep.key peer] ++ st.log := rfl
    rw [hlog]
    refine List.forall_mem_append.2 ⟨by simp [Effect.called],fun e he via s hc => ?_⟩
    exact (h.log e he via s hc).grow hn hold
  · exact Nat.lt_succ_of_lt (h.fresh id c hc)

theorem Impl.Hears.offered {id : Nat} {kind : NoiseFrame} {hdr : Header} {payload : Bytes}
    {d : Read} (h : st.Hears env id kind payload d) (ht : hdr.type = kind.msgType)
    (hk : kind ≠ .init) (ha : d.authentic env.sodium = true) :
    st.offered env id hdr payload = some (getSchemes d.payloadOut) := by
  obtain ⟨hs,hh,rfl⟩ := h
  unfold Impl.offered
  cases kind with
  | init => exact absurd rfl hk
  | resp =>
    have hrole : st.handshakeAs id true = some hs := hh
    rw [ht]
    simp [NoiseFrame.msgType,hrole,ha]
  | fin =>
    have hrole : st.handshakeAs id false = some hs := hh
    have hne : ¬ NoiseFrame.msgType .fin = msgTypeNoiseResp := by decide
    rw [ht,if_neg hne]
    simp [NoiseFrame.msgType,hrole,ha]

/-- What a call promises about negotiation holds until it is over. -/
theorem ConnectorCall.negotiates {s : OriginRun} {c : ConnectorCall} (h : c.overTcp env s = true)
    (hfixed : (c.event.opening env s.st).Fixed st) {id : Nat} {kind : NoiseFrame} {d : Read}
    {r : ConnectionRecord} (hd : c.event.Hears env s.st id kind d) (hk : kind ≠ .init)
    (ha : d.authentic env.sodium = true) :
    connectorName (st.negotiateScheme { r with peerSchemes := getSchemes d.payloadOut }) =
      "tcp" := by
  obtain ⟨caller,e⟩ := c
  cases e with
  | dispatch via hdr payload =>
    obtain ⟨rfl,htype,hhears⟩ := hd
    obtain ⟨r₀,hr₀,-⟩ := Impl.handshakeAs_some hhears.choose_spec.1
    unfold ConnectorCall.overTcp at h
    dsimp only at h
    rw [hr₀,hhears.offered htype hk ha] at h
    have hsame : st.negotiateScheme { r with peerSchemes := getSchemes d.payloadOut } =
        s.st.negotiateScheme { r₀ with peerSchemes := getSchemes d.payloadOut } :=
      Impl.negotiateScheme_congr hfixed rfl
    rw [hsame]
    simpa using h
  | _ => exact hd.elim

theorem OriginRun.act_overTcp {s : OriginRun} {c : ConnectorCall}
    (hs : s.st.SoundRecords env.sodium) (h : s.st.OverTcp s.creator)
    (hc : c.overTcp env s = true) : (s.act env c).st.OverTcp (s.act env c).creator := by
  have hopen : (c.event.opening env s.st).OverTcp (s.act env c).creator := by
    obtain ⟨caller,e⟩ := c
    cases e with
    | connected ep =>
      unfold Event.opening OriginRun.act
      dsimp only
      split
      · exact h
      · rename_i hdown
        have hcaller : caller = "tcp" := by simpa [ConnectorCall.overTcp,hdown] using hc
        rw [hcaller]
        exact h.insertRecord ep
    | addTransport pk ep scheme =>
      change (s.st.handleAddTransport pk ep scheme).1.OverTcp s.creator
      rcases s.st.handleAddTransport_cases pk ep scheme with heq | ⟨peer,r,-,-,heq⟩
      · rw [heq]
        exact h
      · rw [heq]
        exact h.attachTransport peer ep scheme
    | rotate next => exact ⟨h.records,h.transports,h.log,h.fresh⟩
    | registerConnector scheme ops => exact ⟨h.records,h.transports,h.log,h.fresh⟩
    | setSchemePriority priority => exact ⟨h.records,h.transports,h.log,h.fresh⟩
    | _ => exact h
  exact ((Event.step_motions hs c.event).invariant hopen (fun a b hfixed hm ha =>
    hm.overTcp ha (fun id kind d r hd hk hauth _ => ConnectorCall.negotiates hc hfixed hd hk hauth))).1

end

/-- Over TCP alone, in every state of a run, the first path of a record names the connector
that created the connection, and every call about a connection has gone to that connector. -/
theorem primary_path_names_creator (env : Env) (identity : NodeIdentity)
    (calls : List ConnectorCall)
    (h : Along (OriginRun.act env) (fun s c => c.overTcp env s = true) ⟨Impl.start identity,∅⟩
      calls) :
    let s := run (OriginRun.act env) ⟨Impl.start identity,∅⟩ calls
    s.Primary ∧ ∀ e ∈ s.st.log, e.Directed s.creator := by
  intro s
  have hstart : (Impl.start identity).SoundRecords env.sodium ∧
      (Impl.start identity).OverTcp ∅ := by
    refine ⟨start_sound env identity,⟨?_,?_,?_,?_⟩⟩
    · exact fun id r hr => by simp [Impl.start,Impl.find] at hr
    · exact fun tid peer ht => by simp [Impl.start] at ht
    · exact fun e he => by simp [Impl.start] at he
    · exact fun id c hc => by simp at hc
  have hrun : s.st.SoundRecords env.sodium ∧ s.st.OverTcp s.creator :=
    h.invariant (I := fun s => s.st.SoundRecords env.sodium ∧ s.st.OverTcp s.creator)
      (fun s c hi hc => ⟨Event.step_sound hi.1 c.event,OriginRun.act_overTcp hi.1 hi.2 hc⟩) hstart
  refine ⟨fun id r hr => ?_,fun e he via scheme hc => (hrun.2.log e he via scheme hc).2⟩
  have hw := hrun.2.records id r hr
  obtain ⟨rest,hpaths,-⟩ := hw.paths
  have hplaces : r.transportPaths.map TransportPath.place = (id,"tcp") :: rest := hpaths
  obtain ⟨p,tail,hcons,hp,-⟩ := List.map_eq_cons_iff.1 hplaces
  refine ⟨p,tail,hcons,congrArg Prod.fst hp,?_⟩
  have hscheme : p.scheme = "tcp" := congrArg Prod.snd hp
  rw [hscheme]
  exact hw.created

/-- The events among some calls, all made by the TCP connector. -/
def overTcp (calls : List Call) : List ConnectorCall :=
  (eventsOf calls).map (fun e => ⟨"tcp",e⟩)

set_option maxRecDepth 10000 in
theorem primary_path_names_creator_confirmed :
    ∃ r p rest, (run (OriginRun.act (Env.sample false)) ⟨Impl.start NodeIdentity.alice,∅⟩
        (overTcp aliceConfirms)).st.find 1 = some r ∧ r.transportPaths = p :: rest ∧
      p.transportConnId = 1 ∧ (run (OriginRun.act (Env.sample false))
        ⟨Impl.start NodeIdentity.alice,∅⟩ (overTcp aliceConfirms)).creator.lookup 1 =
          some p.scheme := by
  have hfound : ((run (OriginRun.act (Env.sample false)) ⟨Impl.start NodeIdentity.alice,∅⟩
      (overTcp aliceConfirms)).st.find 1).isSome = true := by decide +kernel
  obtain ⟨r,hr⟩ := Option.isSome_iff_exists.1 hfound
  obtain ⟨p,rest,hpaths,hid,hcreator⟩ := (primary_path_names_creator (Env.sample false)
    NodeIdentity.alice (overTcp aliceConfirms) (by decide +kernel)).1 1 r hr
  exact ⟨r,p,rest,hr,hpaths,hid,hcreator⟩

/-- ICE has no TCP connection to the peer and opens one of its own. -/
def iceDials : List ConnectorCall := overTcp [.tcp,.event (.registerConnector "ice" {})] ++
  [⟨"ice",.connected (Endpoint.sample "b" epFlagOutbound)⟩]

/-- Both nodes have both connectors and prefer ICE. -/
def iceFirst : List Call :=
  [.tcp,.event (.registerConnector "ice" {}),.event (.setSchemePriority ["ice","tcp"])]

def alicePrefersIce : List Call := iceFirst ++
  [.event (.connected (Endpoint.sample "b" epFlagOutbound))]

def bobPrefersIce : List Call := iceFirst ++
  [.event (.connected (Endpoint.sample "a" 0)),
    .frame 1 msgTypeNoiseInit 0
      ((Impl.start NodeIdentity.alice).run (Env.sample false) alicePrefersIce).lastSent]

def aliceNegotiates : List ConnectorCall := overTcp (alicePrefersIce ++
  [.frame 1 msgTypeNoiseResp 0
    ((Impl.start NodeIdentity.bob).run (Env.sample false) bobPrefersIce).lastSent])

/-- The paths of a connection as they are wired, and the connector that created it. -/
def OriginRun.wiring (s : OriginRun) (id : Nat) : Option (List (Nat × String)) × Option String :=
  ((s.st.find id).map (fun r => r.transportPaths.map TransportPath.place),s.creator.lookup id)

theorem OriginRun.not_primary {s : OriginRun} {id : Nat} {scheme caller : String}
    (h : s.wiring id = (some [(id,scheme)],some caller)) (hne : scheme ≠ caller) : ¬ s.Primary := by
  intro hprimary
  obtain ⟨hpaths,hcreator⟩ := Prod.mk.inj h
  obtain ⟨r,hr,hplaces⟩ := Option.map_eq_some_iff.1 hpaths
  obtain ⟨p,rest,hcons,-,hscheme⟩ := hprimary id r hr
  rw [hcons,List.map_cons,List.cons.injEq] at hplaces
  rw [hcreator,Option.some.injEq] at hscheme
  exact hne ((congrArg Prod.snd hplaces.1).symm.trans hscheme.symm)

set_option maxRecDepth 10000 in
/-- A connection that ICE creates is wired to TCP, and one that TCP creates is wired to ICE
once ICE has been negotiated. -/
theorem primary_path_redirected :
    ¬ (run (OriginRun.act (Env.sample false)) ⟨Impl.start NodeIdentity.alice,∅⟩
        iceDials).Primary ∧
      ¬ (run (OriginRun.act (Env.sample false)) ⟨Impl.start NodeIdentity.alice,∅⟩
        aliceNegotiates).Primary := by
  have hdialed : (run (OriginRun.act (Env.sample false)) ⟨Impl.start NodeIdentity.alice,∅⟩
      iceDials).wiring 1 = (some [(1,"tcp")],some "ice") := by decide +kernel
  have hnegotiated : (run (OriginRun.act (Env.sample false)) ⟨Impl.start NodeIdentity.alice,∅⟩
      aliceNegotiates).wiring 1 = (some [(1,"ice")],some "tcp") := by decide +kernel
  exact ⟨OriginRun.not_primary hdialed (by decide),OriginRun.not_primary hnegotiated (by decide)⟩

end GoodNet
