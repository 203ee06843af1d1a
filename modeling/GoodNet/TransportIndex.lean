import GoodNet.UriIndex
set_option autoImplicit false

/-! `transport_index_`: which record the id of a further transport belongs to. Connections and
transports draw their ids from one counter, and the index is left by whoever leaves a record; no
address has a part in this. -/

namespace GoodNet
open Codec History

/-- The ids of a record's paths, its own among them. -/
def ConnectionRecord.ports (r : ConnectionRecord) : List Nat :=
  r.transportPaths.map TransportPath.transportConnId

/-- `peer` has a path under the id `tid`. -/
def Impl.Carries (st : Impl) (peer tid : Nat) : Prop :=
  ∃ r, st.find peer = some r ∧ tid ∈ r.ports

structure ConnectionRecord.Ported (next id : Nat) (r : ConnectionRecord) : Prop where
  own : id ∈ r.ports
  nodup : r.ports.Nodup
  bounded : ∀ t ∈ r.ports, t < next
  alone : r.handshake.isSome = true → ∀ t ∈ r.ports, t = id

/-- The index lists the further paths and nothing else, and their ids are no connection's. -/
structure Impl.Ported (st : Impl) : Prop where
  index : ∀ tid peer, st.transportIndex.lookup tid = some peer ↔ st.Carries peer tid ∧ tid ≠ peer
  apart : ∀ tid peer, st.transportIndex.lookup tid = some peer → st.find tid = none
  records : ∀ id r, st.find id = some r → r.Ported st.nextId id

section
variable {env : Env} {st st' : Impl}

theorem ConnectionRecord.ports_routes (r : ConnectionRecord) : r.ports = r.routes.map Prod.fst := by
  simp [ports,routes]

theorem ConnectionRecord.ports_wiring {r r' : ConnectionRecord} (h : r'.wiring = r.wiring) :
    r'.ports = r.ports := by
  rw [ports_routes,ports_routes,(wiring_eq h).2]

theorem ConnectionRecord.ports_dropPath (r : ConnectionRecord) (id : Nat) :
    (r.dropPath id).ports = r.ports.filter (fun t => t != id) := by
  simp [ports,dropPath,List.filter_map,Function.comp_def]

theorem ConnectionRecord.Ported.keep {r r' : ConnectionRecord} {next next' id : Nat}
    (h : r.Ported next id) (hp : r'.ports = r.ports)
    (hs : r'.handshake.isSome = true → r.handshake.isSome = true) (hn : next ≤ next') :
    r'.Ported next' id := by
  refine ⟨?_,?_,fun t ht => ?_,fun hsome t ht => ?_⟩
  · rw [hp]
    exact h.own
  · rw [hp]
    exact h.nodup
  · rw [hp] at ht
    exact Nat.lt_of_lt_of_le (h.bounded t ht) hn
  · rw [hp] at ht
    exact h.alone (hs hsome) t ht

theorem Impl.Ported.apart_records (h : st.Ported) {id peer tid : Nat} {r : ConnectionRecord}
    (hr : st.find id = some r) (ht : tid ∈ r.ports) (hc : st.Carries peer tid) : peer = id := by
  by_cases htid : tid = id
  · by_cases hpeer : tid = peer
    · rw [← htid,hpeer]
    · have hnone := h.apart tid peer ((h.index tid peer).mpr ⟨hc,hpeer⟩)
      rw [htid,hr] at hnone
      cases hnone
  · have hid := (h.index tid id).mpr ⟨⟨r,hr,ht⟩,htid⟩
    by_cases hpeer : tid = peer
    · obtain ⟨r',hr',_⟩ := hc
      have hnone := h.apart tid id hid
      rw [hpeer,hr'] at hnone
      cases hnone
    · have hother := (h.index tid peer).mpr ⟨hc,hpeer⟩
      rw [hid] at hother
      exact (Option.some.inj hother).symm

/-- Steps that leave all paths and the index alone; a handshake may come to its end in them. -/
theorem Impl.Ported.keep (h : st.Ported) (ha : Impl.Agrees ConnectionRecord.wiring st st')
    (hp : ∀ id r', st'.find id = some r' → r'.handshake.isSome = true →
      ∃ r, st.find id = some r ∧ r.handshake.isSome = true)
    (ht : st'.transportIndex = st.transportIndex) (hn : st.nextId ≤ st'.nextId) : st'.Ported := by
  have hcarries : ∀ peer tid, st'.Carries peer tid ↔ st.Carries peer tid := by
    intro peer tid
    constructor
    · rintro ⟨r',hr',htid⟩
      obtain ⟨r,hr,hw⟩ := ha.keeps peer r' hr'
      exact ⟨r,hr,ConnectionRecord.ports_wiring hw ▸ htid⟩
    · rintro ⟨r,hr,htid⟩
      obtain ⟨r',hr',hw⟩ := ha.find_some hr
      exact ⟨r',hr',ConnectionRecord.ports_wiring hw ▸ htid⟩
  refine ⟨fun tid peer => ?_,fun tid peer hk => ?_,fun id r' hr' => ?_⟩
  · rw [ht,hcarries]
    exact h.index tid peer
  · rw [ht] at hk
    have hsame := ha tid
    rw [h.apart tid peer hk] at hsame
    simpa using hsame
  · obtain ⟨r,hr,hw⟩ := ha.keeps id r' hr'
    refine (h.records id r hr).keep (ConnectionRecord.ports_wiring hw) (fun hsome => ?_) hn
    obtain ⟨r₀,hr₀,hsome₀⟩ := hp id r' hr' hsome
    rw [hr] at hr₀
    cases hr₀
    exact hsome₀

theorem Impl.Ported.emit (h : st.Ported) (e : Effect) : (st.emit e).Ported :=
  h.keep (Agrees.of_records rfl) (Keeps.pending (Keeps.of_records rfl)) rfl (Nat.le_refl _)

theorem Impl.Ported.connect (h : st.Ported)
    (hfresh : ∀ id r, st.find id = some r → id < st.nextId) (ep : Endpoint) :
    (st.openConnection env ep).Ported := by
  obtain ⟨hnext,_,_,_,ht⟩ := st.openConnection_same env ep
  have hnew : ∀ r, (st.openConnection env ep).find st.nextId = some r →
      r.ports = [st.nextId] := by
    intro r hr
    rcases openConnection_find hr with ⟨hj,_⟩ | ⟨_,_,rfl⟩ | ⟨_,_,rfl⟩
    · exact absurd rfl hj
    · rfl
    · rfl
  have hold : ∀ id, id ≠ st.nextId → (st.openConnection env ep).find id = st.find id :=
    fun id hid => openConnection_find_ne hid
  have hcarries : ∀ peer tid, (st.openConnection env ep).Carries peer tid ∧ tid ≠ peer ↔
      st.Carries peer tid ∧ tid ≠ peer := by
    intro peer tid
    by_cases hpeer : peer = st.nextId
    · constructor
      · rintro ⟨⟨r,hr,htid⟩,hne⟩
        subst hpeer
        rw [hnew r hr,List.mem_singleton] at htid
        exact absurd htid hne
      · rintro ⟨⟨r,hr,_⟩,_⟩
        exact absurd hpeer (Nat.ne_of_lt (hfresh peer r hr))
    · simp only [Carries,hold peer hpeer]
  refine ⟨fun tid peer => ?_,fun tid peer hk => ?_,fun id r hr => ?_⟩
  · rw [ht,hcarries]
    exact h.index tid peer
  · rw [ht] at hk
    obtain ⟨⟨r,hr,htid⟩,_⟩ := (h.index tid peer).mp hk
    have hlt := (h.records peer r hr).bounded tid htid
    rw [hold tid (Nat.ne_of_lt hlt)]
    exact h.apart tid peer hk
  · by_cases hid : id = st.nextId
    · subst hid
      have hports := hnew r hr
      exact ⟨by simp [hports],by simp [hports],by simp [hports]; omega,by simp [hports]⟩
    · rw [hold id hid] at hr
      exact (h.records id r hr).keep rfl (fun hs => hs) (by omega)

theorem Impl.Ported.attach (h : st.Ported)
    (hfresh : ∀ id r, st.find id = some r → id < st.nextId) {peer : Nat} {r : ConnectionRecord}
    (hr : st.find peer = some r) (hdone : r.handshake.isSome = false) (ep : Endpoint)
    (scheme : String) : (st.attachTransport peer ep scheme).Ported := by
  obtain ⟨r₁,hr₁,_,hro,hha⟩ := attachTransport_self hr ep scheme
  have hports : r₁.ports = r.ports ++ [st.nextId] := by
    simp [ConnectionRecord.ports_routes,hro]
  have hother : ∀ j, j ≠ peer → (st.attachTransport peer ep scheme).find j = st.find j :=
    fun j hj => attachTransport_other ep scheme hj
  have ht : (st.attachTransport peer ep scheme).transportIndex =
      st.transportIndex.insert st.nextId peer := rfl
  have hpeer := hfresh peer r hr
  have hunused : ∀ owner, ¬ st.Carries owner st.nextId := by
    rintro owner ⟨r₀,hr₀,htid⟩
    exact Nat.lt_irrefl _ ((h.records owner r₀ hr₀).bounded _ htid)
  have hcarries : ∀ owner tid, (st.attachTransport peer ep scheme).Carries owner tid ↔
      st.Carries owner tid ∨ (owner = peer ∧ tid = st.nextId) := by
    intro owner tid
    by_cases ho : owner = peer
    · subst ho
      simp [Carries,hr₁,hr,hports]
    · simp [Carries,hother owner ho,ho]
  refine ⟨fun tid owner => ?_,fun tid owner hk => ?_,fun id r' hr' => ?_⟩
  · rw [ht,hcarries]
    by_cases htid : tid = st.nextId
    · subst htid
      rw [AList.lookup_insert,Option.some.injEq]
      constructor
      · rintro rfl
        exact ⟨Or.inr ⟨rfl,rfl⟩,Nat.ne_of_gt hpeer⟩
      · rintro ⟨hc | ⟨ho,_⟩,_⟩
        · exact absurd hc (hunused owner)
        · exact ho.symm
    · rw [AList.lookup_insert_ne htid,h.index]
      simp [htid]
  · rw [ht] at hk
    by_cases htid : tid = st.nextId
    · rw [htid,hother _ (Nat.ne_of_gt hpeer)]
      cases hf : st.find st.nextId with
      | none => rfl
      | some r₀ => exact absurd (hfresh _ r₀ hf) (Nat.lt_irrefl _)
    · rw [AList.lookup_insert_ne htid] at hk
      have hnone := h.apart tid owner hk
      by_cases htp : tid = peer
      · rw [htp,hr] at hnone
        cases hnone
      · rw [hother tid htp]
        exact hnone
  · by_cases hid : id = peer
    · subst hid
      cases hr'.symm.trans hr₁
      have hw := h.records id r hr
      refine ⟨?_,?_,fun t htr => ?_,fun hsome => ?_⟩
      · rw [hports]
        exact List.mem_append_left _ hw.own
      · rw [hports]
        refine List.nodup_append.mpr ⟨hw.nodup,by simp,fun a ha b hb => ?_⟩
        rw [List.mem_singleton.mp hb]
        exact Nat.ne_of_lt (hw.bounded a ha)
      · change t < st.nextId+1
        rw [hports] at htr
        rcases List.mem_append.mp htr with htr | htr
        · exact Nat.lt_succ_of_lt (hw.bounded t htr)
        · rw [List.mem_singleton.mp htr]
          exact Nat.lt_succ_self _
      · rw [hha,hdone] at hsome
        cases hsome
    · rw [hother id hid] at hr'
      exact (h.records id r' hr').keep rfl (fun hs => hs) (Nat.le_succ _)

/-- A further path leaves, and nothing else does. -/
theorem Impl.Ported.dropTransport (h : st.Ported) {id peer : Nat}
    (hlisted : st.transportIndex.lookup id = some peer) : (st.dropTransport id peer).Ported := by
  obtain ⟨⟨r,hr,hid⟩,hne⟩ := (h.index id peer).mp hlisted
  obtain ⟨p,hp⟩ : ∃ p, r.findPathByTransportId id = some p := by
    cases hp : r.findPathByTransportId id with
    | none =>
      rw [ConnectionRecord.ports_routes] at hid
      obtain ⟨t,ht,htid⟩ := List.mem_map.mp hid
      exact absurd htid (ConnectionRecord.findPath_none hp t ht)
    | some p => exact ⟨p,rfl⟩
  obtain ⟨hself,hother,_,ht⟩ := dropTransport_found hr hp
  have hports := r.ports_dropPath id
  have hcarries : ∀ owner tid, (st.dropTransport id peer).Carries owner tid ↔
      st.Carries owner tid ∧ tid ≠ id := by
    intro owner tid
    by_cases ho : owner = peer
    · subst ho
      simp [Carries,hself,hr,hports]
    · simp only [Carries,hother owner ho]
      refine ⟨fun hc => ⟨hc,fun htid => ho ?_⟩,fun hc => hc.1⟩
      exact h.apart_records hr hid (htid ▸ hc)
  refine ⟨fun tid owner => ?_,fun tid owner hk => ?_,fun j r' hr' => ?_⟩
  · rw [ht,hcarries]
    by_cases htid : tid = id
    · subst htid
      simp
    · rw [AList.lookup_erase_ne htid,h.index]
      simp [htid]
  · rw [ht] at hk
    have hnone := h.apart tid owner (lookup_erase_some hk).2
    by_cases htp : tid = peer
    · rw [htp,hr] at hnone
      cases hnone
    · rw [hother tid htp]
      exact hnone
  · rw [(st.dropTransport_same id peer).1]
    by_cases hj : j = peer
    · subst hj
      cases hr'.symm.trans hself
      have hw := h.records j r hr
      refine ⟨?_,?_,fun t htr => ?_,fun hs t htr => ?_⟩
      · simp [hports,hw.own,Ne.symm hne]
      · rw [hports]
        exact hw.nodup.filter _
      · rw [hports] at htr
        exact hw.bounded t (List.mem_filter.mp htr).1
      · rw [hports] at htr
        exact hw.alone hs t (List.mem_filter.mp htr).1
    · rw [hother j hj] at hr'
      exact h.records j r' hr'

/-- A record goes, and the index forgets what was listed for it. -/
theorem Impl.Ported.gone (h : st.Ported) (id : Nat)
    (hgone : st'.find id = none) (hother : ∀ j, j ≠ id → st'.find j = st.find j)
    (ht : ∀ tid peer, st'.transportIndex.lookup tid = some peer ↔
      st.transportIndex.lookup tid = some peer ∧ peer ≠ id)
    (hn : st.nextId ≤ st'.nextId) : st'.Ported := by
  have hcarries : ∀ peer tid, st'.Carries peer tid ↔ st.Carries peer tid ∧ peer ≠ id := by
    intro peer tid
    by_cases hpeer : peer = id
    · subst hpeer
      simp [Carries,hgone]
    · simp [Carries,hother peer hpeer,hpeer]
  refine ⟨fun tid peer => ?_,fun tid peer hk => ?_,fun j r' hr' => ?_⟩
  · rw [ht,hcarries,h.index]
    exact and_right_comm
  · have hnone := h.apart tid peer ((ht tid peer).mp hk).1
    by_cases htid : tid = id
    · rw [htid]
      exact hgone
    · rw [hother tid htid]
      exact hnone
  · have hj : j ≠ id := by
      rintro rfl
      rw [hgone] at hr'
      cases hr'
    rw [hother j hj] at hr'
    exact (h.records j r' hr').keep rfl (fun hs => hs) hn

theorem Impl.Ported.forget (h : st.Ported) {id : Nat} {r : ConnectionRecord}
    (hr : st.find id = some r) : (st.forgetPeer id r).Ported := by
  have hlookup : ∀ tid, (st.forgetPeer id r).transportIndex.lookup tid =
      if ∃ p ∈ r.transportPaths, p.transportConnId = tid ∧ tid ≠ id then none
      else st.transportIndex.lookup tid := eraseTransports_lookup _ _ _
  refine h.gone id (AList.lookup_erase _ _) (fun j hj => find_forgetPeer r hj)
    (fun tid peer => ?_) (Nat.le_refl _)
  rw [hlookup]
  split
  · rename_i hmine
    obtain ⟨p,hp,hpt,hne⟩ := hmine
    have hentry := (h.index tid id).mpr ⟨⟨r,hr,List.mem_map.mpr ⟨p,hp,hpt⟩⟩,hne⟩
    rw [hentry]
    simp [eq_comm]
  · rename_i hothers
    refine ⟨fun hk => ⟨hk,fun hpeer => hothers ?_⟩,fun hk => hk.1⟩
    subst hpeer
    obtain ⟨⟨r₀,hr₀,htid⟩,hne⟩ := (h.index tid peer).mp hk
    cases hr₀.symm.trans hr
    obtain ⟨p,hp,hpt⟩ := List.mem_map.mp htid
    exact ⟨p,hp,hpt,hne⟩

/-- A rejected duplicate has no further paths: it is in the middle of its handshake. -/
theorem Impl.Ported.removeDuplicate (h : st.Ported) {id : Nat} {r : ConnectionRecord}
    (hr : ∀ r', st.find id = some r' → r'.handshake.isSome = true) :
    (st.removeDuplicate id r).Ported := by
  refine h.gone id (AList.lookup_erase _ _) (fun j hj => AList.lookup_erase_ne hj)
    (fun tid peer => ⟨fun hk => ⟨hk,?_⟩,fun hk => hk.1⟩) (Nat.le_refl _)
  rintro rfl
  obtain ⟨⟨r',hr',htid⟩,hne⟩ := (h.index tid peer).mp hk
  exact hne ((h.records peer r' hr').alone (hr r' hr') tid htid)

theorem Impl.Ported.disconnect (h : st.Ported) (id : Nat) : (st.handleDisconnect id).Ported := by
  have hstart : (st.emit (.disconnecting id st.toRegistry)).Ported := h.emit _
  rcases st.handleDisconnect_cases id with ⟨peer,ht,hd⟩ | ⟨_,_,hd⟩ | ⟨_,r,hr,hd⟩
  · rw [hd]
    exact hstart.dropTransport ht
  · rw [hd]
    exact hstart
  · rw [hd]
    exact ((hstart.forget hr).emit _).emit _

theorem Impl.Ported.opened {id : Nat} {r : ConnectionRecord} {hdr : Header} {payload : Bytes}
    {out : Option Bytes} (h : st.Ported) (ho : st.openPayload env id r hdr payload = (st',out)) :
    st'.Ported := by
  obtain ⟨hn,_,_,_,ht⟩ := openPayload_same ho
  exact h.keep (openPayload_agrees ho (fun r s => rfl))
    (Keeps.pending (openPayload_agrees ho (fun r s => rfl)).keeps) ht hn.ge

theorem Micro.ported (h : Micro env st st') (hs : st.SoundRecords env.sodium) (hi : st.Ported) :
    st'.Ported := by
  have hn := h.nextId_le
  cases h with
  | silent h =>
    exact hi.keep (h.agrees ConnectionRecord.wiring_core)
      (Impl.Keeps.pending (h.agrees (fun r => rfl)).keeps) h.transport hn
  | @frame id msgType payload h =>
    have hq := st.sendFrame_outward env id msgType payload
    exact hi.keep (hq.agrees ConnectionRecord.wiring_core)
      (Impl.Keeps.pending (hq.agrees (fun r => rfl)).keeps) hq.transport hn
  | direct msgType h => exact hi.emit _
  | connect ep => exact hi.connect hs.fresh ep
  | @attach peer r ep scheme h he =>
    exact hi.attach hs.fresh h ((hs.record peer r h).settled he).2 ep scheme
  | disconnect id => exact hi.disconnect id
  | duplicate h => exact hi.removeDuplicate (fun r' hr' => (h r' hr').1)
  | read msg h =>
    obtain ⟨r,hr,hh,_⟩ := Impl.handshakeAs_some h
    exact hi.keep (Impl.readNoise_agrees _ _ _ _ _ (fun r hs => rfl))
      (Impl.Keeps.pending (Impl.readNoise_agrees_at hr hh rfl).keeps) rfl hn
  | write payload h hl hok hk =>
    obtain ⟨r,hr,hh⟩ := Option.bind_eq_some_iff.mp h
    exact hi.keep (Impl.writeNoise_agrees _ _ _ (fun r hs => rfl))
      (Impl.Keeps.pending (Impl.writeNoise_agrees_at hr hh rfl).keeps) rfl hn
  | @authenticate id hs₁ hp schemes h hrs =>
    have hsome : Impl.Agrees (fun r => r.handshake.isSome) st
        (st.modify id (st.authenticate hp schemes)) :=
      Impl.Agrees.modify id (fun r => congrArg _ (st.authenticate_keeps hp schemes r).1)
    exact hi.keep (Impl.Agrees.modify id (st.authenticate_wiring hp schemes))
      (Impl.Keeps.pending hsome.keeps) rfl hn
  | @commit id r hs₁ h hh ha hd hf =>
    refine hi.keep (Impl.commitSession_agrees (fun r => rfl)) (fun j r' hr' hsome => ?_) rfl hn
    by_cases hj : j = id
    · subst hj
      rw [Impl.commitSession_find h] at hr'
      cases hr'
      cases hsome
    · rw [Impl.commitSession_find_ne r hs₁ hj] at hr'
      exact ⟨r',hr',hsome⟩
  | rekey id =>
    have hk : Impl.Agrees ConnectionRecord.wiring st (st.rekeySession env id).1 :=
      Impl.rekeySession_agrees id (fun r s n => rfl)
    have hp : Impl.Agrees (fun r => r.handshake.isSome) st (st.rekeySession env id).1 :=
      Impl.rekeySession_agrees id (fun r s n => rfl)
    rcases st.rekeySession_cases env id with h | ⟨r,s,_,_,_,h⟩
    · rw [h]
      exact hi
    · rw [h] at hk hp hn ⊢
      exact hi.keep hk (Impl.Keeps.pending hp.keeps) rfl hn
  | refuse h he ho => exact hi.opened ho
  | @receive mid id r hdr payload plain sink h he ho =>
    exact (((hi.opened ho).emit _).emit _).emit _

theorem Impl.Ported.buffer (h : st.Ported) (id : Nat) (bytes : Bytes) :
    (st.setRecvBuf id bytes).Ported :=
  h.keep (st.setRecvBuf_agrees id bytes (fun _ _ => rfl))
    (Impl.Keeps.pending (st.setRecvBuf_agrees id bytes (fun _ _ => rfl)).keeps) rfl (Nat.le_refl _)

theorem run_ported (env : Env) (identity : NodeIdentity) (calls : List Call) :
    ((Impl.start identity).run env calls).Ported := by
  have hstart : (Impl.start identity).Ported := by
    refine ⟨fun tid peer => ?_,fun tid peer hk => ?_,fun id r hr => ?_⟩
    · simp [Impl.start,Impl.Carries,Impl.find]
    · simp [Impl.start] at hk
    · simp [Impl.start,Impl.find] at hr
  have hrun := Impl.run_invariant (C := fun _ => True)
    (I := fun st : Impl => st.SoundRecords env.sodium ∧ st.Ported)
    ⟨start_sound env identity,hstart⟩
    (fun _ _ h _ hi => ⟨h.sound hi.1,h.ported hi.1 hi.2⟩)
    (fun _ id bytes hi => ⟨hi.1.buffer id bytes,hi.2.buffer id bytes⟩) calls (fun _ _ => trivial)
  exact hrun.2

end

/-- In every state of every run: `transport_index_` holds the further paths of the records and
nothing else, no id is a path of two records or a path twice, and what comes in on any path of a
record is taken to be of that record. -/
theorem transport_index_exact (env : Env) (identity : NodeIdentity) (calls : List Call) :
    let st := (Impl.start identity).run env calls
    (∀ tid peer, st.transportIndex.lookup tid = some peer ↔ st.Carries peer tid ∧ tid ≠ peer) ∧
    (∀ id r, st.find id = some r → r.ports.Nodup ∧ id ∈ r.ports) ∧
    (∀ peer peer' tid, st.Carries peer tid → st.Carries peer' tid → peer = peer') ∧
    ∀ peer tid, st.Carries peer tid → st.resolveTransport tid = peer := by
  intro st
  have h : st.Ported := run_ported env identity calls
  refine ⟨h.index,fun id r hr => ⟨(h.records id r hr).nodup,(h.records id r hr).own⟩,?_,?_⟩
  · rintro peer peer' tid ⟨r,hr,ht⟩ hc
    exact (h.apart_records hr ht hc).symm
  · intro peer tid hc
    unfold Impl.resolveTransport
    by_cases htid : tid = peer
    · cases hk : st.transportIndex.lookup tid with
      | none => simpa using htid
      | some owner =>
        obtain ⟨r,hr,_⟩ := hc
        have hnone := h.apart tid owner hk
        rw [htid,hr] at hnone
        cases hnone
    · rw [(h.index tid peer).mpr ⟨hc,htid⟩]
      rfl

end GoodNet
