import GoodNet.SessionTrace
set_option autoImplicit false

/-! `uri_index_` and `transport_index_`: which record an address and which record a further
transport belongs to. Addresses are registered by the latest comer and erased by whoever
leaves with that address. -/

namespace GoodNet
open Codec History

/-- Id and address of each transport path. -/
def ConnectionRecord.routes (r : ConnectionRecord) : List (Nat × Endpoint) :=
  r.transportPaths.map (fun p => (p.transportConnId,p.remote))

/-- A record has a path with this address. -/
def ConnectionRecord.reaches (r : ConnectionRecord) (key : String) : Prop :=
  ∃ t ∈ r.routes, t.2.key = key

/-- Who was registered last under an address. -/
def lastRegistered (key : String) : List Effect → Option Nat
  | [] => none
  | .registered k id :: older => if k = key then some id else lastRegistered key older
  | _ :: older => lastRegistered key older

structure Impl.UriSound (st : Impl) : Prop where
  live : ∀ key id, st.uriIndex.lookup key = some id →
    ∃ r, st.find id = some r ∧ r.reaches key
  last : ∀ key id r, lastRegistered key st.log = some id → st.find id = some r →
    r.reaches key → st.uriIndex.lookup key = some id
  held : ∀ tid peer, st.transportIndex.lookup tid = some peer →
    tid ≠ peer ∧ ∃ r, st.find peer = some r ∧ ∃ t ∈ r.routes, t.1 = tid
  listed : ∀ id r, st.find id = some r → ∀ t ∈ r.routes, t.1 ≠ id →
    st.transportIndex.lookup t.1 = some id

/-- An address has no entry, or one that names `id`. -/
def Registry.owns (reg : Registry) (key : String) (id : Nat) : Bool :=
  match reg.uriIndex.lookup key with
  | none => true
  | some owner => owner == id

/-- Whoever leaves takes only entries of its own, and all of them: a further transport goes
alone with its address, a record has no other address left in the index. -/
def Effect.keepsUri : Effect → Bool
  | .disconnecting id found =>
    match found.transportIndex.lookup id with
    | some peer =>
      match found.records.lookup peer with
      | none => true
      | some r =>
        match r.findPathByTransportId id with
        | none => true
        | some p => (found.uriIndex.lookup p.remote.key).isNone ||
            found.owns p.remote.key peer &&
              r.routes.all (fun t => t.1 == id || t.2.key != p.remote.key)
    | none =>
      match found.records.lookup id with
      | none => true
      | some r => found.owns r.remote.key id &&
          r.routes.all (fun t => t.2.key == r.remote.key ||
            found.uriIndex.lookup t.2.key != some id)
  | .duplicate id owner found => found.owns owner.remote.key id
  | _ => true

/-- The paths of a record: its own comes under its own id and address, ids are not used
twice, and only an established connection has further ones. -/
structure ConnectionRecord.Wired (next id : Nat) (r : ConnectionRecord) : Prop where
  own : (id,r.remote) ∈ r.routes
  unique : ∀ t ∈ r.routes, ∀ u ∈ r.routes, t.1 = u.1 → t.2 = u.2
  bounded : ∀ t ∈ r.routes, t.1 < next
  alone : r.handshake.isSome = true → ∀ t ∈ r.routes, t.1 = id

/-- What the indices depend on. -/
def ConnectionRecord.wiring (r : ConnectionRecord) : Endpoint × List (Nat × Endpoint) :=
  (r.remote,r.routes)

structure Impl.Routed (st : Impl) : Prop where
  uri : st.UriSound
  wired : ∀ id r, st.find id = some r → r.Wired st.nextId id

def Effect.isRegistration : Effect → Bool
  | .registered .. => true
  | _ => false

section
variable {env : Env} {st st' : Impl}

theorem lastRegistered_append {new : List Effect} (h : ∀ e ∈ new, e.isRegistration = false)
    (key : String) (older : List Effect) :
    lastRegistered key (new ++ older) = lastRegistered key older := by
  induction new with
  | nil => rfl
  | cons e new ih =>
    have htail := ih (fun x hx => h x (List.mem_cons_of_mem e hx))
    have hhead := h e List.mem_cons_self
    cases e <;> first | exact htail | cases hhead

theorem Effect.isRegistration_report {e : Effect} (h : e.isReport = true) :
    e.isRegistration = false := by
  cases e <;> first | rfl | cases h

theorem Effect.isRegistration_outward {e : Effect} (h : e.Outward) :
    e.isRegistration = false := by
  cases e <;> first | rfl | (rcases h with h | h <;> cases h)

theorem ConnectionRecord.wiring_eq {r r' : ConnectionRecord} (h : r'.wiring = r.wiring) :
    r'.remote = r.remote ∧ r'.routes = r.routes := Prod.mk.inj h

theorem ConnectionRecord.Wired.keep {r r' : ConnectionRecord} {next next' id : Nat}
    (h : r.Wired next id) (hw : r'.wiring = r.wiring)
    (hp : r'.handshake.isSome = true → r.handshake.isSome = true) (hn : next ≤ next') :
    r'.Wired next' id := by
  obtain ⟨hrem,hro⟩ := wiring_eq hw
  refine ⟨?_,?_,?_,fun hsome => ?_⟩
  · rw [hrem,hro]
    exact h.own
  · rw [hro]
    exact h.unique
  · rw [hro]
    exact fun t ht => Nat.lt_of_lt_of_le (h.bounded t ht) hn
  · rw [hro]
    exact h.alone (hp hsome)

/-- Steps that leave the paths of every record and both indices alone; a handshake may come
to its end in them. -/
theorem Impl.Routed.keep (h : st.Routed) (ha : Impl.Agrees ConnectionRecord.wiring st st')
    (hp : ∀ id r', st'.find id = some r' → r'.handshake.isSome = true →
      ∃ r, st.find id = some r ∧ r.handshake.isSome = true)
    (hu : st'.uriIndex = st.uriIndex) (ht : st'.transportIndex = st.transportIndex)
    (hn : st.nextId ≤ st'.nextId)
    (hl : ∃ new, st'.log = new ++ st.log ∧ ∀ e ∈ new, e.isRegistration = false) :
    st'.Routed := by
  obtain ⟨new,hl,hnew⟩ := hl
  have hreach : ∀ {r r' : ConnectionRecord} {key : String}, r'.wiring = r.wiring →
      (r'.reaches key ↔ r.reaches key) := by
    intro r r' key hw
    rw [ConnectionRecord.reaches,ConnectionRecord.reaches,(ConnectionRecord.wiring_eq hw).2]
  refine ⟨⟨fun key id hk => ?_,fun key id r' hlast hr' hre => ?_,fun tid peer hk => ?_,
    fun id r' hr' t htr hne => ?_⟩,fun id r' hr' => ?_⟩
  · rw [hu] at hk
    obtain ⟨r,hr,hre⟩ := h.uri.live key id hk
    obtain ⟨r',hr',hw⟩ := ha.find_some hr
    exact ⟨r',hr',(hreach hw).mpr hre⟩
  · obtain ⟨r,hr,hw⟩ := ha.keeps id r' hr'
    rw [hl,lastRegistered_append hnew] at hlast
    rw [hu]
    exact h.uri.last key id r hlast hr ((hreach hw).mp hre)
  · rw [ht] at hk
    obtain ⟨hne,r,hr,hro⟩ := h.uri.held tid peer hk
    obtain ⟨r',hr',hw⟩ := ha.find_some hr
    rw [← (ConnectionRecord.wiring_eq hw).2] at hro
    exact ⟨hne,r',hr',hro⟩
  · obtain ⟨r,hr,hw⟩ := ha.keeps id r' hr'
    rw [(ConnectionRecord.wiring_eq hw).2] at htr
    rw [ht]
    exact h.uri.listed id r hr t htr hne
  · obtain ⟨r,hr,hw⟩ := ha.keeps id r' hr'
    refine (h.wired id r hr).keep hw (fun hsome => ?_) hn
    obtain ⟨r₀,hr₀,hsome₀⟩ := hp id r' hr' hsome
    rw [hr] at hr₀
    cases hr₀
    exact hsome₀

theorem Impl.Keeps.pending (h : Impl.Keeps (fun r => r.handshake.isSome) st st') :
    ∀ id r', st'.find id = some r' → r'.handshake.isSome = true →
      ∃ r, st.find id = some r ∧ r.handshake.isSome = true := by
  intro id r' hr' hsome
  obtain ⟨r,hr,hf⟩ := h id r' hr'
  exact ⟨r,hr,hf.symm.trans hsome⟩

/-- Steps that do nothing to the registry. -/
theorem Impl.Routed.emit (h : st.Routed) {e : Effect} (he : e.isRegistration = false) :
    (st.emit e).Routed :=
  h.keep (Agrees.of_records rfl) (Keeps.pending (Keeps.of_records rfl)) rfl rfl (Nat.le_refl _)
    ⟨[e],rfl,by simpa using he⟩

theorem ConnectionRecord.mem_routes_dropPath (r : ConnectionRecord) (id : Nat)
    (t : Nat × Endpoint) : t ∈ (r.dropPath id).routes ↔ t ∈ r.routes ∧ t.1 ≠ id := by
  simp only [routes,dropPath,List.mem_map,List.mem_filter,bne_iff_ne]
  constructor
  · rintro ⟨p,⟨hp,hid⟩,rfl⟩
    exact ⟨⟨p,hp,rfl⟩,hid⟩
  · rintro ⟨⟨p,hp,rfl⟩,hid⟩
    exact ⟨p,⟨hp,hid⟩,rfl⟩

/-- A record with its own path only. -/
theorem ConnectionRecord.Wired.single {r : ConnectionRecord} {next id : Nat} {ep : Endpoint}
    (hrem : r.remote = ep) (hro : r.routes = [(id,ep)]) (hn : id < next) : r.Wired next id := by
  have hall : ∀ t ∈ r.routes, t = (id,ep) := by
    intro t ht
    rw [hro] at ht
    exact List.mem_singleton.mp ht
  refine ⟨?_,fun t ht u hu _ => ?_,fun t ht => ?_,fun _ t ht => ?_⟩
  · rw [hrem,hro]
    exact List.mem_singleton.mpr rfl
  · rw [hall t ht,hall u hu]
  · rw [hall t ht]
    exact hn
  · rw [hall t ht]

/-- A path more, under the next id. -/
theorem ConnectionRecord.Wired.extend {r r' : ConnectionRecord} {next id : Nat}
    (hw : r.Wired next id) (ep : Endpoint) (hrem : r'.remote = r.remote)
    (hro : r'.routes = r.routes ++ [(next,ep)]) (hdone : r'.handshake.isSome = false) :
    r'.Wired (next+1) id := by
  refine ⟨?_,fun t ht u hu htu => ?_,fun t ht => ?_,fun hsome => ?_⟩
  · rw [hrem,hro]
    exact List.mem_append_left _ hw.own
  · rw [hro] at ht hu
    rcases List.mem_append.mp ht with ht | ht
    · rcases List.mem_append.mp hu with hu | hu
      · exact hw.unique t ht u hu htu
      · rw [List.mem_singleton.mp hu] at htu
        exact absurd htu (Nat.ne_of_lt (hw.bounded t ht))
    · rcases List.mem_append.mp hu with hu | hu
      · rw [List.mem_singleton.mp ht] at htu
        exact absurd htu.symm (Nat.ne_of_lt (hw.bounded u hu))
      · rw [List.mem_singleton.mp ht,List.mem_singleton.mp hu]
  · rw [hro] at ht
    rcases List.mem_append.mp ht with ht | ht
    · exact Nat.lt_succ_of_lt (hw.bounded t ht)
    · rw [List.mem_singleton.mp ht]
      exact Nat.lt_succ_self _
  · rw [hdone] at hsome
    cases hsome

/-- A path less, other than its own. -/
theorem ConnectionRecord.Wired.drop {r : ConnectionRecord} {next id via : Nat}
    (hw : r.Wired next id) (hne : via ≠ id) : (r.dropPath via).Wired next id := by
  have hsub : ∀ t ∈ (r.dropPath via).routes, t ∈ r.routes :=
    fun t ht => ((r.mem_routes_dropPath via t).mp ht).1
  refine ⟨(r.mem_routes_dropPath via _).mpr ⟨hw.own,fun hc => hne hc.symm⟩,fun t ht u hu => ?_,
    fun t ht => ?_,fun hsome t ht => ?_⟩
  · exact hw.unique t (hsub t ht) u (hsub u hu)
  · exact hw.bounded t (hsub t ht)
  · exact hw.alone hsome t (hsub t ht)

/-- The address that is registered last leads to who has registered it. -/
theorem registered_lookup {index : Table String Nat} {k key : String} {owner id : Nat}
    {before : Option Nat} (hl : (if k = key then some owner else before) = some id)
    (hold : k ≠ key → before = some id → index.lookup key = some id) :
    (index.insert k owner).lookup key = some id := by
  by_cases hkey : k = key
  · subst hkey
    rw [if_pos rfl] at hl
    cases hl
    exact AList.lookup_insert _
  · rw [if_neg hkey] at hl
    rw [AList.lookup_insert_ne (fun hc => hkey hc.symm)]
    exact hold hkey hl

theorem Impl.Routed.connect (h : st.Routed)
    (hfresh : ∀ id r, st.find id = some r → id < st.nextId) (ep : Endpoint) :
    (st.openConnection env ep).Routed := by
  obtain ⟨hnext,_,_,hu,ht⟩ := st.openConnection_same env ep
  have hlog := st.openConnection_log env ep
  have hlast : ∀ key, lastRegistered key (st.openConnection env ep).log =
      if ep.key = key then some st.nextId else lastRegistered key st.log := by
    intro key
    rw [hlog,lastRegistered_append]
    · rfl
    · intro e he
      split at he
      · rw [List.mem_singleton.mp he]
        rfl
      · cases he
  have hnew : ∀ r, (st.openConnection env ep).find st.nextId = some r → r.remote = ep ∧
      r.routes = [(st.nextId,ep)] := by
    intro r hr
    rcases openConnection_find hr with ⟨hj,_⟩ | ⟨_,_,rfl⟩ | ⟨_,_,rfl⟩
    · exact absurd rfl hj
    · exact ⟨rfl,rfl⟩
    · exact ⟨rfl,rfl⟩
  have hthere : ∃ r, (st.openConnection env ep).find st.nextId = some r := by
    cases ho : ep.outbound with
    | false =>
      rw [openConnection_inbound ho]
      exact ⟨_,st.insertRecord_find ep⟩
    | true =>
      rw [openConnection_outbound ho]
      exact ⟨_,writeNoise_find env _ _ (st.insertRecord_find ep)⟩
  have hold : ∀ id r, st.find id = some r → (st.openConnection env ep).find id = some r :=
    fun id r hr => (openConnection_find_ne (Nat.ne_of_lt (hfresh id r hr))).trans hr
  refine ⟨⟨fun key id hk => ?_,fun key id r hl hr hre => ?_,fun tid peer hk => ?_,
    fun id r hr t htr hne => ?_⟩,fun id r hr => ?_⟩
  · rw [hu] at hk
    by_cases hkey : key = ep.key
    · subst hkey
      rw [AList.lookup_insert] at hk
      cases hk
      obtain ⟨r,hr⟩ := hthere
      refine ⟨r,hr,(st.nextId,ep),?_,rfl⟩
      rw [(hnew r hr).2]
      exact List.mem_singleton.mpr rfl
    · rw [AList.lookup_insert_ne hkey] at hk
      obtain ⟨r,hr,hre⟩ := h.uri.live key id hk
      exact ⟨r,hold id r hr,hre⟩
  · rw [hlast] at hl
    rw [hu]
    refine registered_lookup hl (fun hkey hbefore => ?_)
    by_cases hid : id = st.nextId
    · subst hid
      obtain ⟨t,htr,htk⟩ := hre
      rw [(hnew r hr).2,List.mem_singleton] at htr
      subst htr
      exact absurd htk hkey
    · rw [openConnection_find_ne hid] at hr
      exact h.uri.last key id r hbefore hr hre
  · rw [ht] at hk
    obtain ⟨hne,r,hr,hro⟩ := h.uri.held tid peer hk
    exact ⟨hne,r,hold peer r hr,hro⟩
  · rw [ht]
    by_cases hid : id = st.nextId
    · subst hid
      rw [(hnew r hr).2,List.mem_singleton] at htr
      subst htr
      exact absurd rfl hne
    · rw [openConnection_find_ne hid] at hr
      exact h.uri.listed id r hr t htr hne
  · by_cases hid : id = st.nextId
    · subst hid
      obtain ⟨hrem,hro⟩ := hnew r hr
      exact ConnectionRecord.Wired.single hrem hro (by omega)
    · rw [openConnection_find_ne hid] at hr
      exact (h.wired id r hr).keep rfl (fun hp => hp) (by omega)

theorem Impl.attachTransport_self {peer : Nat} {r : ConnectionRecord} (hr : st.find peer = some r)
    (ep : Endpoint) (scheme : String) :
    ∃ r', (st.attachTransport peer ep scheme).find peer = some r' ∧ r'.remote = r.remote ∧
      r'.routes = r.routes ++ [(st.nextId,ep)] ∧ r'.handshake = r.handshake := by
  change ∃ r', (st.modify peer _).find peer = some r' ∧ _
  rw [find_modify_self,hr]
  exact ⟨_,rfl,rfl,by simp [ConnectionRecord.routes],rfl⟩

theorem Impl.attachTransport_other {peer j : Nat} (ep : Endpoint) (scheme : String)
    (hj : j ≠ peer) : (st.attachTransport peer ep scheme).find j = st.find j := by
  change (st.modify peer _).find j = _
  rw [find_modify,if_neg hj]

theorem Impl.Routed.attach (h : st.Routed)
    (hfresh : ∀ id r, st.find id = some r → id < st.nextId) {peer : Nat} {r : ConnectionRecord}
    (hr : st.find peer = some r) (hdone : r.handshake.isSome = false) (ep : Endpoint)
    (scheme : String) : (st.attachTransport peer ep scheme).Routed := by
  obtain ⟨r₁,hr₁,hrem,hro,hha⟩ := attachTransport_self hr ep scheme
  have hself : ∀ r', (st.attachTransport peer ep scheme).find peer = some r' → r' = r₁ :=
    fun r' hr' => Option.some.inj (hr'.symm.trans hr₁)
  have hother : ∀ j, j ≠ peer → (st.attachTransport peer ep scheme).find j = st.find j :=
    fun j hj => attachTransport_other ep scheme hj
  -- every record is still there and has at least the paths it had
  have hgrow : ∀ j r₀, st.find j = some r₀ →
      ∃ r', (st.attachTransport peer ep scheme).find j = some r' ∧
        ∀ t ∈ r₀.routes, t ∈ r'.routes := by
    intro j r₀ hr₀
    by_cases hj : j = peer
    · subst hj
      rw [hr] at hr₀
      cases hr₀
      refine ⟨r₁,hr₁,fun t ht => ?_⟩
      rw [hro]
      exact List.mem_append_left _ ht
    · exact ⟨r₀,(hother j hj).trans hr₀,fun t ht => ht⟩
  have hlast : ∀ key, lastRegistered key (st.attachTransport peer ep scheme).log =
      if ep.key = key then some peer else lastRegistered key st.log := fun key => rfl
  have hu : (st.attachTransport peer ep scheme).uriIndex = st.uriIndex.insert ep.key peer := rfl
  have ht : (st.attachTransport peer ep scheme).transportIndex =
      st.transportIndex.insert st.nextId peer := rfl
  refine ⟨⟨fun key id hk => ?_,fun key id r' hl hr' hre => ?_,fun tid owner hk => ?_,
    fun id r' hr' t htr hne => ?_⟩,fun id r' hr' => ?_⟩
  · rw [hu] at hk
    by_cases hkey : key = ep.key
    · subst hkey
      rw [AList.lookup_insert] at hk
      cases hk
      refine ⟨r₁,hr₁,(st.nextId,ep),?_,rfl⟩
      rw [hro]
      exact List.mem_append_right _ (List.mem_singleton.mpr rfl)
    · rw [AList.lookup_insert_ne hkey] at hk
      obtain ⟨r₀,hr₀,t,htr,htk⟩ := h.uri.live key id hk
      obtain ⟨r',hr',hsub⟩ := hgrow id r₀ hr₀
      exact ⟨r',hr',t,hsub t htr,htk⟩
  · rw [hlast] at hl
    rw [hu]
    refine registered_lookup hl (fun hkey hbefore => ?_)
    by_cases hid : id = peer
    · subst hid
      obtain ⟨t,htr,htk⟩ := hre
      rw [hself r' hr',hro] at htr
      rcases List.mem_append.mp htr with htr | htr
      · exact h.uri.last key id r hbefore hr ⟨t,htr,htk⟩
      · rw [List.mem_singleton.mp htr] at htk
        exact absurd htk hkey
    · rw [hother id hid] at hr'
      exact h.uri.last key id r' hbefore hr' hre
  · rw [ht] at hk
    by_cases htid : tid = st.nextId
    · subst htid
      rw [AList.lookup_insert] at hk
      cases hk
      refine ⟨Nat.ne_of_gt (hfresh peer r hr),r₁,hr₁,(st.nextId,ep),?_,rfl⟩
      rw [hro]
      exact List.mem_append_right _ (List.mem_singleton.mpr rfl)
    · rw [AList.lookup_insert_ne htid] at hk
      obtain ⟨hne,r₀,hr₀,t,htr,htk⟩ := h.uri.held tid owner hk
      obtain ⟨r',hr',hsub⟩ := hgrow owner r₀ hr₀
      exact ⟨hne,r',hr',t,hsub t htr,htk⟩
  · rw [ht]
    have hkept : ∀ r₀, st.find id = some r₀ → t ∈ r₀.routes →
        (st.transportIndex.insert st.nextId peer).lookup t.1 = some id := by
      intro r₀ hr₀ htr₀
      rw [AList.lookup_insert_ne (Nat.ne_of_lt ((h.wired id r₀ hr₀).bounded t htr₀))]
      exact h.uri.listed id r₀ hr₀ t htr₀ hne
    by_cases hid : id = peer
    · subst hid
      rw [hself r' hr',hro] at htr
      rcases List.mem_append.mp htr with htr | htr
      · exact hkept r hr htr
      · rw [List.mem_singleton.mp htr]
        exact AList.lookup_insert _
    · rw [hother id hid] at hr'
      exact hkept r' hr' htr
  · by_cases hid : id = peer
    · subst hid
      rw [hself r' hr']
      exact (h.wired id r hr).extend ep hrem hro (by rw [hha,hdone])
    · rw [hother id hid] at hr'
      exact (h.wired id r' hr').keep rfl (fun hp => hp) (Nat.le_succ _)

theorem Registry.owns_eq {reg : Registry} {key : String} {id owner : Nat}
    (h : reg.owns key id = true) (hl : reg.uriIndex.lookup key = some owner) : owner = id := by
  simpa [owns,hl] using h

theorem lookup_erase_some {κ υ : Type} [DecidableEq κ] {t : Table κ υ} {k k' : κ} {v : υ}
    (h : (t.erase k).lookup k' = some v) : k' ≠ k ∧ t.lookup k' = some v := by
  by_cases hk : k' = k
  · subst hk
    simp at h
  · rw [AList.lookup_erase_ne hk] at h
    exact ⟨hk,h⟩

/-- An address goes with its owner: what others have stays. -/
theorem lookup_erase_owned {key key' : String} {id j : Nat} (hown : st.owns key id = true)
    (hj : j ≠ id) (hentry : st.uriIndex.lookup key' = some j) :
    (st.uriIndex.erase key).lookup key' = some j := by
  have hkey : key' ≠ key := by
    intro hkey
    subst hkey
    exact hj (Registry.owns_eq hown hentry)
  exact (AList.lookup_erase_ne hkey).trans hentry

theorem ConnectionRecord.findPath_route {r : ConnectionRecord} {id : Nat} {p : TransportPath}
    (h : r.findPathByTransportId id = some p) : (id,p.remote) ∈ r.routes := by
  have hid : p.transportConnId = id := by simpa using List.find?_some h
  rw [← hid]
  exact List.mem_map.mpr ⟨p,List.mem_of_find?_eq_some h,rfl⟩

theorem ConnectionRecord.findPath_none {r : ConnectionRecord} {id : Nat}
    (h : r.findPathByTransportId id = none) : ∀ t ∈ r.routes, t.1 ≠ id := by
  intro t ht
  obtain ⟨p,hp,rfl⟩ := List.mem_map.mp ht
  simpa using List.find?_eq_none.mp h p hp

/-- A record leaves: with its own address, and no other one left behind. -/
theorem Impl.Routed.forget (h : st.Routed) {id : Nat} {r : ConnectionRecord}
    (hr : st.find id = some r) (hown : st.owns r.remote.key id = true)
    (hrest : ∀ t ∈ r.routes, t.2.key = r.remote.key ∨ st.uriIndex.lookup t.2.key ≠ some id) :
    (st.forgetPeer id r).Routed := by
  have hback : ∀ j r', (st.forgetPeer id r).find j = some r' → j ≠ id ∧ st.find j = some r' :=
    fun j r' hr' => find_erase_some rfl hr'
  have ht : ∀ tid, (st.forgetPeer id r).transportIndex.lookup tid =
      if ∃ p ∈ r.transportPaths, p.transportConnId = tid ∧ tid ≠ id then none
      else st.transportIndex.lookup tid := eraseTransports_lookup _ _ _
  refine ⟨⟨fun key j hk => ?_,fun key j r' hl hr' hre => ?_,fun tid peer hk => ?_,
    fun j r' hr' t htr hne => ?_⟩,fun j r' hr' => h.wired j r' (hback j r' hr').2⟩
  · obtain ⟨hkey,hentry⟩ := lookup_erase_some hk
    obtain ⟨r',hr',t,htr,htk⟩ := h.uri.live key j hentry
    have hj : j ≠ id := by
      intro hj
      subst hj
      rw [hr] at hr'
      cases hr'
      rcases hrest t htr with hc | hc
      · exact hkey (htk.symm.trans hc)
      · rw [htk] at hc
        exact hc hentry
    exact ⟨r',(find_forgetPeer r hj).trans hr',t,htr,htk⟩
  · obtain ⟨hj,hr₀⟩ := hback j r' hr'
    exact lookup_erase_owned hown hj (h.uri.last key j r' hl hr₀ hre)
  · rw [ht] at hk
    split at hk
    · cases hk
    · rename_i hkept
      obtain ⟨hne,r',hr',t,htr,htk⟩ := h.uri.held tid peer hk
      have hpeer : peer ≠ id := by
        intro hpeer
        subst hpeer
        rw [hr] at hr'
        cases hr'
        obtain ⟨p,hp,rfl⟩ := List.mem_map.mp htr
        exact hkept ⟨p,hp,htk,hne⟩
      exact ⟨hne,r',(find_forgetPeer r hpeer).trans hr',t,htr,htk⟩
  · obtain ⟨hj,hr₀⟩ := hback j r' hr'
    have hentry := h.uri.listed j r' hr₀ t htr hne
    rw [ht]
    split
    · rename_i hgone
      obtain ⟨p,hp,hpt,hpi⟩ := hgone
      have hmine := h.uri.listed id r hr (p.transportConnId,p.remote)
        (List.mem_map.mpr ⟨p,hp,rfl⟩) (by rw [hpt]; exact hpi)
      rw [show (p.transportConnId,p.remote).1 = t.1 from hpt,hentry] at hmine
      exact absurd (Option.some.inj hmine) hj
    · exact hentry

/-- A rejected duplicate leaves: it has no path but its own. -/
theorem Impl.Routed.removeDuplicate (h : st.Routed) {id : Nat} {r : ConnectionRecord}
    (hr : ∀ r', st.find id = some r' → r'.handshake.isSome = true ∧ r'.remote = r.remote)
    (hown : st.owns r.remote.key id = true) : (st.removeDuplicate id r).Routed := by
  have hback : ∀ j r', (st.removeDuplicate id r).find j = some r' → j ≠ id ∧ st.find j = some r' :=
    fun j r' hr' => find_erase_some rfl hr'
  have hother : ∀ j, j ≠ id → (st.removeDuplicate id r).find j = st.find j :=
    fun j hj => AList.lookup_erase_ne hj
  refine ⟨⟨fun key j hk => ?_,fun key j r' hl hr' hre => ?_,fun tid peer hk => ?_,
    fun j r' hr' => h.uri.listed j r' (hback j r' hr').2⟩,
    fun j r' hr' => h.wired j r' (hback j r' hr').2⟩
  · obtain ⟨hkey,hentry⟩ := lookup_erase_some hk
    obtain ⟨r',hr',t,htr,htk⟩ := h.uri.live key j hentry
    have hj : j ≠ id := by
      intro hj
      subst hj
      obtain ⟨hsome,hrem⟩ := hr r' hr'
      have hw := h.wired j r' hr'
      have ht2 := hw.unique t htr _ hw.own (hw.alone hsome t htr)
      rw [ht2,hrem] at htk
      exact hkey htk.symm
    exact ⟨r',(hother j hj).trans hr',t,htr,htk⟩
  · obtain ⟨hj,hr₀⟩ := hback j r' hr'
    exact lookup_erase_owned hown hj (h.uri.last key j r' hl hr₀ hre)
  · obtain ⟨hne,r',hr',t,htr,htk⟩ := h.uri.held tid peer hk
    have hpeer : peer ≠ id := by
      intro hpeer
      subst hpeer
      have hown' := (h.wired peer r' hr').alone (hr r' hr').1 t htr
      exact hne (htk.symm.trans hown')
    exact ⟨hne,r',(hother peer hpeer).trans hr',t,htr,htk⟩

/-- What a path that is dropped takes with it. -/
theorem Impl.dropTransport_found {id peer : Nat} {r : ConnectionRecord} {p : TransportPath}
    (hr : st.find peer = some r) (hp : r.findPathByTransportId id = some p) :
    (st.dropTransport id peer).find peer = some (r.dropPath id) ∧
      (∀ j, j ≠ peer → (st.dropTransport id peer).find j = st.find j) ∧
      (st.dropTransport id peer).uriIndex = st.uriIndex.erase p.remote.key ∧
      (st.dropTransport id peer).transportIndex = st.transportIndex.erase id := by
  rcases st.dropTransport_cases id peer with ⟨hnone,_⟩ | ⟨r₁,hr₁,hnone,_⟩ | ⟨r₁,p₁,hr₁,hp₁,hreg⟩
  · rw [hr] at hnone
    cases hnone
  · cases hr.symm.trans hr₁
    rw [hp] at hnone
    cases hnone
  · cases hr.symm.trans hr₁
    cases hp.symm.trans hp₁
    have hfind : ∀ j, (st.dropTransport id peer).find j =
        (((st.eraseTransport id).eraseUri p.remote.key).modify peer
          (ConnectionRecord.dropPath id)).find j := by
      intro j
      unfold find
      rw [hreg]
    refine ⟨?_,fun j hj => ?_,?_,?_⟩
    · rw [hfind,find_modify_self]
      exact congrArg (Option.map _) hr
    · rw [hfind,find_modify,if_neg hj]
      rfl
    · rw [hreg]
      rfl
    · rw [hreg]
      rfl

/-- A further transport leaves: with its address, which is of no other path. -/
theorem Impl.Routed.dropTransport (h : st.Routed) {id peer : Nat}
    (hlisted : st.transportIndex.lookup id = some peer)
    (hc : ∀ r p, st.find peer = some r → r.findPathByTransportId id = some p →
      ∀ owner, st.uriIndex.lookup p.remote.key = some owner →
        owner = peer ∧ ∀ t ∈ r.routes, t.1 = id ∨ t.2.key ≠ p.remote.key) :
    (st.dropTransport id peer).Routed := by
  obtain ⟨hne,r,hr,t₀,ht₀,hid₀⟩ := h.uri.held id peer hlisted
  obtain ⟨p,hp⟩ : ∃ p, r.findPathByTransportId id = some p := by
    cases hp : r.findPathByTransportId id with
    | none => exact absurd hid₀ (ConnectionRecord.findPath_none hp t₀ ht₀)
    | some p => exact ⟨p,rfl⟩
  obtain ⟨hself,hother,hu,ht⟩ := dropTransport_found hr hp
  have hw := h.wired peer r hr
  obtain ⟨new,hlog,hnew⟩ := st.dropTransport_log id peer
  have hlast : ∀ key, lastRegistered key (st.dropTransport id peer).log =
      lastRegistered key st.log := by
    intro key
    rw [hlog]
    exact lastRegistered_append (fun e he => Effect.isRegistration_report (hnew e he)) key _
  have hkept : ∀ t ∈ r.routes, t.1 ≠ id → t ∈ (r.dropPath id).routes :=
    fun t htr hti => (r.mem_routes_dropPath id t).mpr ⟨htr,hti⟩
  refine ⟨⟨fun key j hk => ?_,fun key j r' hl hr' hre => ?_,fun tid owner hk => ?_,
    fun j r' hr' t htr htj => ?_⟩,fun j r' hr' => ?_⟩
  · rw [hu] at hk
    obtain ⟨hkey,hentry⟩ := lookup_erase_some hk
    obtain ⟨r',hr',t,htr,htk⟩ := h.uri.live key j hentry
    by_cases hj : j = peer
    · subst hj
      rw [hr] at hr'
      cases hr'
      refine ⟨r.dropPath id,hself,t,hkept t htr (fun hti => hkey ?_),htk⟩
      rw [← htk,hw.unique t htr _ (ConnectionRecord.findPath_route hp) hti]
    · exact ⟨r',(hother j hj).trans hr',t,htr,htk⟩
  · rw [hlast] at hl
    rw [hu]
    have hentry : st.uriIndex.lookup key = some j ∧ (j = peer → ∃ t ∈ r.routes, t.1 ≠ id ∧
        t.2.key = key) := by
      by_cases hj : j = peer
      · subst hj
        rw [hself] at hr'
        cases hr'
        obtain ⟨t,htr,htk⟩ := hre
        obtain ⟨htr,hti⟩ := (r.mem_routes_dropPath id t).mp htr
        exact ⟨h.uri.last key j r hl hr ⟨t,htr,htk⟩,fun _ => ⟨t,htr,hti,htk⟩⟩
      · rw [hother j hj] at hr'
        exact ⟨h.uri.last key j r' hl hr' hre,fun hc => absurd hc hj⟩
    have hkey : key ≠ p.remote.key := by
      intro hkey
      subst hkey
      obtain ⟨hown,hothers⟩ := hc r p hr hp j hentry.1
      obtain ⟨t,htr,hti,htk⟩ := hentry.2 hown
      rcases hothers t htr with hc | hc
      · exact hti hc
      · exact hc htk
    exact (AList.lookup_erase_ne hkey).trans hentry.1
  · rw [ht] at hk
    obtain ⟨htid,hentry⟩ := lookup_erase_some hk
    obtain ⟨hto,r',hr',t,htr,htk⟩ := h.uri.held tid owner hentry
    by_cases ho : owner = peer
    · subst ho
      rw [hr] at hr'
      cases hr'
      exact ⟨hto,r.dropPath id,hself,t,hkept t htr (fun hti => htid (htk.symm.trans hti)),htk⟩
    · exact ⟨hto,r',(hother owner ho).trans hr',t,htr,htk⟩
  · rw [ht]
    by_cases hj : j = peer
    · subst hj
      rw [hself] at hr'
      cases hr'
      obtain ⟨htr,hti⟩ := (r.mem_routes_dropPath id t).mp htr
      rw [AList.lookup_erase_ne hti]
      exact h.uri.listed j r hr t htr htj
    · rw [hother j hj] at hr'
      have hentry := h.uri.listed j r' hr' t htr htj
      have hti : t.1 ≠ id := by
        intro hti
        rw [hti,hlisted] at hentry
        exact hj (Option.some.inj hentry).symm
      rw [AList.lookup_erase_ne hti]
      exact hentry
  · rw [(st.dropTransport_same id peer).1]
    by_cases hj : j = peer
    · subst hj
      rw [hself] at hr'
      cases hr'
      exact hw.drop hne
    · rw [hother j hj] at hr'
      exact h.wired j r' hr'

theorem Impl.Routed.disconnect (h : st.Routed) (id : Nat)
    (hc : (Effect.disconnecting id st.toRegistry).keepsUri = true) :
    (st.handleDisconnect id).Routed := by
  have hstart : (st.emit (.disconnecting id st.toRegistry)).Routed := h.emit rfl
  rcases st.handleDisconnect_cases id with ⟨peer,ht,hd⟩ | ⟨_,_,hd⟩ | ⟨ht,r,hr,hd⟩
  · rw [hd]
    refine hstart.dropTransport ht (fun r p hr hp owner hl => ?_)
    change st.records.lookup peer = some r at hr
    change st.uriIndex.lookup p.remote.key = some owner at hl
    simp only [Effect.keepsUri,ht,hr,hp,hl,Option.isNone_some,Bool.false_or,Bool.and_eq_true,
      List.all_eq_true,Bool.or_eq_true,beq_iff_eq,bne_iff_ne] at hc
    exact ⟨Registry.owns_eq hc.1 hl,hc.2⟩
  · rw [hd]
    exact hstart
  · rw [hd]
    have hr' : st.records.lookup id = some r := hr
    simp only [Effect.keepsUri,ht,hr',Bool.and_eq_true,List.all_eq_true,Bool.or_eq_true,
      beq_iff_eq,bne_iff_ne] at hc
    have hcounted := (hstart.forget hr hc.1 hc.2).emit (e := .stat .disconnect 1 id) rfl
    exact hcounted.emit rfl

theorem Impl.Routed.buffer (h : st.Routed) (id : Nat) (bytes : Bytes) :
    (st.setRecvBuf id bytes).Routed :=
  h.keep (st.setRecvBuf_agrees id bytes (fun _ _ => rfl))
    (Impl.Keeps.pending (st.setRecvBuf_agrees id bytes (fun _ _ => rfl)).keeps) rfl rfl
    (Nat.le_refl _) ⟨[],rfl,by simp⟩

theorem ConnectionRecord.wiring_core (r : ConnectionRecord) : r.core.wiring = r.wiring := by
  have hroutes : r.core.routes = r.routes := by
    simp only [routes,core,List.map_map]
    rfl
  simp only [wiring,hroutes]
  rfl

theorem Impl.authenticate_wiring (st : Impl) (hp : HandshakePayload) (schemes : List String)
    (r : ConnectionRecord) : (st.authenticate hp schemes r).wiring = r.wiring := by
  unfold authenticate
  dsimp only
  split
  · rfl
  · rename_i tp rest hpaths
    simp only [ConnectionRecord.wiring,ConnectionRecord.routes] at hpaths ⊢
    rw [hpaths]
    rfl

theorem Impl.Routed.opened {id : Nat} {r : ConnectionRecord} {hdr : Header} {payload : Bytes}
    {out : Option Bytes} (h : st.Routed) (ho : st.openPayload env id r hdr payload = (st',out)) :
    st'.Routed := by
  obtain ⟨hn,_,_,hu,ht⟩ := openPayload_same ho
  obtain ⟨new,hl,hnew⟩ := openPayload_log ho
  refine h.keep (openPayload_agrees ho (fun r s => rfl))
    (Keeps.pending (openPayload_agrees ho (fun r s => rfl)).keeps) hu ht hn.ge
    ⟨new,hl,fun e he => ?_⟩
  rcases hnew e he with he | rfl
  · exact Effect.isRegistration_report he
  · rfl

theorem Micro.routed (h : Micro env st st') (hc : ∀ e ∈ st'.log, e.keepsUri = true)
    (hs : st.SoundRecords env.sodium) (hi : st.Routed) : st'.Routed := by
  have hn := h.nextId_le
  cases h with
  | silent h =>
    obtain ⟨new,hl,hnew⟩ := h.log
    exact hi.keep (h.agrees ConnectionRecord.wiring_core)
      (Impl.Keeps.pending (h.agrees (fun r => rfl)).keeps) h.uri h.transport hn
      ⟨new,hl,fun e he => Effect.isRegistration_report (hnew e he)⟩
  | @frame id msgType payload h =>
    have hq := st.sendFrame_outward env id msgType payload
    obtain ⟨new,hl,hnew⟩ := hq.log
    exact hi.keep (hq.agrees ConnectionRecord.wiring_core)
      (Impl.Keeps.pending (hq.agrees (fun r => rfl)).keeps) hq.uri hq.transport hn
      ⟨new,hl,fun e he => Effect.isRegistration_outward (hnew e he)⟩
  | direct msgType h => exact hi.emit rfl
  | connect ep => exact hi.connect hs.fresh ep
  | @attach peer r ep scheme h he =>
    exact hi.attach hs.fresh h ((hs.record peer r h).settled he).2 ep scheme
  | disconnect id =>
    obtain ⟨new,hl,_⟩ := st.handleDisconnect_log id
    refine hi.disconnect id (hc _ ?_)
    rw [hl]
    exact List.mem_append_right new List.mem_cons_self
  | duplicate h => exact hi.removeDuplicate h (hc _ List.mem_cons_self)
  | read msg h =>
    obtain ⟨r,hr,hh,_⟩ := Impl.handshakeAs_some h
    exact hi.keep (Impl.readNoise_agrees _ _ _ _ _ (fun r hs => rfl))
      (Impl.Keeps.pending (Impl.readNoise_agrees_at hr hh rfl).keeps) rfl rfl hn
      ⟨[_],rfl,by simp [Effect.isRegistration]⟩
  | write payload h hl hok hk =>
    obtain ⟨r,hr,hh⟩ := Option.bind_eq_some_iff.mp h
    exact hi.keep (Impl.writeNoise_agrees _ _ _ (fun r hs => rfl))
      (Impl.Keeps.pending (Impl.writeNoise_agrees_at hr hh rfl).keeps) rfl rfl hn
      ⟨[_],rfl,by simp [Effect.isRegistration]⟩
  | @authenticate id hs₁ hp schemes h hrs =>
    have hsome : Impl.Agrees (fun r => r.handshake.isSome) st
        (st.modify id (st.authenticate hp schemes)) :=
      Impl.Agrees.modify id (fun r => congrArg _ (st.authenticate_keeps hp schemes r).1)
    exact hi.keep (Impl.Agrees.modify id (st.authenticate_wiring hp schemes))
      (Impl.Keeps.pending hsome.keeps) rfl rfl hn ⟨[],rfl,by simp⟩
  | @commit id r hs₁ h hh ha hd hf =>
    refine hi.keep (Impl.commitSession_agrees (fun r => rfl)) (fun j r' hr' hsome => ?_) rfl rfl hn
      ⟨[_],rfl,by simp [Effect.isRegistration]⟩
    by_cases hj : j = id
    · subst hj
      rw [Impl.commitSession_find h] at hr'
      cases hr'
      cases hsome
    · rw [Impl.commitSession_find_ne r hs₁ hj] at hr'
      exact ⟨r',hr',hsome⟩
  | rekey id =>
    have hk : Impl.Agrees ConnectionRecord.wiring st (st.rekeySession env id).1 :=
      Impl.rekeySession_agrees id (fun r s n => rfl)
    have hp : Impl.Agrees (fun r => r.handshake.isSome) st (st.rekeySession env id).1 :=
      Impl.rekeySession_agrees id (fun r s n => rfl)
    rcases st.rekeySession_cases env id with h | ⟨r,s,_,_,_,h⟩
    · rw [h]
      exact hi
    · rw [h] at hk hp hn ⊢
      exact hi.keep hk (Impl.Keeps.pending hp.keeps) rfl rfl hn
        ⟨[_],rfl,by simp [Effect.isRegistration]⟩
  | refuse h he ho => exact hi.opened ho
  | @receive mid id r hdr payload plain sink h he ho =>
    have hcounted := (hi.opened ho).emit (e := .stat .rxBytes payload.length id) rfl
    have hreports := hcounted.emit (e := .stat .rxPacket 1 id) rfl
    exact hreports.emit rfl

end

/-- In a run where whoever leaves takes exactly its own addresses along, both indices match
the records throughout. -/
theorem uri_index_matches (env : Env) (identity : NodeIdentity) (calls : List Call)
    (hc : ∀ e ∈ ((Impl.start identity).run env calls).log, e.keepsUri = true) :
    ((Impl.start identity).run env calls).UriSound := by
  have hnone : ∀ id r, (Impl.start identity).find id ≠ some r := by
    intro id r hr
    simp [Impl.start,Impl.find] at hr
  have hstart : (Impl.start identity).Routed := by
    refine ⟨⟨fun key id hk => ?_,fun key id r _ hr => absurd hr (hnone id r),fun tid peer hk => ?_,
      fun id r hr => absurd hr (hnone id r)⟩,fun id r hr => absurd hr (hnone id r)⟩
    · simp [Impl.start] at hk
    · simp [Impl.start] at hk
  have hrun := Impl.run_invariant (I := fun st : Impl => st.SoundRecords env.sodium ∧ st.Routed)
    ⟨start_sound env identity,hstart⟩
    (fun _ _ h hc hi => ⟨h.sound hi.1,h.routed hc hi.1 hi.2⟩)
    (fun _ id bytes hi => ⟨hi.1.buffer id bytes,hi.2.buffer id bytes⟩) calls hc
  exact hrun.2.uri

/-- The peer of an undisturbed exchange gets a second transport and loses it again. -/
def bobRoams : List Call := bobConfirms ++
  [.event (.addTransport (bytesToHex NodeIdentity.alice.userPubkey.bytes)
      (Endpoint.sample "c" 0) "ice"),
    .event (.disconnected 2)]

set_option maxRecDepth 10000 in
theorem uri_index_matches_roaming :
    ∃ r, ((Impl.start NodeIdentity.bob).run (Env.sample false) bobRoams).find 1 = some r ∧
      ((Impl.start NodeIdentity.bob).run (Env.sample false) bobRoams).uriIndex.lookup
        (Endpoint.sample "a" 0).key = some 1 := by
  have hthere : (((Impl.start NodeIdentity.bob).run (Env.sample false) bobRoams).find 1).any
      (fun r => r.routes.any (fun t => t.2.key == (Endpoint.sample "a" 0).key)) = true := by
    decide +kernel
  obtain ⟨r,hr,hp⟩ := (Option.any_eq_true _ _).mp hthere
  obtain ⟨t,ht,hk⟩ := List.any_eq_true.mp hp
  exact ⟨r,hr,(uri_index_matches (Env.sample false) NodeIdentity.bob bobRoams
    (by decide +kernel)).last _ 1 r (by decide +kernel) hr ⟨t,ht,beq_iff_eq.mp hk⟩⟩

/-- Two connections from one address, the first of which ends. -/
def sharedAddress : List Call :=
  [.tcp,.event (.connected (Endpoint.sample "a" 0)),.event (.connected (Endpoint.sample "a" 0)),
    .event (.disconnected 1)]

/-- The second one, registered last, is no longer found by its address. -/
theorem shared_address_lost :
    ∃ r, ((Impl.start NodeIdentity.bob).run (Env.sample false) sharedAddress).find 2 = some r ∧
      lastRegistered r.remote.key
        ((Impl.start NodeIdentity.bob).run (Env.sample false) sharedAddress).log = some 2 ∧
      ((Impl.start NodeIdentity.bob).run (Env.sample false) sharedAddress).uriIndex.lookup
        r.remote.key = none ∧
      ¬((Impl.start NodeIdentity.bob).run (Env.sample false) sharedAddress).UriSound := by
  have hbad : (((Impl.start NodeIdentity.bob).run (Env.sample false) sharedAddress).find 2).any
      (fun r => lastRegistered r.remote.key ((Impl.start NodeIdentity.bob).run (Env.sample false)
          sharedAddress).log == some 2 &&
        (((Impl.start NodeIdentity.bob).run (Env.sample false) sharedAddress).uriIndex.lookup
          r.remote.key).isNone && r.routes.any (fun t => t.2.key == r.remote.key)) = true := by
    decide +kernel
  obtain ⟨r,hr,hp⟩ := (Option.any_eq_true _ _).mp hbad
  simp only [Bool.and_eq_true,beq_iff_eq,Option.isNone_iff_eq_none,List.any_eq_true] at hp
  obtain ⟨⟨hlast,hnone⟩,hre⟩ := hp
  refine ⟨r,hr,hlast,hnone,fun hsound => ?_⟩
  have hentry := hsound.last r.remote.key 2 r hlast hr hre
  rw [hnone] at hentry
  cases hentry

end GoodNet
