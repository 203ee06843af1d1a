import GoodNet.StoreReplication
set_option autoImplicit false

/-! The last writer wins, or so the stamps say. They are the times of the imports: a copy of an
old value that arrives late passes for a new one. -/

namespace GoodNet.Store
open Codec Interleaving

/-- The node holds, for every write that has reached it, a value written then or later. -/
def Node.Upheld (nd : Node) : Prop :=
  ∀ k t, (k,t) ∈ nd.heard →
    ∃ r, nd.store.rows.lookup k = some r ∧ t ≤ (nd.prov k).origin.timestampUs

/-- PUTs without a TTL at increasing times, no DELETE, and rows come in by responses only. -/
def PutsInOrder (puts : List UInt64) : Event → Prop
  | .request .put _ raw clock => ∀ kv, putEntry raw = some kv →
      (StorePutPayload.decode raw).ttlS = 0 ∧ ∀ t ∈ puts, t < clock 0
  | .request .delete _ _ _ => False
  | .request .sync _ raw _ => importedEntries raw = []
  | _ => True

/-- The stamps of the entry and of the row it is compared with are in the order in which
the two values were written. -/
def StampsInOrder (nd : Node) (e : Entry) (p : Provenance) (_gotAt _putAt : UInt64) : Prop :=
  ∀ r, nd.store.rows.lookup e.key = some r →
    ((nd.prov e.key).origin.timestampUs < p.origin.timestampUs → r.timestampUs < e.timestampUs) ∧
    (p.origin.timestampUs < (nd.prov e.key).origin.timestampUs → e.timestampUs ≤ r.timestampUs)

instance (puts : List UInt64) : (ev : Event) → Decidable (PutsInOrder puts ev)
  | .request .put _ raw clock =>
    -- goes through `puts`, not through all of `UInt64`
    letI := List.decidableBAll (· < clock 0) puts
    inferInstanceAs (Decidable (∀ kv ∈ putEntry raw,
      (StorePutPayload.decode raw).ttlS = 0 ∧ ∀ t ∈ puts, t < clock 0))
  | .request .delete _ _ _ => inferInstanceAs (Decidable False)
  | .request .sync _ raw _ => inferInstanceAs (Decidable (importedEntries raw = []))
  | .request .get _ _ _ | .request .subscribe _ _ _ | .disconnected _ | .cleanup _ =>
    inferInstanceAs (Decidable True)

instance (nd : Node) (e : Entry) (p : Provenance) (gotAt putAt : UInt64) :
    Decidable (StampsInOrder nd e p gotAt putAt) :=
  inferInstanceAs (Decidable (∀ r ∈ nd.store.rows.lookup e.key, _ ∧ _))

/-- What a row says of itself and of the write it goes back to. -/
structure RowNotes (puts : List UInt64) (nd : Node) (k : Bytes) (r : Row) : Prop where
  permanent : r.ttlS = 0 ∧ r.expiresAt = 0
  known : (nd.prov k).origin.timestampUs ∈ puts
  noted : (k,(nd.prov k).origin.timestampUs) ∈ nd.heard

structure Latest (puts : List UInt64) (nd : Node) : Prop where
  upheld : nd.Upheld
  rows : ∀ k r, nd.store.rows.lookup k = some r → RowNotes puts nd k r

/-- An entry on its way that will not expire. -/
def Dated (puts : List UInt64) (x : Entry × Provenance) : Prop :=
  x.1.ttlS = 0 ∧ x.2.origin.timestampUs ∈ puts

theorem live_permanent {r : Row} (h : r.expiresAt = 0) (nowS : UInt64) :
    live r.expiresAt nowS = true := by
  rw [h,live]
  rfl

theorem expired_permanent {r : Row} (h : r.expiresAt = 0) (nowS : UInt64) :
    expired r.expiresAt nowS = false := by
  rw [h,expired]
  rfl

theorem putsAfter_mem {puts : List UInt64} {t : UInt64} (h : t ∈ puts) (ev : Event) :
    t ∈ putsAfter puts ev := by
  unfold putsAfter
  split
  · split
    · exact List.mem_cons_of_mem _ h
    · exact h
  · exact h

theorem Latest.later {puts : List UInt64} {nd : Node} (h : Latest puts nd) (ev : Event) :
    Latest (putsAfter puts ev) nd where
  upheld := h.upheld
  rows k r hr :=
    { permanent := (h.rows k r hr).permanent
      known := putsAfter_mem (h.rows k r hr).known ev
      noted := (h.rows k r hr).noted }

/-- Only rows and notes count. -/
theorem Latest.congr {puts : List UInt64} {nd nd' : Node} (h : Latest puts nd)
    (hrows : ∀ k, nd'.store.rows.lookup k = nd.store.rows.lookup k) (hprov : nd'.prov = nd.prov)
    (hheard : nd'.heard = nd.heard) : Latest puts nd' where
  upheld k t ht := by
    rw [hrows,hprov]
    exact h.upheld k t (hheard ▸ ht)
  rows k r hr := by
    rw [hrows] at hr
    obtain ⟨hp,hk,hn⟩ := h.rows k r hr
    exact ⟨hp,hprov ▸ hk,by rw [hprov,hheard]; exact hn⟩

/-- A value written at `t` goes into the row of `key`: nothing that the node has heard of for
this key is later. -/
theorem Latest.write {puts : List UInt64} {nd : Node} (h : Latest puts nd) {key : Bytes} {row : Row}
    {p : Provenance} (hperm : row.ttlS = 0 ∧ row.expiresAt = 0)
    (hknown : p.origin.timestampUs ∈ puts)
    (hlater : ∀ r, nd.store.rows.lookup key = some r →
      (nd.prov key).origin.timestampUs ≤ p.origin.timestampUs)
    {nd' : Node} (hrows : nd'.store.rows = nd.store.rows.insert key row)
    (hprov : nd'.prov = Function.update nd.prov key p)
    (hheard : nd'.heard = (key,p.origin.timestampUs) :: nd.heard) : Latest puts nd' := by
  constructor
  · intro k t ht
    rw [hheard] at ht
    by_cases hk : k = key
    · subst hk
      refine ⟨row,by rw [hrows]; exact AList.lookup_insert _,?_⟩
      rw [hprov,Function.update_self]
      rcases List.mem_cons.mp ht with heq | hold
      · cases heq
        exact UInt64.le_refl _
      · obtain ⟨r,hr,hle⟩ := h.upheld k t hold
        exact UInt64.le_trans hle (hlater r hr)
    · rcases List.mem_cons.mp ht with heq | hold
      · cases heq
        exact absurd rfl hk
      · obtain ⟨r,hr,hle⟩ := h.upheld k t hold
        refine ⟨r,by rw [hrows]; exact (AList.lookup_insert_ne hk).trans hr,?_⟩
        rw [hprov,Function.update_of_ne hk]
        exact hle
  · intro k r hr
    rw [hrows] at hr
    by_cases hk : k = key
    · subst hk
      rw [AList.lookup_insert] at hr
      cases hr
      refine ⟨hperm,?_,?_⟩
      · rw [hprov,Function.update_self]
        exact hknown
      · rw [hprov,hheard,Function.update_self]
        exact List.mem_cons_self
    · rw [AList.lookup_insert_ne hk] at hr
      obtain ⟨hp,hk',hn⟩ := h.rows k r hr
      refine ⟨hp,?_,?_⟩
      · rw [hprov,Function.update_of_ne hk]
        exact hk'
      · rw [hprov,hheard,Function.update_of_ne hk]
        exact List.mem_cons_of_mem _ hn

theorem Latest.own {puts : List UInt64} {nd : Node} (h : Latest puts nd) {ev : Event}
    (hev : PutsInOrder puts ev) : Latest (putsAfter puts ev) (nd.own ev) := by
  have hlater := h.later ev
  cases ev with
  | disconnected id => exact hlater.congr (fun _ => rfl) rfl rfl
  | cleanup now =>
    refine hlater.congr (fun k => ?_) rfl rfl
    change (nd.store.rows.cleanupExpired now).1.lookup k = nd.store.rows.lookup k
    cases hr : nd.store.rows.lookup k with
    | some r =>
      exact Rows.cleanupExpired_keeps hr (expired_permanent (h.rows k r hr).permanent.2 _)
    | none =>
      cases hc : (nd.store.rows.cleanupExpired now).1.lookup k with
      | none => rfl
      | some r => exact absurd ((Rows.cleanupExpired_lookup hc).symm.trans hr) (by simp)
  | request kind peer raw clock =>
    have hrows := handle_rows nd.store kind peer raw clock
    cases kind with
    | get => exact hlater.congr (fun k => congrArg (AList.lookup k) hrows) rfl rfl
    | subscribe => exact hlater.congr (fun k => congrArg (AList.lookup k) hrows) rfl rfl
    | delete => cases hev
    | sync =>
      have hnone : importedEntries raw = [] := hev
      rw [hnone] at hrows
      exact hlater.congr (fun k => congrArg (AList.lookup k) hrows) rfl rfl
    | put =>
      cases hput : putEntry raw with
      | none =>
        rw [hput] at hrows
        rw [Node.own_refused hput]
        exact hlater.congr (fun k => congrArg (AList.lookup k) hrows) rfl rfl
      | some kv =>
        obtain ⟨key,value⟩ := kv
        obtain ⟨httl,htime⟩ := hev (key,value) hput
        rw [hput] at hrows
        have hputs : putsAfter puts (.request .put peer raw clock) = clock 0 :: puts := by
          simp [putsAfter,hput]
        rw [Node.own_put hput]
        refine hlater.write ?_ ?_ ?_ hrows rfl rfl
        · refine ⟨httl,?_⟩
          rw [putRow,httl]
          rfl
        · rw [hputs]
          exact List.mem_cons_self
        · intro r hr
          exact UInt64.le_of_lt (htime _ (h.rows key r hr).known)

theorem settled_permanent {puts : List UInt64} {nd : Node} (h : Latest puts nd) {e : Entry}
    {gotAt : UInt64} :
    nd.store.rows.Settled e gotAt ↔
      ∃ r, nd.store.rows.lookup e.key = some r ∧ e.timestampUs ≤ r.timestampUs := by
  constructor
  · rintro ⟨r,hr,_,hle⟩
    exact ⟨r,hr,hle⟩
  · rintro ⟨r,hr,hle⟩
    exact ⟨r,hr,live_permanent (h.rows _ r hr).permanent.2 _,hle⟩

theorem written_permanent {e : Entry} (h : e.ttlS = 0) (putAt : UInt64) :
    (Row.written e.value e.ttlS e.flags putAt).ttlS = 0 ∧
      (Row.written e.value e.ttlS e.flags putAt).expiresAt = 0 := by
  rw [h]
  exact ⟨rfl,rfl⟩

theorem Latest.take {puts : List UInt64} {nd : Node} (h : Latest puts nd) {e : Entry}
    {p : Provenance} (hdated : Dated puts (e,p)) {gotAt putAt : UInt64}
    (horder : StampsInOrder nd e p gotAt putAt) : Latest puts (nd.importEntry e p gotAt putAt) := by
  by_cases hs : nd.store.rows.Settled e gotAt
  · rw [Node.importEntry_settled hs]
    obtain ⟨r,hr,hle⟩ := (settled_permanent h).1 hs
    constructor
    · intro k t ht
      rcases List.mem_cons.mp ht with heq | hold
      · cases heq
        refine ⟨r,hr,UInt64.not_lt.1 (fun hlt => ?_)⟩
        exact absurd ((horder r hr).1 hlt) (UInt64.not_lt.2 hle)
      · exact h.upheld k t hold
    · intro k r' hr'
      obtain ⟨hp,hk,hn⟩ := h.rows k r' hr'
      exact ⟨hp,hk,List.mem_cons_of_mem _ hn⟩
  · rw [Node.importEntry_unsettled hs]
    refine h.write (written_permanent hdated.1 putAt) hdated.2 (fun r hr => ?_) rfl rfl rfl
    refine UInt64.not_lt.1 (fun hlt => hs ?_)
    exact (settled_permanent h).2 ⟨r,hr,(horder r hr).2 hlt⟩

/-- No other order will do. -/
theorem Latest.order_of_upheld {puts : List UInt64} {nd : Node} (h : Latest puts nd) {e : Entry}
    {p : Provenance} {gotAt putAt : UInt64} (hup : (nd.importEntry e p gotAt putAt).Upheld) :
    StampsInOrder nd e p gotAt putAt := by
  intro r hr
  by_cases hs : nd.store.rows.Settled e gotAt
  · rw [Node.importEntry_settled hs] at hup
    obtain ⟨_,_,hle⟩ := hup e.key _ List.mem_cons_self
    obtain ⟨r',hr',hstamp⟩ := (settled_permanent h).1 hs
    cases hr.symm.trans hr'
    exact ⟨fun hlt => absurd hlt (UInt64.not_lt.2 hle),fun _ => hstamp⟩
  · rw [Node.importEntry_unsettled hs] at hup
    obtain ⟨_,_,hle⟩ := hup e.key _ (List.mem_cons_of_mem _ (h.rows _ r hr).noted)
    simp only [Function.update_self] at hle
    refine ⟨fun _ => ?_,fun hlt => absurd hlt (UInt64.not_lt.2 hle)⟩
    refine UInt64.not_le.1 (fun hstamp => hs ?_)
    exact (settled_permanent h).2 ⟨r,hr,hstamp⟩

theorem latest_replicates : Replicates Latest Dated PutsInOrder StampsInOrder where
  node_later _ ev _ h := h.later ev
  entry_later _ ev _ h := ⟨h.1,putsAfter_mem h.2 ev⟩
  own _ _ _ h hev := h.own hev
  serve _ _ k r h hr := ⟨(h.rows k r hr).permanent.1,(h.rows k r hr).known⟩
  take _ _ _ _ _ _ h hdated horder := h.take hdated horder

theorem latest_empty : Latest [] {} where
  upheld _ _ h := by cases h
  rows _ _ h := by cases h

/-- As long as the stamps that are compared are in the order of the writes, no node holds a
value older than a write that has reached it; and an entry on its way keeps it so exactly
if its stamp is in order. -/
theorem latest_write_held (steps : List NetStep)
    (h : Along Net.act (Allowed PutsInOrder StampsInOrder) {} steps) (n : Nat) :
    ((run Net.act {} steps).node n).Upheld ∧
    ∀ p ∈ (run Net.act {} steps).flight, ∀ x ∈ p.entries, ∀ gotAt putAt,
      ((((run Net.act {} steps).node n).importEntry x.1 x.2 gotAt putAt).Upheld ↔
        StampsInOrder ((run Net.act {} steps).node n) x.1 x.2 gotAt putAt) := by
  have hrun := latest_replicates.run latest_empty h
  refine ⟨(hrun.nodes n).upheld,fun p hp x hx gotAt putAt => ⟨?_,?_⟩⟩
  · exact (hrun.nodes n).order_of_upheld
  · exact fun horder => ((hrun.nodes n).take (hrun.entries p hp x hx) horder).upheld

/-- Node 2 has a copy of the value of node 0 when it asks node 1, and then node 0 once more. -/
def newerCopy : List NetStep :=
  [.node 0 (.request .put 9 (putOf [1] [7] 0) (fun _ => 10)),
    .node 0 (.request .sync 2 syncRequest (fun _ => 20)),
    .deliver 0 (fun _ => 21),
    .node 1 (.request .put 9 (putOf [1] [8] 0) (fun _ => 30)),
    .node 1 (.request .sync 2 syncRequest (fun _ => 40)),
    .deliver 0 (fun _ => 41),
    .node 0 (.request .sync 2 syncRequest (fun _ => 50)),
    .deliver 0 (fun _ => 51),
    .node 1 (.request .sync 2 syncRequest (fun _ => 60))]

/-- The copy gives way to the newer value, which stays when the old one comes in again. Another
answer is on its way. -/
theorem latest_write_held_newer :
    ((run Net.act {} newerCopy).node 2).Upheld ∧
    (((run Net.act {} newerCopy).node 2).store.rows.lookup [1]).map Row.value = some [8] ∧
    ((run Net.act {} newerCopy).node 2).heard = [([1],10),([1],30),([1],10)] ∧
    (run Net.act {} newerCopy).flight.map (fun p => p.entries.length) = [1] ∧
    ∀ p ∈ (run Net.act {} newerCopy).flight, ∀ x ∈ p.entries, ∀ gotAt putAt,
      ((((run Net.act {} newerCopy).node 2).importEntry x.1 x.2 gotAt putAt).Upheld ↔
        StampsInOrder ((run Net.act {} newerCopy).node 2) x.1 x.2 gotAt putAt) := by
  obtain ⟨hheld,hentries⟩ := latest_write_held newerCopy (by decide +kernel) 2
  exact ⟨hheld,by decide +kernel,by decide +kernel,by decide +kernel,hentries⟩

/-- Node 0 writes at time 10 and node 1 at time 20, and node 2 asks first the one and then
the other. -/
def lateCopy : List NetStep :=
  [.node 0 (.request .put 9 (putOf [1] [7] 0) (fun _ => 10)),
    .node 1 (.request .put 9 (putOf [1] [8] 0) (fun _ => 20)),
    .node 0 (.request .sync 2 syncRequest (fun _ => 30)),
    .deliver 0 (fun _ => 31),
    .node 1 (.request .sync 2 syncRequest (fun _ => 32)),
    .deliver 0 (fun _ => 33)]

theorem lateCopy_allowed :
    Along Net.act (Allowed PutsInOrder (fun _ _ _ _ _ => True)) {} lateCopy := by
  refine ⟨?_,?_,?_,?_,?_,?_,trivial⟩
  · exact fun _ _ => ⟨by decide +kernel,fun t ht => (by cases ht)⟩
  · exact fun _ _ => ⟨by decide +kernel,fun t ht => List.mem_singleton.1 ht ▸ by decide +kernel⟩
  · exact importedEntries_syncRequest
  · exact fun p _ => Node.eachImport_trivial _ _ _
  · exact importedEntries_syncRequest
  · exact fun p _ => Node.eachImport_trivial _ _ _

/-- The copy of the older value, stamped when it came in, keeps the newer one out. -/
theorem late_copy_wins :
    ¬∀ steps : List NetStep,
      Along Net.act (Allowed PutsInOrder (fun _ _ _ _ _ => True)) {} steps →
        ∀ n, ((run Net.act {} steps).node n).Upheld := by
  intro h
  have hheard : ([1],20) ∈ ((run Net.act {} lateCopy).node 2).heard := by decide +kernel
  obtain ⟨_,_,hle⟩ := h lateCopy lateCopy_allowed 2 [1] 20 hheard
  have hlt : (((run Net.act {} lateCopy).node 2).prov [1]).origin.timestampUs < 20 := by
    decide +kernel
  exact absurd hlt (UInt64.not_lt.2 hle)

end GoodNet.Store
