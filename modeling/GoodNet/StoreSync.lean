import GoodNet.StoreLimits
set_option autoImplicit false

/-! Two stores that answer each other's SYNC requests. An import writes the time of the import
and not the one on the wire, so what an exchange has brought over counts as newer than what it
was copied from. -/

namespace GoodNet.Store
open Codec Interleaving

/-- A live row of the entry's key that is at least as new: the import leaves it alone. -/
def Rows.Settled (rows : Rows) (e : Entry) (now : UInt64) : Prop :=
  ∃ r, rows.lookup e.key = some r ∧ live r.expiresAt (seconds now) = true ∧
    e.timestampUs ≤ r.timestampUs

theorem takes_eq_false_iff {rows : Rows} {e : Entry} {now : UInt64} :
    rows.takes e now = false ↔ rows.Settled e now := by
  simp only [Rows.takes,Rows.get,Rows.Settled]
  cases rows.lookup e.key with
  | none => simp
  | some r =>
    cases hlive : live r.expiresAt (seconds now) with
    | false => simp [hlive]
    | true => simp [hlive,Row.toEntry,UInt64.not_lt]

theorem importEntry_settled {rows : Rows} {e : Entry} {gotAt : UInt64}
    (h : rows.Settled e gotAt) (putAt : UInt64) : rows.importEntry e gotAt putAt = rows := by
  rw [Rows.importEntry,takes_eq_false_iff.2 h]
  rfl

theorem importEntry_unsettled {rows : Rows} {e : Entry} {gotAt : UInt64}
    (h : ¬rows.Settled e gotAt) (putAt : UInt64) :
    rows.importEntry e gotAt putAt =
      rows.insert e.key (Row.written e.value e.ttlS e.flags putAt) := by
  have htakes : rows.takes e gotAt = true := by
    cases hc : rows.takes e gotAt with
    | true => rfl
    | false => exact absurd (takes_eq_false_iff.1 hc) h
  rw [Rows.importEntry,htakes]
  rfl

/-- Every entry is settled at its reading of the clock. -/
def Rows.AllSettled (rows : Rows) (clock : Clock) (es : List Entry) : Prop :=
  ∀ i e, es[i]? = some e → rows.Settled e (clock (2*i))

theorem Rows.AllSettled.tail {rows : Rows} {clock : Clock} {e : Entry} {es : List Entry}
    (h : rows.AllSettled clock (e :: es)) : rows.AllSettled (fun i => clock (i+2)) es :=
  fun i x hx => h (i+1) x hx

theorem importEntries_settled {rows : Rows} {clock : Clock} {es : List Entry}
    (h : rows.AllSettled clock es) : rows.importEntries clock es = rows := by
  induction es generalizing clock with
  | nil => rfl
  | cons e es ih =>
    rw [Rows.importEntries,importEntry_settled (h 0 e rfl)]
    exact ih h.tail

/-- The import wrote the row, at one of its readings. -/
def WrittenAt (clock : Clock) (es : List Entry) (k : Bytes) (r : Row) : Prop :=
  ∃ i e, es[i]? = some e ∧ e.key = k ∧ r = Row.written e.value e.ttlS e.flags (clock (2*i+1))

theorem WrittenAt.tail {clock : Clock} {e : Entry} {es : List Entry} {k : Bytes} {r : Row}
    (h : WrittenAt (fun i => clock (i+2)) es k r) : WrittenAt clock (e :: es) k r := by
  obtain ⟨i,x,hx,hk,hr⟩ := h
  exact ⟨i+1,x,hx,hk,hr⟩

theorem importEntry_lookup {rows : Rows} {e : Entry} {gotAt putAt : UInt64} {k : Bytes} {r : Row}
    (h : (rows.importEntry e gotAt putAt).lookup k = some r) :
    rows.lookup k = some r ∨
      (e.key = k ∧ r = Row.written e.value e.ttlS e.flags putAt) := by
  by_cases hs : rows.Settled e gotAt
  · rw [importEntry_settled hs] at h
    exact .inl h
  · rw [importEntry_unsettled hs] at h
    by_cases hk : k = e.key
    · subst hk
      rw [AList.lookup_insert] at h
      cases h
      exact .inr ⟨rfl,rfl⟩
    · rw [AList.lookup_insert_ne hk] at h
      exact .inl h

/-- What is stored after an import was stored before, or the import wrote it. -/
theorem importEntries_lookup {rows : Rows} {clock : Clock} {es : List Entry} {k : Bytes} {r : Row}
    (h : (rows.importEntries clock es).lookup k = some r) :
    rows.lookup k = some r ∨ WrittenAt clock es k r := by
  induction es generalizing rows clock with
  | nil => exact .inl h
  | cons e es ih =>
    rcases ih h with hrow | hwritten
    · rcases importEntry_lookup hrow with hold | ⟨hk,hr⟩
      · exact .inl hold
      · exact .inr ⟨0,e,rfl,hk,hr⟩
    · exact .inr hwritten.tail

/-- A key that is stored stays stored. -/
theorem importEntries_keeps {rows : Rows} {clock : Clock} {es : List Entry} {k : Bytes} {r : Row}
    (h : rows.lookup k = some r) : ∃ r', (rows.importEntries clock es).lookup k = some r' := by
  induction es generalizing rows clock r with
  | nil => exact ⟨r,h⟩
  | cons e es ih =>
    by_cases hs : rows.Settled e (clock 0)
    · rw [Rows.importEntries,importEntry_settled hs]
      exact ih h
    · rw [Rows.importEntries,importEntry_unsettled hs]
      by_cases hk : k = e.key
      · exact ih (r := Row.written e.value e.ttlS e.flags (clock 1))
          (by rw [hk]; exact AList.lookup_insert rows)
      · exact ih (r := r) ((AList.lookup_insert_ne hk).trans h)

/-- An entry that is not settled makes the import write. -/
theorem importEntries_writes {rows : Rows} {clock : Clock} {es : List Entry}
    (h : ¬rows.AllSettled clock es) :
    ∃ k r, (rows.importEntries clock es).lookup k = some r ∧ WrittenAt clock es k r := by
  induction es generalizing clock with
  | nil => exact absurd (fun i e he => by cases he) h
  | cons e es ih =>
    by_cases hs : rows.Settled e (clock 0)
    · have hrest : ¬rows.AllSettled (fun i => clock (i+2)) es := by
        intro hall
        refine h (fun i x hx => ?_)
        cases i with
        | zero =>
          cases hx
          exact hs
        | succ i => exact hall i x hx
      obtain ⟨k,r,hr,hw⟩ := ih hrest
      refine ⟨k,r,?_,hw.tail⟩
      rw [Rows.importEntries,importEntry_settled hs]
      exact hr
    · have hnew : (rows.importEntry e (clock 0) (clock 1)).lookup e.key =
          some (Row.written e.value e.ttlS e.flags (clock 1)) := by
        rw [importEntry_unsettled hs]
        exact AList.lookup_insert rows
      obtain ⟨r,hr⟩ : ∃ r, ((rows.importEntry e (clock 0) (clock 1)).importEntries
          (fun i => clock (i+2)) es).lookup e.key = some r := importEntries_keeps hnew
      refine ⟨e.key,r,hr,?_⟩
      rcases importEntries_lookup hr with hold | hw
      · rw [hnew] at hold
        cases hold
        exact ⟨0,e,rfl,rfl,rfl⟩
      · exact hw.tail

/-- Every row was written before the time `t`. -/
def Rows.Before (rows : Rows) (t : UInt64) : Prop :=
  ∀ k r, rows.lookup k = some r → r.timestampUs < t

/-- An import that starts when everything stored is older leaves the rows as they were
exactly if every entry is settled. -/
theorem importEntries_same_iff {rows : Rows} {clock : Clock} {es : List Entry}
    (h : ∀ i, rows.Before (clock (2*i+1))) :
    (∀ k, (rows.importEntries clock es).lookup k = rows.lookup k) ↔ rows.AllSettled clock es := by
  constructor
  · intro hsame
    by_contra hnot
    obtain ⟨k,r,hr,i,e,_,_,rfl⟩ := importEntries_writes hnot
    rw [hsame] at hr
    exact absurd (h i k _ hr) (UInt64.lt_irrefl _)
  · intro hall k
    rw [importEntries_settled hall]

/-- Keys and values whose lengths the wire can carry. -/
def Rows.Fits (rows : Rows) : Prop :=
  ∀ k r, rows.lookup k = some r → k.length < 65536 ∧ r.value.length < 65536

theorem importedEntries_fits {raw : Bytes} : ∀ e ∈ importedEntries raw, e.Fits := by
  intro e he
  simp only [importedEntries] at he
  split at he
  · cases he
  · exact parseEntries_fits e he

theorem importEntries_fits {rows : Rows} (h : rows.Fits) (clock : Clock) {es : List Entry}
    (hes : ∀ e ∈ es, e.Fits) : (rows.importEntries clock es).Fits := by
  intro k r hr
  rcases importEntries_lookup hr with hold | ⟨i,e,he,rfl,rfl⟩
  · exact h k r hold
  · exact hes e (List.mem_of_getElem? he)

theorem act_fits (st : StoreHandler) (ev : Event) (h : st.rows.Fits) : (st.act ev).rows.Fits := by
  refine act_rows ev h (fun key raw value now hkey hvalue => ?_) (fun peer raw clock _ => ?_)
  · exact ⟨Nat.lt_of_le_of_lt hkey (by decide),Nat.lt_of_le_of_lt hvalue (by decide)⟩
  · exact importEntries_fits h clock importedEntries_fits

/-- Whatever a store has been sent, it can pass on. -/
theorem reachable_fits (events : List Event) : (run StoreHandler.act {} events).rows.Fits :=
  run_invariant act_fits (fun _ _ h => by cases h) events

/-- The entries of a response are the first 255 of the rows it is made of. -/
theorem importedEntries_syncResponse {rows : Rows} (h : rows.Fits) (sync : StoreSyncPayload)
    (now : UInt64) :
    importedEntries (rows.syncResponse sync now) =
      (rows.getSince sync.sinceTimestamp 256 now).take 255 := by
  have hmin : ∀ l : List Entry, l.take (min l.length 255) = l.take 255 := by
    intro l
    by_cases hl : l.length ≤ 255
    · rw [Nat.min_eq_left hl,List.take_length,List.take_of_length_le hl]
    · rw [Nat.min_eq_right (by omega)]
  rw [Rows.syncResponse]
  simp only [hmin]
  refine importedEntries_encode (.inl rfl) ?_ ?_
  · simp only [UInt8.toNat_ofNat',List.length_take]
    omega
  · intro e he
    obtain ⟨k,r,hr,_,_,rfl⟩ := Rows.mem_getSince (List.mem_of_mem_take he)
    obtain ⟨hk,hv⟩ := h k r hr
    exact ⟨Nat.lt_of_le_of_lt (List.takeWhile_sublist _).length_le hk,hv⟩

/-- A SYNC request to the store `source` and the import of the answer by the other one. -/
structure Exchange where
  source : Bool
  requestId : UInt64 := 0
  since : UInt64
  servedAt : UInt64
  clock : Clock

def Exchange.request (x : Exchange) : StoreSyncPayload where
  requestId := x.requestId
  syncType := 0
  entryCount := 0
  sinceTimestamp := x.since

def Exchange.answered (x : Exchange) (st : StoreHandler) : Handled :=
  st.onSync 0 x.request.encode (fun _ => x.servedAt)

def exchange (s : Bool → StoreHandler) (x : Exchange) : Bool → StoreHandler := fun n =>
  if n = x.source then (x.answered (s x.source)).state
  else (x.answered (s x.source)).sent.foldl
    (fun st m => (st.onSync 0 m.payload x.clock).state) (s n)

/-- The entries the importer is offered. -/
def Exchange.offered (x : Exchange) (rows : Rows) : List Entry :=
  importedEntries (rows.syncResponse x.request x.servedAt)

/-- The exchange takes place from the time `t` on. -/
def Exchange.From (x : Exchange) (t : UInt64) : Prop := t ≤ x.servedAt ∧ ∀ i, x.servedAt ≤ x.clock i

theorem exchange_apply (s : Bool → StoreHandler) (x : Exchange) (n : Bool) :
    exchange s x n = if n = x.source then s n else
      { s n with rows := (s n).rows.importEntries x.clock (x.offered (s x.source).rows) } := by
  have hdecode : StoreSyncPayload.decode x.request.encode = x.request := by
    simpa using StoreSyncPayload.decode_encode x.request []
  have hanswered : x.answered (s x.source) =
      { state := s x.source, result := .consumed,
        sent := [{ peer := 0, type := msgTypeSysStoreSync,
                   payload := (s x.source).rows.syncResponse x.request x.servedAt }] } := by
    simp only [Exchange.answered,StoreHandler.onSync,hdecode,StoreSyncPayload.encode_length]
    rfl
  simp only [exchange,hanswered,List.foldl_cons,List.foldl_nil,onSync_state]
  split
  · rename_i hn
    rw [hn]
  · rfl

/-- No further exchange changes what is stored. -/
def FixedPoint (t : UInt64) (s : Bool → StoreHandler) : Prop :=
  ∀ xs : List Exchange, (∀ x ∈ xs, x.From t) →
    ∀ n k, (run exchange s xs n).rows.lookup k = (s n).rows.lookup k

/-- Whatever one store can still offer is settled in the other from then on. -/
def InStep (t : UInt64) (s : Bool → StoreHandler) : Prop :=
  ∀ x : Exchange, t ≤ x.servedAt → ∀ e ∈ x.offered (s x.source).rows, ∀ now, x.servedAt ≤ now →
    (s (!x.source)).rows.Settled e now

theorem InStep.exchange {t : UInt64} {s : Bool → StoreHandler} (h : InStep t s) {x : Exchange}
    (hx : x.From t) : exchange s x = s := by
  funext n
  rw [exchange_apply]
  split
  · rfl
  · rename_i hn
    have hside : n = !x.source := Bool.eq_not.2 hn
    have hall : (s n).rows.AllSettled x.clock (x.offered (s x.source).rows) :=
      fun i e he => hside ▸ h x hx.1 e (List.mem_of_getElem? he) _ (hx.2 _)
    rw [importEntries_settled hall]

theorem fixedPoint_iff {t : UInt64} {s : Bool → StoreHandler} (h : ∀ n, (s n).rows.Before t) :
    FixedPoint t s ↔ InStep t s := by
  constructor
  · intro hfix x hx e he now hnow
    have hsame := hfix [{ x with clock := fun _ => now }]
      (by simpa [Exchange.From] using ⟨hx,hnow⟩) (!x.source)
    simp only [run,List.foldl_cons,List.foldl_nil,exchange_apply] at hsame
    rw [if_neg (by simp)] at hsame
    have hbefore : ∀ i : Nat, (s (!x.source)).rows.Before now := by
      intro _ k r hr
      have hold := h _ k r hr
      simp only [UInt64.lt_iff_toNat_lt,UInt64.le_iff_toNat_le] at hold hx hnow ⊢
      omega
    obtain ⟨i,hi⟩ := List.getElem?_of_mem he
    exact (importEntries_same_iff hbefore).1 hsame i e hi
  · intro hstep xs hxs n k
    have hrun : run GoodNet.Store.exchange s xs = s := by
      induction xs with
      | nil => rfl
      | cons x xs ih =>
        have hrest := ih (fun y hy => hxs y (List.mem_cons_of_mem x hy))
        rw [run,List.foldl_cons,hstep.exchange (hxs x List.mem_cons_self)]
        exact hrest
    rw [hrun]

theorem toInt64_toInt {a : UInt64} (h : a.toNat < 2^63) : a.toInt64.toInt = a.toNat := by
  change a.toBitVec.toInt = _
  rw [BitVec.toInt_eq_toNat_of_lt]
  · rfl
  · change 2*a.toNat < 2^64
    omega

/-- The timestamp to ask for when the answer is to start with rows stamped `a`. -/
theorem pred_toInt64 {a : UInt64} (h : a.toNat < 2^63) : (a-1).toInt64.toInt = a.toNat-1 := by
  by_cases ha : a = 0
  · subst ha
    decide
  · have hpos : 0 < a.toNat := Nat.pos_of_ne_zero (fun hc => ha (UInt64.toNat_inj.1 hc))
    have hone : (1 : UInt64).toNat ≤ a.toNat := hpos
    have hsub : (a-1).toNat = a.toNat-1 :=
      UInt64.toNat_sub_of_le _ _ (UInt64.le_iff_toNat_le.2 hone)
    rw [toInt64_toInt (by omega),hsub]
    omega

/-- A live row gets into an answer, or rows that are stamped no earlier go first. -/
theorem offered_of_live {rows : Rows} (hfits : rows.Fits) {k : Bytes} {r : Row}
    (hr : rows.lookup k = some r) {now : UInt64} (hlive : live r.expiresAt (seconds now) = true)
    {x : Exchange} (hnow : x.servedAt = now) (hsince : x.since.toInt64 < r.timestampUs.toInt64) :
    ∃ k' r', rows.lookup k' = some r' ∧ x.since.toInt64 < r'.timestampUs.toInt64 ∧
      live r'.expiresAt (seconds now) = true ∧ r'.toEntry k' ∈ x.offered rows := by
  subst hnow
  have hmem : (⟨k,r⟩ : Σ _ : Bytes, Row) ∈ rows.since x.since x.servedAt :=
    Rows.mem_since.2 ⟨hr,hsince,hlive⟩
  rw [Exchange.offered,importedEntries_syncResponse hfits]
  obtain ⟨y,ys,hys⟩ := List.exists_cons_of_ne_nil (List.ne_nil_of_mem hmem)
  have hy : y ∈ rows.since x.since x.servedAt := hys ▸ List.mem_cons_self
  obtain ⟨hrow,hnew,hylive⟩ := Rows.mem_since.1 hy
  refine ⟨y.1,y.2,hrow,hnew,hylive,?_⟩
  have hlim : (256 : UInt32).toNat < 2^31 := by decide
  have hget : rows.getSince x.request.sinceTimestamp 256 x.servedAt =
      (y :: ys.take 255).map (fun z => z.2.toEntry z.1) := by
    simp only [Rows.getSince,limited,Exchange.request,hys]
    rfl
  rw [hget]
  exact List.mem_cons_self

/-- A live row newer than all that is live in the other store will be taken over. -/
theorem not_inStep_of_newer {t u : UInt64} {s : Bool → StoreHandler} {n : Bool} {k : Bytes}
    {r : Row}
    (hfits : (s n).rows.Fits)
    (hsmall : ∀ k r, (s n).rows.lookup k = some r → r.timestampUs.toNat < 2^63)
    (hr : (s n).rows.lookup k = some r) (hlive : live r.expiresAt (seconds t) = true)
    (hnew : u ≤ r.timestampUs)
    (hold : ∀ k r, (s (!n)).rows.lookup k = some r → live r.expiresAt (seconds t) = true →
      r.timestampUs < u) : ¬InStep t s := by
  intro hstep
  have hsince : (r.timestampUs-1).toInt64 < r.timestampUs.toInt64 := by
    rw [Int64.lt_iff_toInt_lt,pred_toInt64 (hsmall k r hr),toInt64_toInt (hsmall k r hr)]
    omega
  obtain ⟨k',r',hr',hs',_,hoffered⟩ := offered_of_live hfits hr hlive
    (x := { source := n, since := r.timestampUs-1, servedAt := t, clock := fun _ => t }) rfl hsince
  obtain ⟨q,hq,hqlive,hle⟩ := hstep _ (UInt64.le_refl t) _ hoffered t (UInt64.le_refl t)
  have hqold := hold _ q hq hqlive
  have hge : r.timestampUs.toNat ≤ r'.timestampUs.toNat := by
    rw [Int64.lt_iff_toInt_lt,pred_toInt64 (hsmall k r hr),toInt64_toInt (hsmall k' r' hr')] at hs'
    omega
  simp only [Row.toEntry,UInt64.lt_iff_toNat_lt,UInt64.le_iff_toNat_le] at hle hqold hnew
  omega

/-- What an exchange leaves in the store that imports was there before or bears one of its
readings; the other store is as it was. -/
theorem exchange_lookup {s : Bool → StoreHandler} {x : Exchange} {n : Bool} {k : Bytes} {r : Row}
    (h : (exchange s x n).rows.lookup k = some r) :
    (s n).rows.lookup k = some r ∨ (n = !x.source ∧ ∃ i, r.timestampUs = x.clock i) := by
  rw [exchange_apply] at h
  split at h
  · exact .inl h
  · rename_i hn
    rcases importEntries_lookup h with hold | ⟨i,_,_,_,rfl⟩
    · exact .inl hold
    · exact .inr ⟨Bool.eq_not.2 hn,2*i+1,rfl⟩

theorem exchange_fits {s : Bool → StoreHandler} (h : ∀ n, (s n).rows.Fits) (x : Exchange)
    (n : Bool) : (exchange s x n).rows.Fits := by
  rw [exchange_apply]
  split
  · exact h n
  · exact importEntries_fits (h n) x.clock importedEntries_fits

/-- An exchange in both directions: everything stored is older than `t`, the first half is
over before `u` and the second before `v`. -/
structure TwoWay (s : Bool → StoreHandler) (x y : Exchange) (t u v : UInt64) : Prop where
  fits : ∀ n, (s n).rows.Fits
  before : ∀ n, (s n).rows.Before t
  first : x.From t
  first_over : ∀ i, x.clock i < u
  back : y.source = !x.source
  second : y.From u
  second_over : ∀ i, y.clock i < v
  clock : v.toNat < 2^63

section
variable {s : Bool → StoreHandler} {x y : Exchange} {t u v : UInt64}

theorem TwoWay.times (h : TwoWay s x y t u v) : t < u ∧ u < v := by
  have hxlow := h.first.1
  have hxclock := h.first.2 0
  have hxhigh := h.first_over 0
  have hylow := h.second.1
  have hyclock := h.second.2 0
  have hyhigh := h.second_over 0
  simp only [UInt64.lt_iff_toNat_lt,UInt64.le_iff_toNat_le] at *
  omega

/-- After an exchange in both directions, a row of the store that answered first is from
before it or from its second half. -/
theorem TwoWay.answered_first (h : TwoWay s x y t u v) {k : Bytes} {r : Row}
    (hr : (run exchange s [x,y] x.source).rows.lookup k = some r) :
    (r.timestampUs < t ∨ u ≤ r.timestampUs) ∧ r.timestampUs < v := by
  obtain ⟨htu,huv⟩ := h.times
  rcases exchange_lookup (s := exchange s x) (x := y) hr with hr | ⟨_,i,hi⟩
  · rcases exchange_lookup hr with hold | ⟨hc,_⟩
    · have hlt := h.before _ k r hold
      simp only [UInt64.lt_iff_toNat_lt,UInt64.le_iff_toNat_le] at *
      omega
    · exact absurd hc (by simp)
  · have hstart := h.second.1
    have hlow := h.second.2 i
    have hhigh := h.second_over i
    rw [hi]
    simp only [UInt64.lt_iff_toNat_lt,UInt64.le_iff_toNat_le] at *
    omega

theorem TwoWay.answered_second (h : TwoWay s x y t u v) {k : Bytes} {r : Row}
    (hr : (run exchange s [x,y] (!x.source)).rows.lookup k = some r) : r.timestampUs < u := by
  rcases exchange_lookup (s := exchange s x) (x := y) hr with hr | ⟨hc,_⟩
  · rcases exchange_lookup hr with hold | ⟨_,i,hi⟩
    · have hlt := h.before _ k r hold
      have htu := h.times.1
      rw [UInt64.lt_iff_toNat_lt] at *
      omega
    · rw [hi]
      exact h.first_over i
  · exact absurd hc (by simp [h.back])

theorem TwoWay.over (h : TwoWay s x y t u v) (n : Bool) :
    (run exchange s [x,y] n).rows.Before v := by
  intro k r hr
  rcases Bool.eq_or_eq_not n x.source with rfl | rfl
  · exact (h.answered_first hr).2
  · have hlt := h.answered_second hr
    have huv := h.times.2
    rw [UInt64.lt_iff_toNat_lt] at *
    omega

/-- Once the exchange has brought over a row that is still alive, the stores are out of step. -/
theorem TwoWay.not_inStep (h : TwoWay s x y t u v) {n : Bool} {k : Bytes} {r : Row}
    (hr : (run exchange s [x,y] n).rows.lookup k = some r) (hnew : t ≤ r.timestampUs)
    (hlive : live r.expiresAt (seconds v) = true) : ¬InStep v (run exchange s [x,y]) := by
  have hfits : ∀ m, (run exchange s [x,y] m).rows.Fits := exchange_fits (exchange_fits h.fits x) y
  have hsmall : ∀ m k r, (run exchange s [x,y] m).rows.lookup k = some r →
      r.timestampUs.toNat < 2^63 := by
    intro m k r hr
    have hlt := h.over m k r hr
    have hclock := h.clock
    rw [UInt64.lt_iff_toNat_lt] at hlt
    omega
  by_cases hlate : ∃ k r, (run exchange s [x,y] x.source).rows.lookup k = some r ∧
      u ≤ r.timestampUs ∧ live r.expiresAt (seconds v) = true
  · -- The second half wrote it: everything in the other store is older than that half.
    obtain ⟨k,r,hr,hu,hlive⟩ := hlate
    exact not_inStep_of_newer (hfits _) (hsmall _) hr hlive hu
      (fun k r hr _ => h.answered_second hr)
  · -- Only the first half wrote anything that lives: the other store's live rows are old.
    rcases Bool.eq_or_eq_not n x.source with rfl | rfl
    · rcases (h.answered_first hr).1 with hold | hu
      · rw [UInt64.lt_iff_toNat_lt] at hold
        rw [UInt64.le_iff_toNat_le] at hnew
        omega
      · exact absurd ⟨k,r,hr,hu,hlive⟩ hlate
    · refine not_inStep_of_newer (hfits _) (hsmall _) hr hlive hnew (fun k r hr hlive' => ?_)
      rw [Bool.not_not] at hr
      rcases (h.answered_first hr).1 with hold | hu
      · exact hold
      · exact absurd ⟨k,r,hr,hu,hlive'⟩ hlate

end

/-- Importing a payload a second time leaves what is stored as the first time left it. -/
def SameTwice (st : StoreHandler) (peer : Nat) (raw : Bytes) (first second : Clock) : Prop :=
  ∀ k, ((st.onSync peer raw first).state.onSync peer raw second).state.rows.lookup k =
    (st.onSync peer raw first).state.rows.lookup k

theorem sameTwice_iff {st : StoreHandler} {peer : Nat} {raw : Bytes} {first second : Clock}
    (h : ∀ i, (st.onSync peer raw first).state.rows.Before (second (2*i+1))) :
    SameTwice st peer raw first second ↔
      (st.onSync peer raw first).state.rows.AllSettled second (importedEntries raw) := by
  rw [SameTwice]
  simp only [onSync_state] at h ⊢
  exact importEntries_same_iff h

/-- When importing again changes nothing, and when two stores that have answered each other
are done: exactly if every entry at hand is settled. It never is once the exchange has
brought over a row that lives on. -/
theorem sync_settles_iff (st : StoreHandler) (peer : Nat) (raw : Bytes) (first second : Clock)
    (hsecond : ∀ i, (st.onSync peer raw first).state.rows.Before (second (2*i+1)))
    (s : Bool → StoreHandler) (x y : Exchange) (t u v : UInt64) (h : TwoWay s x y t u v) :
    (SameTwice st peer raw first second ↔
      (st.onSync peer raw first).state.rows.AllSettled second (importedEntries raw)) ∧
    (FixedPoint v (run exchange s [x,y]) ↔ InStep v (run exchange s [x,y])) ∧
    (∀ n k r, (run exchange s [x,y] n).rows.lookup k = some r → t ≤ r.timestampUs →
      live r.expiresAt (seconds v) = true → ¬FixedPoint v (run exchange s [x,y])) := by
  have hfix := fixedPoint_iff h.over
  refine ⟨sameTwice_iff hsecond,hfix,fun n k r hr hnew hlive => ?_⟩
  rw [hfix]
  exact h.not_inStep hr hnew hlive

/-- One store with a row that was written at time 5, and an empty one. -/
def oneRow : Bool → StoreHandler
  | false => { rows := (∅ : Rows).insert [1] (Row.written [2] 0 0 5) }
  | true => {}

/-- A full response of one store at `now`, imported right away. -/
def fullSync (source : Bool) (now : UInt64) : Exchange where
  source := source
  since := 0
  servedAt := now
  clock := fun _ => now

theorem oneRow_lookup {n : Bool} {k : Bytes} {r : Row} (h : (oneRow n).rows.lookup k = some r) :
    k = [1] ∧ r = Row.written [2] 0 0 5 := by
  cases n with
  | true => cases h
  | false =>
    by_cases hk : k = [1]
    · subst hk
      rw [oneRow,AList.lookup_insert] at h
      cases h
      exact ⟨rfl,rfl⟩
    · rw [oneRow,AList.lookup_insert_ne hk] at h
      cases h

theorem oneRow_twoWay : TwoWay oneRow (fullSync false 10) (fullSync true 20) 6 11 21 where
  fits := by
    intro n k r hr
    obtain ⟨rfl,rfl⟩ := oneRow_lookup hr
    decide
  before := by
    intro n k r hr
    obtain ⟨rfl,rfl⟩ := oneRow_lookup hr
    decide
  first := ⟨by decide,fun _ => UInt64.le_refl 10⟩
  first_over := fun _ => (by decide : (10 : UInt64) < 11)
  back := rfl
  second := ⟨by decide,fun _ => UInt64.le_refl 20⟩
  second_over := fun _ => (by decide : (20 : UInt64) < 21)
  clock := by decide

/-- An entry from a clock that runs ahead. -/
def early : Entry where
  key := [1]
  value := [2]
  timestampUs := 100

theorem early_before : ∀ i : Nat,
    (StoreHandler.onSync {} 7 (syncOf early) (fun _ => 5)).state.rows.Before
      ((fun _ => 6 : Clock) (2*i+1)) := by
  intro i k r hr
  rw [onSync_state] at hr
  rcases importEntries_lookup hr with hold | ⟨_,_,_,_,rfl⟩
  · cases hold
  · exact (by decide : (5 : UInt64) < 6)

theorem sync_settles_iff_sample :
    (SameTwice {} 7 (syncOf early) (fun _ => 5) (fun _ => 6) ↔
      (StoreHandler.onSync {} 7 (syncOf early) (fun _ => 5)).state.rows.AllSettled (fun _ => 6)
        (importedEntries (syncOf early))) ∧
    (FixedPoint 21 (run exchange oneRow [fullSync false 10,fullSync true 20]) ↔
      InStep 21 (run exchange oneRow [fullSync false 10,fullSync true 20])) ∧
    (∀ n k r, (run exchange oneRow [fullSync false 10,fullSync true 20] n).rows.lookup k = some r →
      6 ≤ r.timestampUs → live r.expiresAt (seconds 21) = true →
      ¬FixedPoint 21 (run exchange oneRow [fullSync false 10,fullSync true 20])) :=
  sync_settles_iff {} 7 (syncOf early) (fun _ => 5) (fun _ => 6) early_before oneRow
    (fullSync false 10) (fullSync true 20) 6 11 21 oneRow_twoWay

/-- Both halves of the law fail: an entry from the future is taken over every time it comes, and
two stores that have answered each other in full go on taking over each other's rows. -/
theorem sync_never_settles :
    (¬∀ (st : StoreHandler) (peer : Nat) (raw : Bytes) (first second : Clock),
      (∀ i j, first i < second j) → SameTwice st peer raw first second) ∧
    (¬∀ (s : Bool → StoreHandler) (x y : Exchange) (t u v : UInt64), TwoWay s x y t u v →
      x.since = 0 → y.since = 0 → FixedPoint v (run exchange s [x,y])) := by
  constructor
  · intro h
    have hsame := h {} 7 (syncOf early) (fun _ => 5) (fun _ => 6) (fun _ _ => by decide) [1]
    exact absurd hsame (by decide +kernel)
  · intro h
    have hsame := h oneRow (fullSync false 10) (fullSync true 20) 6 11 21 oneRow_twoWay rfl rfl
      [fullSync false 30] (by simp [Exchange.From,fullSync]) true [1]
    exact absurd hsame (by decide +kernel)

end GoodNet.Store
