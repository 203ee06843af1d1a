import GoodNet.StoreLifetime
set_option autoImplicit false

/-! How long the table shows an entry. Beside it runs a table that is never cleaned and whose
entries are shown by what they were put with, in integers. -/

namespace GoodNet.Store
open Codec Interleaving

/-- It was put without a TTL, or the TTL has not run out since. -/
def Row.Visible (r : Row) (now : UInt64) : Prop :=
  r.ttlS = 0 ∨ (seconds now).toNat < (seconds r.timestampUs).toNat+r.ttlS.toNat

instance (r : Row) (now : UInt64) : Decidable (r.Visible now) :=
  inferInstanceAs (Decidable (_ ∨ _))

def Row.permanent (r : Row) : Row := { r with expiresAt := 0 }

def lasting (x : Σ _ : Bytes, Row) : Σ _ : Bytes, Row := ⟨x.1,x.2.permanent⟩

def Rows.visible (rows : Rows) (now : UInt64) : List (Σ _ : Bytes, Row) :=
  rows.entries.filter (fun x => x.2.Visible now)

/-- The rows that are to be seen at a time, as rows that never expire. -/
def Rows.shown (rows : Rows) (now : UInt64) : Rows where
  entries := (rows.visible now).map lasting
  nodupKeys := by
    have hkeys : ((rows.visible now).map lasting).map Sigma.fst =
        (rows.visible now).map Sigma.fst := List.map_map
    rw [List.NodupKeys,List.keys,hkeys]
    exact rows.nodupKeys.sublist List.filter_sublist

inductive StoreOp
  | put (kv : Option (Bytes × Bytes)) (ttlS : UInt64) (flags : UInt8)
  | get (key : Option Bytes)
  | getPrefix (key : Option Bytes) (maxResults : UInt32)
  | getSince (sinceTimestamp : UInt64) (maxResults : UInt32)
  | del (key : Option Bytes)
  | cleanupExpired

/-- A call and what the clock shows in it. -/
structure Call where
  op : StoreOp
  now : UInt64

/-- The entries that a query returns. -/
def Rows.query (rows : Rows) (op : StoreOp) (now : UInt64) : List Entry :=
  match op with
  | .get key => (rows.get key now).toList
  | .getPrefix key n => rows.getPrefix key n now
  | .getSince since n => rows.getSince since n now
  | _ => []

/-- The table, what was put and neither overwritten nor deleted since, and the last time. -/
structure Shelf where
  rows : Rows := ∅
  written : Rows := ∅
  clock : UInt64 := 0

def Shelf.act (s : Shelf) (c : Call) : Shelf :=
  match c.op with
  | .put kv ttlS flags =>
    ⟨(s.rows.put kv ttlS flags c.now).1,(s.written.put kv ttlS flags c.now).1,c.now⟩
  | .del key => ⟨(s.rows.del key).1,(s.written.del key).1,c.now⟩
  | .cleanupExpired => ⟨(s.rows.cleanupExpired c.now).1,s.written,c.now⟩
  | _ => { s with clock := c.now }

def Shelf.Monotone (s : Shelf) (c : Call) : Prop := s.clock ≤ c.now

instance (s : Shelf) (c : Call) : Decidable (s.Monotone c) :=
  inferInstanceAs (Decidable (s.clock ≤ c.now))

/-- The call does what it is to do. What is put is returned until its TTL runs out; a query
returns what it would if the table held the visible entries for ever; a deletion says
whether the entry was visible; and a cleanup removes what is not, which no later query returns. -/
def Shelf.Answers (s : Shelf) (c : Call) : Prop :=
  match c.op with
  | .put none _ _ => True
  | .put (some (key,_)) ttlS _ => ∀ u, c.now ≤ u →
    (((s.act c).rows.get (some key) u).isSome = true ↔
      ttlS = 0 ∨ (seconds u).toNat < (seconds c.now).toNat+ttlS.toNat)
  | .del key => (s.rows.del key).2 = ((s.written.shown c.now).del key).2
  | .cleanupExpired =>
    (s.rows.cleanupExpired c.now).1.entries = s.rows.visible c.now ∧
    ∀ op u, c.now ≤ u → (s.rows.cleanupExpired c.now).1.query op u = s.rows.query op u
  | op => s.rows.query op c.now = (s.written.shown c.now).query op c.now

/-- There is no TTL, or the second it ends in is below `2^63`, or it is `2^64`, where the sum
becomes the mark of an entry that never expires. -/
def Countable (now ttlS : UInt64) : Prop :=
  ttlS = 0 ∨ (seconds now).toNat+ttlS.toNat < 2^63 ∨ (seconds now).toNat+ttlS.toNat = 2^64

/-- The TTL can be counted to its end, and no row that is deleted has expired before. -/
def Shelf.InTime (s : Shelf) (c : Call) : Prop :=
  match c.op with
  | .put (some _) ttlS _ => Countable c.now ttlS
  | .del (some key) => ∀ r, s.rows.lookup key = some r → r.Visible c.now
  | _ => True

theorem seconds_lt (us : UInt64) : (seconds us).toNat < 2^45 := by
  have hdiv : (seconds us).toNat = us.toNat/1000000 := UInt64.toNat_div us 1000000
  have hlt := us.toNat_lt
  omega

theorem seconds_toInt64 (us : UInt64) : (seconds us).toInt64.toInt = (seconds us).toNat :=
  toInt64_toInt (Nat.lt_trans (seconds_lt us) (by decide))

/-- Where the TTL can be counted, the row has the mark, or its last second is a positive number. -/
theorem expiry_cases {now ttlS : UInt64} (h : Countable now ttlS) :
    expiry now ttlS = 0 ∧ (ttlS = 0 ∨ (seconds now).toNat+ttlS.toNat = 2^64) ∨
      ttlS ≠ 0 ∧ (expiry now ttlS).toNat = (seconds now).toNat+ttlS.toNat ∧
        0 < (expiry now ttlS).toNat ∧ (expiry now ttlS).toNat < 2^63 := by
  by_cases hzero : ttlS = 0
  · subst hzero
    exact .inl ⟨rfl,.inl rfl⟩
  · have hpos : 0 < ttlS := UInt64.pos_iff_ne_zero.2 hzero
    have hpos' : 0 < ttlS.toNat := UInt64.lt_iff_toNat_lt.1 hpos
    rcases h with h | h | h
    · exact absurd h hzero
    · have hsum := expiry_toNat hpos h
      exact .inr ⟨hzero,hsum,by omega,by omega⟩
    · refine .inl ⟨?_,.inr h⟩
      rw [expiry,if_pos hpos,← UInt64.toNat_inj,UInt64.toNat_add,h]
      rfl

theorem live_expiry {now ttlS : UInt64} (h : Countable now ttlS) (u : UInt64) :
    live (expiry now ttlS) (seconds u) = true ↔
      ttlS = 0 ∨ (seconds u).toNat < (seconds now).toNat+ttlS.toNat := by
  have hu := seconds_lt u
  rcases expiry_cases h with ⟨hmark,hwhy⟩ | ⟨hzero,hsum,hpos,hlt⟩
  · rw [hmark]
    refine iff_of_true rfl (hwhy.imp_right fun hwrap => ?_)
    omega
  · rw [live_iff hpos hlt,seconds_toInt64,hsum]
    simp only [hzero,false_or]
    omega

/-- What is not shown any more is what a cleanup removes. -/
theorem expired_expiry {now ttlS : UInt64} (h : Countable now ttlS) (u : UInt64) :
    expired (expiry now ttlS) (seconds u) = !live (expiry now ttlS) (seconds u) := by
  rcases expiry_cases h with ⟨hmark,_⟩ | ⟨_,_,hpos,hlt⟩
  · rw [hmark]
    rfl
  · have hne : expiry now ttlS ≠ 0 := by
      intro hz
      rw [hz] at hpos
      exact absurd hpos (by decide)
    have hmark : (expiry now ttlS == 0) = false := beq_false_of_ne hne
    have hsign : decide ((0 : Int64) < (expiry now ttlS).toInt64) = true := by
      rw [decide_eq_true_eq,Int64.lt_iff_toInt_lt,toInt64_toInt hlt]
      exact Int.natCast_pos.2 hpos
    rw [expired,live,hmark,hsign,Bool.true_and,Bool.false_or,← decide_not]
    exact decide_eq_decide.2 Int64.not_lt.symm

theorem toInt64_neg {a : UInt64} (h : 2^63 ≤ a.toNat) : a.toInt64.toInt < 0 := by
  have hlt := a.toNat_lt
  have hcond : a.toInt64.toInt =
      if 2*a.toNat < 2^64 then (a.toNat : Int) else a.toNat-(2^64 : Nat) :=
    BitVec.toInt_eq_toNat_cond a.toBitVec
  rw [hcond,if_neg (by omega)]
  omega

/-- A TTL that cannot be counted ends at once. -/
theorem countable_of_live {now ttlS : UInt64}
    (h : live (expiry now ttlS) (seconds now) = true) : Countable now ttlS := by
  have hs := seconds_lt now
  have ht := ttlS.toNat_lt
  by_cases hzero : ttlS = 0
  · exact .inl hzero
  · have hpos : 0 < ttlS := UInt64.pos_iff_ne_zero.2 hzero
    have hsum : (expiry now ttlS).toNat = ((seconds now).toNat+ttlS.toNat)%2^64 := by
      rw [expiry,if_pos hpos,UInt64.toNat_add]
    rw [live,Bool.or_eq_true,beq_iff_eq,decide_eq_true_eq,Int64.lt_iff_toInt_lt,
      seconds_toInt64] at h
    rcases h with hmark | hlater
    · rw [hmark] at hsum
      have hwrap : ((seconds now).toNat+ttlS.toNat)%2^64 = 0 := hsum.symm
      have hpos' : 0 < ttlS.toNat := UInt64.lt_iff_toNat_lt.1 hpos
      exact .inr (.inr (by omega))
    · by_cases hsmall : (expiry now ttlS).toNat < 2^63
      · rw [toInt64_toInt hsmall] at hlater
        exact .inr (.inl (by omega))
      · have hneg := toInt64_neg (Nat.le_of_not_lt hsmall)
        omega

/-- The row expires as it was put, and its TTL can be counted. -/
structure Row.Counted (r : Row) : Prop where
  expires : r.expiresAt = expiry r.timestampUs r.ttlS
  countable : Countable r.timestampUs r.ttlS

theorem Row.Counted.live {r : Row} (h : r.Counted) (u : UInt64) :
    live r.expiresAt (seconds u) = decide (r.Visible u) := by
  rw [Bool.eq_iff_iff,decide_eq_true_eq,h.expires]
  exact live_expiry h.countable u

theorem Row.Counted.expired {r : Row} (h : r.Counted) (u : UInt64) :
    expired r.expiresAt (seconds u) = !decide (r.Visible u) := by
  rw [← h.live u,h.expires]
  exact expired_expiry h.countable u

theorem limited_map {α β : Type} (f : α → β) (n : UInt32) (l : List α) :
    limited n (l.map f) = (limited n l).map f := by
  unfold limited
  split
  · exact List.map_take.symm
  · rfl

/-- A selection in order returns of the visible rows what it returns of all. -/
theorem selected_visible {l : List (Σ _ : Bytes, Row)} (hl : ∀ x ∈ l, x.2.Counted) (u : UInt64)
    {p : (Σ _ : Bytes, Row) → Bool} (hp : ∀ x, p (lasting x) = p x)
    {rel : (Σ _ : Bytes, Row) → (Σ _ : Bytes, Row) → Prop} [DecidableRel rel]
    (hrel : ∀ x y, rel x y ↔ rel (lasting x) (lasting y)) (n : UInt32) :
    (limited n ((((l.filter (fun x => x.2.Visible u)).map lasting).filter (fun x =>
      p x && live x.2.expiresAt (seconds u))).insertionSort rel)).map (fun x => x.2.toEntry x.1) =
    (limited n ((l.filter (fun x =>
      p x && live x.2.expiresAt (seconds u))).insertionSort rel)).map
        (fun x => x.2.toEntry x.1) := by
  have hkept : ((l.filter (fun x => x.2.Visible u)).map lasting).filter (fun x =>
      p x && Store.live x.2.expiresAt (seconds u)) =
      (l.filter (fun x => p x && Store.live x.2.expiresAt (seconds u))).map lasting := by
    rw [List.filter_map,List.filter_filter]
    refine congrArg _ (List.filter_congr fun x hx => ?_)
    rw [(hl x hx).live u,Function.comp,hp]
    exact congrArg (· && _) (Bool.and_true _)
  rw [hkept,← List.map_insertionSort rel rel lasting _ (fun a _ b _ => hrel a b),limited_map,
    List.map_map]
  rfl

theorem Rows.mem_entries {rows : Rows} {k : Bytes} {r : Row} :
    (⟨k,r⟩ : Σ _ : Bytes, Row) ∈ rows.entries ↔ rows.lookup k = some r :=
  AList.mem_lookup_iff.symm

theorem Rows.shown_lookup (rows : Rows) (k : Bytes) (u : UInt64) :
    (rows.shown u).lookup k =
      ((rows.lookup k).filter (fun r => r.Visible u)).map Row.permanent := by
  refine Option.ext fun r => ?_
  rw [← Option.mem_def,AList.mem_lookup_iff,Option.map_eq_some_iff]
  constructor
  · intro hmem
    obtain ⟨⟨k',r'⟩,hx,heq⟩ := List.mem_map.1 hmem
    obtain ⟨hrow,hvisible⟩ := List.mem_filter.1 hx
    cases heq
    exact ⟨r',Option.filter_eq_some_iff.2 ⟨mem_entries.1 hrow,hvisible⟩,rfl⟩
  · rintro ⟨r',hr',rfl⟩
    obtain ⟨hrow,hvisible⟩ := Option.filter_eq_some_iff.1 hr'
    exact List.mem_map.2 ⟨⟨k,r'⟩,List.mem_filter.2 ⟨mem_entries.2 hrow,hvisible⟩,rfl⟩

/-- A query returns what it would if the table held the visible rows for ever. -/
theorem Rows.query_shown {rows : Rows} (h : ∀ x ∈ rows.entries, x.2.Counted) (op : StoreOp)
    (u : UInt64) : rows.query op u = (rows.shown u).query op u := by
  cases op with
  | put kv ttlS flags => rfl
  | del key => rfl
  | cleanupExpired => rfl
  | get key =>
    cases key with
    | none => rfl
    | some k =>
      unfold query get
      simp only [shown_lookup]
      cases hrow : rows.lookup k with
      | none => rfl
      | some r =>
        have hlive : Store.live r.expiresAt (seconds u) = decide (r.Visible u) :=
          (h ⟨k,r⟩ (mem_entries.2 hrow)).live u
        simp only [hlive,Option.filter_some]
        by_cases hv : r.Visible u
        · simp only [hv,decide_true,if_true]
          rfl
        · simp only [hv,decide_false,Bool.false_eq_true,if_false]
          rfl
  | getPrefix key n =>
    cases key with
    | none => rfl
    | some k =>
      exact (selected_visible h u (fun _ => rfl) (fun _ _ => Iff.rfl) _).symm
  | getSince since n =>
    have hreverse : (rows.shown u).entries.reverse =
        (rows.entries.reverse.filter (fun x => x.2.Visible u)).map lasting := by
      rw [List.filter_reverse,List.map_reverse]
      rfl
    unfold query getSince Rows.since
    rw [hreverse]
    exact (selected_visible (fun x hx => h x (List.mem_reverse.1 hx)) u (fun _ => rfl)
      (fun _ _ => Iff.rfl) _).symm

theorem Rows.shown_congr {rows written : Rows} {u : UInt64}
    (h : rows.visible u = written.visible u) : rows.shown u = written.shown u :=
  AList.ext (congrArg (List.map lasting) h)

theorem erase_entries (rows : Rows) (k : Bytes) :
    (rows.erase k).entries = rows.entries.filter (fun x => x.1 ≠ k) := by
  have hkerase : ∀ l : List (Σ _ : Bytes, Row), l.NodupKeys →
      l.kerase k = l.filter (fun x => x.1 ≠ k) := by
    intro l hl
    induction l with
    | nil => rfl
    | cons x l ih =>
      obtain ⟨hfirst,hrest⟩ := List.nodupKeys_cons.1 hl
      by_cases hk : k = x.1
      · have hall : l.filter (fun y => y.1 ≠ k) = l := by
          refine List.filter_eq_self.2 fun y hy => decide_eq_true ?_
          rintro rfl
          exact hfirst (hk ▸ List.mem_keys_of_mem hy)
        rw [List.kerase_cons_eq hk,List.filter_cons_of_neg (by simp [hk]),hall]
      · rw [List.kerase_cons_ne hk,List.filter_cons_of_pos (by simpa using Ne.symm hk),ih hrest]
  exact hkerase rows.entries rows.nodupKeys

theorem erase_visible (rows : Rows) (k : Bytes) (u : UInt64) :
    Rows.visible (rows.erase k) u = (rows.visible u).filter (fun x => x.1 ≠ k) := by
  rw [Rows.visible,erase_entries,List.filter_comm]
  rfl

theorem insert_visible {rows written : Rows} {u : UInt64} (h : rows.visible u = written.visible u)
    (k : Bytes) (r : Row) :
    Rows.visible (rows.insert k r) u = Rows.visible (written.insert k r) u := by
  have herase : (Rows.visible (rows.erase k) u) = Rows.visible (written.erase k) u := by
    rw [erase_visible,erase_visible,h]
  unfold Rows.visible
  have hrest : (rows.entries.kerase k).filter (fun x => x.2.Visible u) =
      (written.entries.kerase k).filter (fun x => x.2.Visible u) := herase
  rw [AList.entries_insert,AList.entries_insert,List.filter_cons,List.filter_cons,hrest]

/-- Of a row that is seen later nothing was removed before. -/
theorem Row.Visible.before {r : Row} {now u : UInt64} (h : r.Visible u) (hle : now ≤ u) :
    r.Visible now := by
  have hnow : (seconds now).toNat = now.toNat/1000000 := UInt64.toNat_div now 1000000
  have hu : (seconds u).toNat = u.toNat/1000000 := UInt64.toNat_div u 1000000
  have hdiv : now.toNat/1000000 ≤ u.toNat/1000000 :=
    Nat.div_le_div_right (UInt64.le_iff_toNat_le.1 hle)
  exact h.imp_right (fun hlt => by omega)

theorem cleanup_entries {rows : Rows} (h : ∀ x ∈ rows.entries, x.2.Counted) (now : UInt64) :
    (rows.cleanupExpired now).1.entries = rows.visible now := by
  refine List.filter_congr fun x hx => ?_
  rw [(h x hx).expired now,Bool.not_not]

theorem cleanup_visible {rows : Rows} (h : ∀ x ∈ rows.entries, x.2.Counted) {now u : UInt64}
    (hle : now ≤ u) : Rows.visible (rows.cleanupExpired now).1 u = rows.visible u := by
  rw [Rows.visible,cleanup_entries h,Rows.visible,List.filter_filter]
  refine List.filter_congr fun x _ => ?_
  rw [Bool.eq_iff_iff,Bool.and_eq_true,decide_eq_true_eq,decide_eq_true_eq]
  exact ⟨fun hv => hv.1,fun hv => ⟨hv,hv.before hle⟩⟩

theorem cleanup_counted {rows : Rows} (h : ∀ x ∈ rows.entries, x.2.Counted) (now : UInt64) :
    ∀ x ∈ (rows.cleanupExpired now).1.entries, x.2.Counted :=
  fun x hx => h x (List.mem_filter.1 hx).1

/-- Every row can be counted to its end, and the two tables agree on what is still to be seen. -/
structure Shelf.Agrees (s : Shelf) : Prop where
  counted : ∀ x ∈ s.rows.entries, x.2.Counted
  same : ∀ u, s.clock ≤ u → s.rows.visible u = s.written.visible u

theorem Shelf.Agrees.step {s : Shelf} (h : s.Agrees) {c : Call} (hclock : s.Monotone c)
    (hc : s.InTime c) : (s.act c).Agrees := by
  have hlater : ∀ u, c.now ≤ u → s.rows.visible u = s.written.visible u :=
    fun u hu => h.same u (UInt64.le_trans hclock hu)
  obtain ⟨op,now⟩ := c
  cases op with
  | get key => exact ⟨h.counted,hlater⟩
  | getPrefix key n => exact ⟨h.counted,hlater⟩
  | getSince since n => exact ⟨h.counted,hlater⟩
  | cleanupExpired =>
    refine ⟨cleanup_counted h.counted now,fun u hu => ?_⟩
    exact (cleanup_visible h.counted hu).trans (hlater u hu)
  | del key =>
    cases key with
    | none => exact ⟨h.counted,hlater⟩
    | some k =>
      refine ⟨fun x hx => h.counted x ((List.kerase_sublist k _).subset hx),fun u hu => ?_⟩
      have hrows := erase_visible s.rows k u
      have hwritten := erase_visible s.written k u
      rw [hlater u hu] at hrows
      exact hrows.trans hwritten.symm
  | put kv ttlS flags =>
    cases kv with
    | none => exact ⟨h.counted,hlater⟩
    | some kv =>
      obtain ⟨k,v⟩ := kv
      refine ⟨fun x hx => ?_,fun u hu => insert_visible (hlater u hu) k _⟩
      have hx' : x ∈ (s.rows.insert k (Row.written v ttlS flags now)).entries := hx
      rw [AList.entries_insert] at hx'
      rcases List.mem_cons.1 hx' with rfl | hold
      · exact ⟨rfl,hc⟩
      · exact h.counted x ((List.kerase_sublist k _).subset hold)

theorem put_get (rows : Rows) (k v : Bytes) (ttlS : UInt64) (flags : UInt8) (now u : UInt64) :
    ((rows.put (some (k,v)) ttlS flags now).1.get (some k) u).isSome =
      live (expiry now ttlS) (seconds u) := by
  have hrow := Rows.put_lookup rows k v ttlS flags now
  unfold Rows.get
  simp only [hrow]
  change (if live (expiry now ttlS) (seconds u) = true then _ else none).isSome = _
  cases hlive : live (expiry now ttlS) (seconds u) with
  | true => rfl
  | false => rfl

/-- A put is answered by what it can count. -/
theorem put_answers (s : Shelf) (k v : Bytes) (ttlS : UInt64) (flags : UInt8) (now : UInt64) :
    s.Answers ⟨.put (some (k,v)) ttlS flags,now⟩ ↔ Countable now ttlS := by
  constructor
  · intro h
    by_cases hzero : ttlS = 0
    · exact .inl hzero
    · have hpos : 0 < ttlS.toNat :=
        Nat.pos_of_ne_zero (fun hz => hzero (UInt64.toNat_inj.1 hz))
      have hnow := (h now (UInt64.le_refl now)).2 (.inr (Nat.lt_add_of_pos_right hpos))
      exact countable_of_live ((put_get s.rows k v ttlS flags now now).symm.trans hnow)
  · intro h u hu
    have hget : (((s.act ⟨.put (some (k,v)) ttlS flags,now⟩).rows).get (some k) u).isSome =
      live (expiry now ttlS) (seconds u) := put_get s.rows k v ttlS flags now u
    rw [hget]
    exact live_expiry h u

theorem del_answers {s : Shelf} (h : s.Agrees) {now : UInt64} (hclock : s.clock ≤ now)
    (k : Bytes) : s.Answers ⟨.del (some k),now⟩ ↔ s.InTime ⟨.del (some k),now⟩ := by
  have hshown : s.rows.shown now = s.written.shown now := Rows.shown_congr (h.same now hclock)
  change (s.rows.lookup k).isSome = ((s.written.shown now).lookup k).isSome ↔
    ∀ r, s.rows.lookup k = some r → r.Visible now
  rw [← hshown,Rows.shown_lookup]
  cases hrow : s.rows.lookup k with
  | none => exact iff_of_true rfl (fun r hr => by cases hr)
  | some r =>
    rw [Option.filter_some]
    by_cases hv : r.Visible now
    · refine iff_of_true ?_ (fun r' hr' => by cases hr'; exact hv)
      rw [if_pos (decide_eq_true hv)]
      rfl
    · refine iff_of_false ?_ (fun hall => hv (hall r rfl))
      rw [if_neg (by simpa using hv)]
      exact Bool.noConfusion

theorem Shelf.Agrees.answers {s : Shelf} (h : s.Agrees) {c : Call} (hclock : s.Monotone c) :
    s.Answers c ↔ s.InTime c := by
  obtain ⟨op,now⟩ := c
  have hquery : ∀ op, s.rows.query op now = (s.written.shown now).query op now := by
    intro op
    rw [← Rows.shown_congr (h.same now hclock)]
    exact Rows.query_shown h.counted op now
  cases op with
  | get key => exact iff_of_true (hquery _) trivial
  | getPrefix key n => exact iff_of_true (hquery _) trivial
  | getSince since n => exact iff_of_true (hquery _) trivial
  | cleanupExpired =>
    refine iff_of_true ⟨cleanup_entries h.counted now,fun op u hu => ?_⟩ trivial
    rw [Rows.query_shown (cleanup_counted h.counted now),Rows.query_shown h.counted,
      Rows.shown_congr (cleanup_visible h.counted hu)]
  | del key =>
    cases key with
    | none => exact iff_of_true rfl trivial
    | some k => exact del_answers h hclock k
  | put kv ttlS flags =>
    cases kv with
    | none => exact iff_of_true trivial trivial
    | some kv => exact put_answers s kv.1 kv.2 ttlS flags now

theorem Shelf.agrees_empty : Shelf.Agrees {} where
  counted x hx := by cases hx
  same _ _ := rfl

/-- With a clock that does not go back, all calls of a run are answered exactly if all are made
in time. -/
theorem calls_answered_iff (calls : List Call) (hclock : Along Shelf.act Shelf.Monotone {} calls) :
    Along Shelf.act Shelf.Answers {} calls ↔ Along Shelf.act Shelf.InTime {} calls :=
  hclock.congr (fun _ _ h hc => h.answers hc) (fun _ _ h hc ht => h.step hc ht) Shelf.agrees_empty

/-- An entry is written, read while it is live, and cleaned up when it is not. -/
def shortLived : List Call :=
  [⟨.put (some ([1],[7])) 10 0,5000000⟩,⟨.get (some [1]),14999999⟩,⟨.cleanupExpired,15000000⟩,
    ⟨.del (some [1]),15000000⟩]

theorem shortLived_monotone : Along Shelf.act Shelf.Monotone {} shortLived := by
  decide +kernel

theorem shortLived_answered :
    Along Shelf.act Shelf.Answers {} shortLived ↔ Along Shelf.act Shelf.InTime {} shortLived :=
  calls_answered_iff shortLived shortLived_monotone

/-- An entry is written to live for `2^63` seconds and read in the same second. -/
def longLived : List Call :=
  [⟨.put (some ([1],[7])) 0x8000000000000000 0,5000000⟩,⟨.get (some [1]),5000000⟩]

/-- The second it ends in is read as a negative number, and it is not there. -/
theorem longLived_unanswered :
    ¬∀ calls : List Call, Along Shelf.act Shelf.Monotone {} calls →
      Along Shelf.act Shelf.Answers {} calls := by
  intro h
  have hall := h longLived (by decide +kernel)
  have hget : Shelf.Answers _ _ := hall.2.1
  exact absurd hget (by unfold Shelf.Answers; decide +kernel)

end GoodNet.Store
