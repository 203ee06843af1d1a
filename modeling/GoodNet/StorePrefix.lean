import Mathlib.Data.List.TakeWhile
import GoodNet.StoreBackend
import GoodNet.Lib.KeyRange
set_option autoImplicit false

/-! `get_prefix` asks for the keys from the prefix up to the prefix with its last byte increased.
Where these are not all keys with the prefix, entries are missing. -/

namespace GoodNet.Store
open Codec KeyRange

/-- The number of entries that are asked for. -/
def resultCount (maxResults : UInt32) : Nat := if maxResults = 0 then 32 else maxResults.toNat

/-- The live rows whose key starts with the given bytes, in the order of the keys. -/
def Rows.startingWith (rows : Rows) (start : Bytes) (now : UInt64) : List (Σ _ : Bytes, Row) :=
  inOrder (fun a b : Bytes => a ≤ b) (fun x => x.1) (rows.entries.filter (fun x =>
    decide (start <+: x.1) && live x.2.expiresAt (seconds now)))

/-- An entry with its key to the end. -/
def Row.wholeEntry (key : Bytes) (r : Row) : Entry := { r.toEntry key with key := key }

/-- `get_prefix` returns the first live entries with the prefix. -/
def ServesPrefix (rows : Rows) (key : Option Bytes) (maxResults : UInt32) (now : UInt64) : Prop :=
  rows.getPrefix key maxResults now =
    ((rows.startingWith (key.getD []) now).take (resultCount maxResults)).map
      (fun x => x.2.wholeEntry x.1)

/-- The prefix does not end with the greatest byte, and the key does not begin with it if the
prefix is empty. -/
def belowEnd (start key : Bytes) : Bool :=
  start.getLast? != some 0xff && (start != [] || key.head? != some 0xff)

/-- The rows to be returned have keys below the bound, without a zero byte, and the limit is one, or
not met. -/
def PrefixInRange (rows : Rows) (key : Option Bytes) (maxResults : UInt32) (now : UInt64) : Prop :=
  (∀ x ∈ (rows.startingWith (key.getD []) now).take (resultCount maxResults),
    key.isSome = true ∧ belowEnd (key.getD []) x.1 = true ∧ 0 ∉ x.1) ∧
  (maxResults.toNat < 2^31 ∨ ((rows.startingWith (key.getD []) now).filter
    (fun x => belowEnd (key.getD []) x.1)).length ≤ maxResults.toNat)

theorem cons_lt_cons {a b : UInt8} {s t : Bytes} : a :: s < b :: t ↔ a < b ∨ a = b ∧ s < t :=
  List.cons_lt_cons_iff

theorem cons_le_cons {a b : UInt8} {s t : Bytes} : a :: s ≤ b :: t ↔ a < b ∨ a = b ∧ s ≤ t :=
  List.cons_le_cons_iff

theorem prefixEnd_cons {b : UInt8} {s : Bytes} (h : s ≠ []) :
    prefixEnd (b :: s) = b :: prefixEnd s := by
  obtain ⟨c,rest,rfl⟩ := List.exists_cons_of_ne_nil h
  unfold prefixEnd
  rw [List.getLast?_cons_cons]
  cases hlast : (c :: rest).getLast? with
  | none => simp at hlast
  | some d => rfl

theorem lt_singleton {a b : UInt8} {s : Bytes} : a :: s < [b] ↔ a < b := by
  rw [cons_lt_cons]
  exact ⟨fun h => h.resolve_right (fun h' => List.not_lt_nil s h'.2),.inl⟩

theorem lt_next {a b : UInt8} : a < b+1 → ¬ b < a := by
  intro hlt hgt
  have hwrap : (b+1).toNat = (b.toNat+1)%256 := UInt8.toNat_add b 1
  rw [UInt8.lt_iff_toNat_lt] at hlt hgt
  omega

/-- What lies between the two bounds has the prefix. -/
theorem prefix_of_between {start key : Bytes} (hle : start ≤ key) (hlt : key < prefixEnd start) :
    start <+: key := by
  induction start generalizing key with
  | nil => exact List.nil_prefix
  | cons b s ih =>
    cases key with
    | nil => exact absurd (List.nil_lt_cons b s) hle
    | cons c t =>
      rw [List.cons_prefix_cons]
      cases s with
      | nil =>
        have hnext : c < b+1 := lt_singleton.1 hlt
        rcases cons_le_cons.1 hle with hbc | ⟨hbc,_⟩
        · exact absurd hbc (lt_next hnext)
        · exact ⟨hbc,List.nil_prefix⟩
      | cons d s =>
        rw [prefixEnd_cons (List.cons_ne_nil d s)] at hlt
        rcases cons_le_cons.1 hle with hbc | ⟨hbc,hst⟩
        · rcases cons_lt_cons.1 hlt with hcb | ⟨hcb,_⟩
          · exact absurd hcb (UInt8.lt_asymm hbc)
          · exact absurd hbc (hcb ▸ UInt8.lt_irrefl b)
        · rcases cons_lt_cons.1 hlt with hcb | ⟨_,hts⟩
          · exact absurd hcb (hbc ▸ UInt8.lt_irrefl b)
          · exact ⟨hbc,ih hst hts⟩

theorem le_of_starts {start key : Bytes} (h : start <+: key) : start ≤ key := by
  obtain ⟨rest,rfl⟩ := h
  induction start with
  | nil => exact List.nil_le rest
  | cons b s ih => exact cons_le_cons.2 (.inr ⟨rfl,ih⟩)

/-- With the prefix, only a greatest byte keeps a key from the range. -/
theorem lt_prefixEnd_iff {start key : Bytes} (h : start <+: key) :
    key < prefixEnd start ↔ belowEnd start key = true := by
  have hgreatest : ∀ c : UInt8, c < 0xff ↔ c ≠ 0xff := by
    intro c
    have hc := c.toNat_lt
    rw [UInt8.lt_iff_toNat_lt,ne_eq,← UInt8.toNat_inj]
    change c.toNat < 255 ↔ ¬ c.toNat = 255
    omega
  induction start generalizing key with
  | nil =>
    cases key with
    | nil => exact ⟨fun _ => rfl,fun _ => List.nil_lt_cons _ _⟩
    | cons c t =>
      refine lt_singleton.trans ((hgreatest c).trans ?_)
      simp [belowEnd]
  | cons b s ih =>
    obtain ⟨t,rfl,hst⟩ : ∃ t, key = b :: t ∧ s <+: t := by
      obtain ⟨rest,rfl⟩ := h
      exact ⟨s ++ rest,rfl,List.prefix_append s rest⟩
    cases s with
    | nil =>
      have hend : prefixEnd [b] = [b+1] := rfl
      have hbelow : belowEnd [b] (b :: t) = true ↔ b ≠ 0xff := by simp [belowEnd]
      rw [hend,lt_singleton,hbelow]
      have hb := b.toNat_lt
      have hwrap : (b+1).toNat = (b.toNat+1)%256 := UInt8.toNat_add b 1
      rw [UInt8.lt_iff_toNat_lt,hwrap,ne_eq,← UInt8.toNat_inj]
      change b.toNat < _ ↔ ¬ b.toNat = 255
      omega
    | cons d s =>
      rw [prefixEnd_cons (List.cons_ne_nil d s),cons_lt_cons]
      have hsame : belowEnd (b :: d :: s) (b :: t) = belowEnd (d :: s) t := by
        unfold belowEnd
        rw [List.getLast?_cons_cons]
        rfl
      rw [hsame]
      refine Iff.trans ?_ (ih hst)
      exact ⟨fun hlt => (hlt.resolve_left (UInt8.lt_irrefl b)).2,fun hlt => .inr ⟨rfl,hlt⟩⟩

theorem belowEnd_down {start a b : Bytes} (hle : a ≤ b) (h : belowEnd start b = true) :
    belowEnd start a = true := by
  unfold belowEnd at h ⊢
  rw [Bool.and_eq_true] at h ⊢
  refine ⟨h.1,?_⟩
  cases start with
  | cons d s => rfl
  | nil =>
    cases a with
    | nil => rfl
    | cons x s =>
      cases b with
      | nil => exact absurd (List.nil_lt_cons x s) hle
      | cons y t =>
        have hy : y ≠ 0xff := by simpa using h.2
        have hx : x ≠ 0xff := by
          rcases cons_le_cons.1 hle with hxy | ⟨rfl,_⟩
          · rintro rfl
            have hy' := y.toNat_lt
            rw [UInt8.lt_iff_toNat_lt] at hxy
            change 255 < y.toNat at hxy
            omega
          · exact hy
        simpa using hx

/-- What the range finds are the rows with the prefix whose keys are below the bound. -/
theorem found_eq (rows : Rows) (k : Bytes) (now : UInt64) :
    inOrder (fun a b : Bytes => a ≤ b) (fun x => x.1) (rows.entries.filter (fun x =>
      decide (k ≤ x.1) && decide (x.1 < prefixEnd k) && live x.2.expiresAt (seconds now))) =
      (rows.startingWith k now).filter (fun x => belowEnd k x.1) := by
  have hnodup : ((rows.entries.filter (fun x =>
      decide (k <+: x.1) && live x.2.expiresAt (seconds now))).map (fun x => x.1)).Nodup :=
    List.Nodup.sublist (List.filter_sublist.map _) rows.nodupKeys
  rw [Rows.startingWith,filter_inOrder hnodup,List.filter_filter]
  refine congrArg _ (List.filter_congr fun x _ => ?_)
  rw [Bool.eq_iff_iff]
  simp only [Bool.and_eq_true,decide_eq_true_eq]
  constructor
  · rintro ⟨⟨hle,hlt⟩,hlive⟩
    have hpre := prefix_of_between hle hlt
    exact ⟨(lt_prefixEnd_iff hpre).1 hlt,hpre,hlive⟩
  · rintro ⟨hbelow,hpre,hlive⟩
    exact ⟨⟨le_of_starts hpre,(lt_prefixEnd_iff hpre).2 hbelow⟩,hlive⟩

/-- They are the first of the rows with the prefix. -/
theorem filter_belowEnd (rows : Rows) (k : Bytes) (now : UInt64) :
    (rows.startingWith k now).filter (fun x => belowEnd k x.1) =
      (rows.startingWith k now).take
        ((rows.startingWith k now).filter (fun x => belowEnd k x.1)).length :=
  filter_down (inOrder_pairwise _) (fun _ _ hle h => belowEnd_down hle h)

theorem resultCount_eq (maxResults : UInt32) :
    (if maxResults = 0 then 32 else maxResults).toNat = resultCount maxResults := by
  unfold resultCount
  split
  · rfl
  · rfl

theorem resultCount_of_limit {maxResults : UInt32} (h : maxResults.toNat < 2^31) :
    resultCount maxResults < 2^31 := by
  unfold resultCount
  split
  · decide
  · exact h

theorem resultCount_of_large {maxResults : UInt32} (h : ¬maxResults.toNat < 2^31) :
    resultCount maxResults = maxResults.toNat := by
  have hne : maxResults ≠ 0 := by
    rintro rfl
    exact h (by decide)
  exact if_neg hne

theorem limited_take {α : Type} (maxResults : UInt32) (l : List α) (m : Nat) :
    limited (if maxResults = 0 then 32 else maxResults) (l.take m) =
      l.take (if maxResults.toNat < 2^31 then min (resultCount maxResults) m else m) := by
  rw [limited,resultCount_eq]
  by_cases h : maxResults.toNat < 2^31
  · rw [if_pos (resultCount_of_limit h),if_pos h]
    exact List.take_take
  · rw [resultCount_of_large h,if_neg h,if_neg h]

theorem getPrefix_some (rows : Rows) (k : Bytes) (maxResults : UInt32) (now : UInt64) :
    rows.getPrefix (some k) maxResults now =
      ((rows.startingWith k now).take (if maxResults.toNat < 2^31 then
        min (resultCount maxResults)
          ((rows.startingWith k now).filter (fun x => belowEnd k x.1)).length else
        ((rows.startingWith k now).filter (fun x => belowEnd k x.1)).length)).map
          (fun x => x.2.toEntry x.1) := by
  have hfound := (found_eq rows k now).trans (filter_belowEnd rows k now)
  rw [← limited_take,← hfound]
  rfl

theorem toEntry_eq_wholeEntry {key : Bytes} {r : Row} :
    r.toEntry key = r.wholeEntry key ↔ 0 ∉ key := by
  have hkey : r.toEntry key = r.wholeEntry key ↔ key.takeWhile (· ≠ 0) = key :=
    ⟨fun h => congrArg Entry.key h,fun h => congrArg (fun k => { r.toEntry key with key := k }) h⟩
  rw [hkey,List.takeWhile_eq_self_iff]
  constructor
  · intro h hmem
    exact absurd (h 0 hmem) (by decide)
  · rintro h x hx
    refine decide_eq_true ?_
    rintro rfl
    exact h hx

theorem resultCount_pos (maxResults : UInt32) : 0 < resultCount maxResults := by
  unfold resultCount
  split
  · decide
  · next h => exact Nat.pos_of_ne_zero (fun hz => h (UInt32.toNat_inj.1 hz))

/-- No row matches a view without data. -/
theorem servesPrefix_none (rows : Rows) (maxResults : UInt32) (now : UInt64) :
    ServesPrefix rows none maxResults now ↔ rows.startingWith [] now = [] := by
  have hpos := resultCount_pos maxResults
  have hserves : ServesPrefix rows none maxResults now ↔
      (rows.startingWith [] now).take (resultCount maxResults) = [] := by
    refine Iff.trans eq_comm ?_
    exact List.map_eq_nil_iff
  rw [hserves,List.take_eq_nil_iff]
  exact ⟨fun h => h.resolve_left (by omega),.inr⟩

theorem prefixInRange_none (rows : Rows) (maxResults : UInt32) (now : UInt64) :
    PrefixInRange rows none maxResults now ↔ rows.startingWith [] now = [] := by
  have hpos := resultCount_pos maxResults
  constructor
  · rintro ⟨hall,_⟩
    have hnil : (rows.startingWith [] now).take (resultCount maxResults) = [] :=
      List.eq_nil_iff_forall_not_mem.2 fun x hx => absurd (hall x hx).1 Bool.false_ne_true
    exact (List.take_eq_nil_iff.1 hnil).resolve_left (by omega)
  · intro hnil
    refine ⟨fun x hx => ?_,.inr ?_⟩
    · have hx' : x ∈ rows.startingWith [] now := List.mem_of_mem_take hx
      rw [hnil] at hx'
      cases hx'
    · change ((rows.startingWith [] now).filter _).length ≤ _
      rw [hnil]
      exact Nat.zero_le _

/-- The first entries with the prefix are returned exactly if all of them are in the range. -/
theorem prefix_served_iff (rows : Rows) (key : Option Bytes) (maxResults : UInt32)
    (now : UInt64) :
    ServesPrefix rows key maxResults now ↔ PrefixInRange rows key maxResults now := by
  cases key with
  | none => exact (servesPrefix_none rows maxResults now).trans (prefixInRange_none _ _ _).symm
  | some k =>
    have hshort : ((rows.startingWith k now).filter (fun x => belowEnd k x.1)).length ≤
        (rows.startingWith k now).length := List.length_filter_le _ _
    have hfirst := filter_belowEnd rows k now
    unfold ServesPrefix PrefixInRange
    rw [getPrefix_some]
    simp only [Option.getD_some,Option.isSome_some,true_and]
    generalize hm : ((rows.startingWith k now).filter (fun x => belowEnd k x.1)).length = m at *
    have hin := forall_take_iff (n := resultCount maxResults) hfirst hshort
    have hwhole : (∀ x ∈ (rows.startingWith k now).take (resultCount maxResults),
        x.2.toEntry x.1 = x.2.wholeEntry x.1) ↔
        ∀ x ∈ (rows.startingWith k now).take (resultCount maxResults), 0 ∉ x.1 :=
      forall₂_congr fun x _ => toEntry_eq_wholeEntry
    rw [map_take_eq_iff,hwhole,List.take_eq_take_iff,forall₂_and,hin,and_right_comm]
    refine and_congr_left fun _ => ?_
    by_cases hlarge : maxResults.toNat < 2^31
    · rw [if_pos hlarge]
      omega
    · have hcount := resultCount_of_large hlarge
      rw [if_neg hlarge]
      omega

/-- One row, whose key begins with the greatest byte. -/
def greatestRows : Rows := ((∅ : Rows).put (some ([0xff,1],[7])) 0 0 1000000).1

/-- The last byte of the prefix becomes zero, and no key is below that. -/
theorem greatest_prefix_empty :
    ¬∀ (rows : Rows) (key : Option Bytes) (maxResults : UInt32) (now : UInt64),
      ServesPrefix rows key maxResults now := by
  intro h
  exact absurd (h greatestRows (some [0xff]) 0 2000000) (by unfold ServesPrefix; decide +kernel)

end GoodNet.Store
