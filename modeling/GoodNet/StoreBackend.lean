import GoodNet.ManagerState
import GoodNet.StoreWire
set_option autoImplicit false

/-! `apps/store/sqlite_backend.cpp`: the table `store` and its six statements. A time is what
`now_us()` returns in the call; columns are 64-bit signed integers for the statements and
unsigned ones for the program. A view without data binds NULL: no row matches it, and the
columns refuse it. -/

namespace GoodNet.Store
open Codec

structure Row where
  value : Bytes
  timestampUs : UInt64
  ttlS : UInt64
  expiresAt : UInt64
  flags : UInt8
  deriving DecidableEq, Repr

/-- A row that is written again goes to the end, which is the head of the list. -/
abbrev Rows := Table Bytes Row

def seconds (us : UInt64) : UInt64 := us/1000000

/-- `expires_at` of an entry with this TTL, written at `now`. -/
def expiry (now ttlS : UInt64) : UInt64 := if 0 < ttlS then seconds now+ttlS else 0

/-- `expires_at = 0 OR expires_at > now_s`. -/
def live (expiresAt nowS : UInt64) : Bool :=
  expiresAt == 0 || decide (nowS.toInt64 < expiresAt.toInt64)

def Row.written (value : Bytes) (ttlS : UInt64) (flags : UInt8) (now : UInt64) : Row where
  value := value
  timestampUs := now
  ttlS := ttlS
  expiresAt := expiry now ttlS
  flags := flags

/-- `row_to_entry`: the key is read as a C string. -/
def Row.toEntry (key : Bytes) (r : Row) : Entry where
  key := key.takeWhile (· ≠ 0)
  value := r.value
  timestampUs := r.timestampUs
  ttlS := r.ttlS
  flags := r.flags

def Rows.put (rows : Rows) (kv : Option (Bytes × Bytes)) (ttlS : UInt64) (flags : UInt8)
    (now : UInt64) : Rows × Bool :=
  match kv with
  | none => (rows,false)
  | some (key,value) => (rows.insert key (Row.written value ttlS flags now),true)

def Rows.get (rows : Rows) (key : Option Bytes) (now : UInt64) : Option Entry :=
  match key with
  | none => none
  | some k =>
    match rows.lookup k with
    | none => none
    | some r => if live r.expiresAt (seconds now) then some (r.toEntry k) else none

/-- `LIMIT` takes an `int`, and a negative one is no limit. -/
def limited {α : Type} (maxResults : UInt32) (l : List α) : List α :=
  if maxResults.toNat < 2^31 then l.take maxResults.toNat else l

/-- The exclusive upper bound of the keys with a prefix: its last byte plus one. -/
def prefixEnd (key : Bytes) : Bytes :=
  match key.getLast? with
  | none => [0xff]
  | some b => key.dropLast ++ [b+1]

def Rows.getPrefix (rows : Rows) (key : Option Bytes) (maxResults : UInt32) (now : UInt64) :
    List Entry :=
  match key with
  | none => []
  | some k =>
    let found := rows.entries.filter (fun x =>
      decide (k ≤ x.1) && decide (x.1 < prefixEnd k) && live x.2.expiresAt (seconds now))
    (limited (if maxResults = 0 then 32 else maxResults)
      (found.insertionSort (fun x y => x.1 ≤ y.1))).map (fun x => x.2.toEntry x.1)

def Rows.del (rows : Rows) (key : Option Bytes) : Rows × Bool :=
  match key with
  | none => (rows,false)
  | some k => (rows.erase k,(rows.lookup k).isSome)

/-- The rows newer than a timestamp, oldest first. -/
def Rows.since (rows : Rows) (sinceTimestamp now : UInt64) : List (Σ _ : Bytes, Row) :=
  (rows.entries.reverse.filter (fun x =>
    decide (sinceTimestamp.toInt64 < x.2.timestampUs.toInt64) &&
      live x.2.expiresAt (seconds now))).insertionSort
    (fun x y => x.2.timestampUs.toInt64 ≤ y.2.timestampUs.toInt64)

def Rows.getSince (rows : Rows) (sinceTimestamp : UInt64) (maxResults : UInt32) (now : UInt64) :
    List Entry :=
  (limited (if maxResults = 0 then 256 else maxResults) (rows.since sinceTimestamp now)).map
    (fun x => x.2.toEntry x.1)

/-- `expires_at > 0 AND expires_at <= now_s`. -/
def expired (expiresAt nowS : UInt64) : Bool :=
  decide (0 < expiresAt.toInt64) && decide (expiresAt.toInt64 ≤ nowS.toInt64)

def Rows.cleanupExpired (rows : Rows) (now : UInt64) : Rows × Nat :=
  (⟨rows.entries.filter (fun x => !expired x.2.expiresAt (seconds now)),
      rows.nodupKeys.sublist List.filter_sublist⟩,
    (rows.entries.filter (fun x => expired x.2.expiresAt (seconds now))).length)

theorem Rows.put_lookup (rows : Rows) (key value : Bytes) (ttlS : UInt64) (flags : UInt8)
    (now : UInt64) :
    (rows.put (some (key,value)) ttlS flags now).1.lookup key =
      some (Row.written value ttlS flags now) := AList.lookup_insert rows

theorem Rows.del_lookup {rows : Rows} {key : Option Bytes} {k : Bytes} {r : Row}
    (h : (rows.del key).1.lookup k = some r) : rows.lookup k = some r := by
  cases key with
  | none => exact h
  | some key =>
    by_cases hk : k = key
    · subst hk
      exact absurd ((AList.lookup_erase k rows).symm.trans h) (by simp)
    · exact (AList.lookup_erase_ne hk).symm.trans h

theorem Rows.cleanupExpired_lookup {rows : Rows} {now : UInt64} {k : Bytes} {r : Row}
    (h : (rows.cleanupExpired now).1.lookup k = some r) : rows.lookup k = some r := by
  have hmem : (⟨k,r⟩ : Σ _ : Bytes, Row) ∈ (rows.cleanupExpired now).1.entries :=
    AList.mem_lookup_iff.1 h
  exact AList.mem_lookup_iff.2 (List.mem_filter.1 hmem).1

theorem Rows.cleanupExpired_keeps {rows : Rows} {now : UInt64} {k : Bytes} {r : Row}
    (h : rows.lookup k = some r) (hr : expired r.expiresAt (seconds now) = false) :
    (rows.cleanupExpired now).1.lookup k = some r := by
  have hmem : (⟨k,r⟩ : Σ _ : Bytes, Row) ∈ rows.entries := AList.mem_lookup_iff.1 h
  exact AList.mem_lookup_iff.2 (List.mem_filter.2 ⟨hmem,by simp [hr]⟩)

theorem limited_subset {α : Type} {n : UInt32} {l : List α} {a : α} (h : a ∈ limited n l) :
    a ∈ l := by
  rw [limited] at h
  split at h
  · exact List.mem_of_mem_take h
  · exact h

theorem Rows.mem_since {rows : Rows} {sinceTimestamp now : UInt64} {x : Σ _ : Bytes, Row} :
    x ∈ rows.since sinceTimestamp now ↔ rows.lookup x.1 = some x.2 ∧
      sinceTimestamp.toInt64 < x.2.timestampUs.toInt64 ∧
      live x.2.expiresAt (seconds now) = true := by
  rw [since,(List.perm_insertionSort _ _).mem_iff,List.mem_filter,List.mem_reverse]
  have hlookup : x ∈ rows.entries ↔ rows.lookup x.1 = some x.2 :=
    (AList.mem_lookup_iff (s := rows) (a := x.1) (b := x.2)).symm
  simp [hlookup]

/-- Where an exported entry comes from. -/
theorem Rows.mem_getSince {rows : Rows} {sinceTimestamp now : UInt64} {n : UInt32} {e : Entry}
    (h : e ∈ rows.getSince sinceTimestamp n now) :
    ∃ k r, rows.lookup k = some r ∧ sinceTimestamp.toInt64 < r.timestampUs.toInt64 ∧
      live r.expiresAt (seconds now) = true ∧ e = r.toEntry k := by
  obtain ⟨x,hx,rfl⟩ := List.mem_map.1 h
  obtain ⟨hrow,hsince,hlive⟩ := Rows.mem_since.1 (limited_subset hx)
  exact ⟨x.1,x.2,hrow,hsince,hlive,rfl⟩

end GoodNet.Store
