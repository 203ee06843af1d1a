import GoodNet.StoreHandler
import GoodNet.Lib.CheckedReads
set_option autoImplicit false

/-! The import loop of `on_sync` with its pointer and its counter of remaining bytes, every read
checked. What it finds in any payload lies inside of it one entry behind the other, and in a
payload made of a list of entries it finds the first 255 of them. -/

namespace GoodNet.Store
open Codec CheckedReads

/-- An entry with the place where its fixed part starts. -/
structure Found where
  pos : Nat
  entry : Entry
  deriving DecidableEq, Repr

/-- The loop from round `i` on. It fails when it reads outside of the payload, and out of
rounds. -/
def importLoop (raw : Bytes) (entryCount : UInt8) : Nat → UInt8 → Nat → Nat → Option (List Found)
  | 0, _, _, _ => none
  | rounds+1, i, ptr, remaining =>
    if ¬(i < entryCount ∧ StoreEntry.size ≤ remaining) then some []
    else do
      let se ← (readBlock raw ptr StoreEntry.size).map StoreEntry.decode
      let pos := ptr
      let ptr := ptr+StoreEntry.size
      let remaining := remaining-StoreEntry.size
      if remaining < se.keyLen.toNat+se.valueLen.toNat then some []
      else do
        let key ← readBlock raw ptr se.keyLen.toNat
        let ptr := ptr+se.keyLen.toNat
        let remaining := remaining-se.keyLen.toNat
        let value ← readBlock raw ptr se.valueLen.toNat
        let ptr := ptr+se.valueLen.toNat
        let remaining := remaining-se.valueLen.toNat
        let rest ← importLoop raw entryCount rounds (i+1) ptr remaining
        some ({ pos
                entry :=
                  { key, value, timestampUs := se.timestampUs, ttlS := se.ttlS,
                    flags := se.flags } } :: rest)

/-- The reading side of `on_sync`, from its first check on. -/
def readImport (raw : Bytes) : Option (List Found) :=
  if raw.length < StoreSyncPayload.size then some []
  else do
    let sync ← (readBlock raw 0 StoreSyncPayload.size).map StoreSyncPayload.decode
    if sync.syncType = 1 ∨ sync.syncType = 2 then
      importLoop raw sync.entryCount 256 0 StoreSyncPayload.size
        (raw.length-StoreSyncPayload.size)
    else some []

def Found.stop (f : Found) : Nat :=
  f.pos+StoreEntry.size+f.entry.key.length+f.entry.value.length

/-- The bytes of the entry are bytes of the payload, and say what the entry says. -/
structure Found.Inside (raw : Bytes) (f : Found) : Prop where
  stop_le : f.stop ≤ raw.length
  fixed : StoreEntry.decode (raw.drop f.pos) =
    { keyLen := UInt16.ofNat f.entry.key.length, valueLen := UInt16.ofNat f.entry.value.length,
      timestampUs := f.entry.timestampUs, ttlS := f.entry.ttlS, flags := f.entry.flags }
  key : (raw.drop (f.pos+StoreEntry.size)).take f.entry.key.length = f.entry.key
  value : (raw.drop (f.pos+StoreEntry.size+f.entry.key.length)).take f.entry.value.length =
    f.entry.value

/-- One entry behind the other, the first at `ptr`. -/
def LaidOut (raw : Bytes) : Nat → List Found → Prop
  | _, [] => True
  | ptr, f :: fs => f.pos = ptr ∧ f.Inside raw ∧ LaidOut raw f.stop fs

theorem LaidOut.inside {raw : Bytes} {ptr : Nat} {fs : List Found} (h : LaidOut raw ptr fs) :
    ∀ f ∈ fs, f.Inside raw := by
  induction fs generalizing ptr with
  | nil => intro f hf; cases hf
  | cons g fs ih =>
    obtain ⟨_,hg,hrest⟩ := h
    intro f hf
    rcases List.mem_cons.mp hf with rfl | hf
    · exact hg
    · exact ih hrest f hf

theorem fieldAt_take {b : Bytes} {offset w n : Nat} (h : offset+w ≤ n) :
    fieldAt (b.take n) offset w = fieldAt b offset w := by
  rw [fieldAt,fieldAt,List.drop_take,List.take_take,Nat.min_eq_left (by omega)]

theorem StoreEntry.decode_take (b : Bytes) :
    StoreEntry.decode (b.take StoreEntry.size) = StoreEntry.decode b := by
  have hflags : (b.take StoreEntry.size).getD 20 0 = b.getD 20 0 := by
    rw [List.getD_eq_getElem?_getD,List.getElem?_take_of_lt (by decide),
      ← List.getD_eq_getElem?_getD]
  rw [decode,decode,hflags,fieldAt_take (by decide),fieldAt_take (by decide),
    fieldAt_take (by decide),fieldAt_take (by decide)]

theorem StoreSyncPayload.decode_take (b : Bytes) :
    StoreSyncPayload.decode (b.take StoreSyncPayload.size) = StoreSyncPayload.decode b := by
  have hbyte : ∀ i, i < StoreSyncPayload.size →
      (b.take StoreSyncPayload.size).getD i 0 = b.getD i 0 := by
    intro i hi
    rw [List.getD_eq_getElem?_getD,List.getElem?_take_of_lt hi,← List.getD_eq_getElem?_getD]
  rw [decode,decode,hbyte 8 (by decide),hbyte 9 (by decide),fieldAt_take (by decide),
    fieldAt_take (by decide)]

/-- A round that takes an entry, as `parseEntry` takes it. -/
theorem parseEntry_drop {raw : Bytes} {ptr : Nat} {se : StoreEntry}
    (hse : StoreEntry.decode (raw.drop ptr) = se)
    (hfit : ptr+StoreEntry.size+se.keyLen.toNat+se.valueLen.toNat ≤ raw.length) :
    parseEntry (raw.drop ptr) =
      some ({ key := (raw.drop (ptr+StoreEntry.size)).take se.keyLen.toNat,
              value := (raw.drop (ptr+StoreEntry.size+se.keyLen.toNat)).take se.valueLen.toNat,
              timestampUs := se.timestampUs, ttlS := se.ttlS, flags := se.flags },
        raw.drop (ptr+StoreEntry.size+se.keyLen.toNat+se.valueLen.toNat)) := by
  simp only [parseEntry,hse,List.drop_drop,List.length_drop]
  rw [if_neg (by omega),if_neg (by omega)]

theorem parseEntry_none {raw : Bytes} {ptr : Nat}
    (h : raw.length < ptr+StoreEntry.size ∨
      raw.length < ptr+StoreEntry.size+(StoreEntry.decode (raw.drop ptr)).keyLen.toNat+
        (StoreEntry.decode (raw.drop ptr)).valueLen.toNat) (hptr : ptr ≤ raw.length) :
    parseEntry (raw.drop ptr) = none := by
  simp only [parseEntry,List.drop_drop,List.length_drop]
  split
  · rfl
  · rw [if_pos (by omega)]

/-- Pointer and counter together are the end of the payload throughout: the loop ends within its
rounds, reads only bytes of the payload and finds what `parseEntries` finds. -/
theorem importLoop_eq {raw : Bytes} {entryCount : UInt8} {rounds ptr remaining : Nat} {i : UInt8}
    (hend : ptr+remaining = raw.length) (hi : i ≤ entryCount)
    (hrounds : entryCount.toNat-i.toNat < rounds) :
    ∃ found, importLoop raw entryCount rounds i ptr remaining = some found ∧
      found.map Found.entry = parseEntries (entryCount.toNat-i.toNat) (raw.drop ptr) ∧
      LaidOut raw ptr found := by
  induction rounds generalizing i ptr remaining with
  | zero => omega
  | succ rounds ih =>
    have hle := UInt8.le_iff_toNat_le.1 hi
    rw [importLoop]
    by_cases hgo : i < entryCount ∧ StoreEntry.size ≤ remaining
    · rw [if_neg (not_not.2 hgo),readBlock_eq (by omega)]
      simp only [Option.map_some,Option.bind_eq_bind,Option.bind_some,StoreEntry.decode_take]
      have hlt := UInt8.lt_iff_toNat_lt.1 hgo.1
      have hleft : entryCount.toNat-i.toNat = entryCount.toNat-(i.toNat+1)+1 := by omega
      generalize hse : StoreEntry.decode (raw.drop ptr) = se
      by_cases hshort : remaining-StoreEntry.size < se.keyLen.toNat+se.valueLen.toNat
      · rw [if_pos hshort]
        refine ⟨[],rfl,?_,trivial⟩
        rw [hleft,parseEntries,parseEntry_none (by rw [hse]; omega) (by omega)]
        rfl
      · rw [if_neg hshort,readBlock_eq (by omega),readBlock_eq (by omega)]
        simp only [Option.bind_some]
        have hnext : (i+1).toNat = i.toNat+1 := by
          have hc := entryCount.toNat_lt
          have hone : (1 : UInt8).toNat = 1 := rfl
          rw [UInt8.toNat_add,hone]
          exact Nat.mod_eq_of_lt (by omega)
        have hle' : i+1 ≤ entryCount := UInt8.le_iff_toNat_le.2 (by omega)
        have hend' : ptr+StoreEntry.size+se.keyLen.toNat+se.valueLen.toNat+
            (remaining-StoreEntry.size-se.keyLen.toNat-se.valueLen.toNat) = raw.length := by
          omega
        obtain ⟨rest,hrest,hentries,hlaid⟩ := ih hend' hle' (by omega)
        rw [hrest]
        refine ⟨_,rfl,?_,rfl,?_⟩
        · rw [hleft,parseEntries,parseEntry_drop hse (by omega),List.map_cons,hentries,hnext]
        · have hkey : ((raw.drop (ptr+StoreEntry.size)).take se.keyLen.toNat).length =
              se.keyLen.toNat := by
            rw [List.length_take,List.length_drop]
            omega
          have hvalue : ((raw.drop (ptr+StoreEntry.size+se.keyLen.toNat)).take
              se.valueLen.toNat).length = se.valueLen.toNat := by
            rw [List.length_take,List.length_drop]
            omega
          refine ⟨⟨?_,?_,?_,?_⟩,?_⟩
          · simp only [Found.stop,hkey,hvalue]
            omega
          · simp only [hse,hkey,hvalue]
            cases se
            simp
          · simp only [hkey]
          · simp only [hkey,hvalue]
          · simpa only [Found.stop,hkey,hvalue] using hlaid
    · rw [if_pos hgo]
      refine ⟨[],rfl,?_,trivial⟩
      by_cases hlast : i < entryCount
      · have hlt := UInt8.lt_iff_toNat_lt.1 hlast
        have hsmall : ¬StoreEntry.size ≤ remaining := fun h => hgo ⟨hlast,h⟩
        have hleft : entryCount.toNat-i.toNat = entryCount.toNat-(i.toNat+1)+1 := by omega
        rw [hleft,parseEntries,parseEntry_none (by omega) (by omega)]
        rfl
      · have hnone : entryCount.toNat-i.toNat = 0 := by
          have := mt UInt8.lt_iff_toNat_lt.2 hlast
          omega
        rw [hnone]
        rfl

theorem readImport_eq (raw : Bytes) :
    ∃ found, readImport raw = some found ∧ found.map Found.entry = importedEntries raw ∧
      LaidOut raw StoreSyncPayload.size found := by
  rw [readImport,importedEntries]
  by_cases hshort : raw.length < StoreSyncPayload.size
  · rw [if_pos hshort,if_pos (.inl hshort)]
    exact ⟨[],rfl,rfl,trivial⟩
  · rw [if_neg hshort,readBlock_eq (by omega)]
    simp only [Option.map_some,Option.bind_eq_bind,Option.bind_some,List.drop_zero,
      StoreSyncPayload.decode_take]
    by_cases htype : (StoreSyncPayload.decode raw).syncType = 1 ∨
        (StoreSyncPayload.decode raw).syncType = 2
    · rw [if_pos htype,if_neg (not_or.2 ⟨hshort,not_not.2 htype⟩)]
      exact importLoop_eq (by omega) (UInt8.le_iff_toNat_le.2 (Nat.zero_le _))
        (Nat.lt_of_le_of_lt (Nat.sub_le _ _) (StoreSyncPayload.decode raw).entryCount.toNat_lt)
    · rw [if_neg htype,if_pos (.inr htype)]
      exact ⟨[],rfl,rfl,trivial⟩

/-- The answer of `on_sync` to a request, made of the entries it has got. -/
def serializeSync (requestId : UInt64) (entries : List Entry) : Bytes :=
  let count := min entries.length 255
  StoreSyncPayload.encode
      { requestId, syncType := 1, entryCount := UInt8.ofNat count, sinceTimestamp := 0 } ++
    ((entries.take count).map serializeEntry).flatten

theorem syncResponse_eq (rows : Rows) (sync : StoreSyncPayload) (now : UInt64) :
    rows.syncResponse sync now =
      serializeSync sync.requestId (rows.getSince sync.sinceTimestamp 256 now) := rfl

def StoreResultPayload.size : Nat := 16

/-- `entry_count`, as an importer of a RESULT reads it. -/
def countByte (raw : Bytes) : UInt8 := raw.getD 8 0

theorem StoreResultPayload.encode_length (p : StoreResultPayload) :
    p.encode.length = StoreResultPayload.size := by
  simp [encode,size]

/-- Key and value keep to the limits of the protocol. -/
def Entry.WithinLimits (e : Entry) : Prop :=
  e.key.length ≤ storeKeyMaxLen ∧ e.value.length ≤ storeValueMaxLen

instance (e : Entry) : Decidable e.WithinLimits := inferInstanceAs (Decidable (_ ∧ _))

theorem Entry.WithinLimits.fits {e : Entry} (h : e.WithinLimits) : e.Fits :=
  ⟨Nat.lt_of_le_of_lt h.1 (by decide),Nat.lt_of_le_of_lt h.2 (by decide)⟩

theorem counted_toNat (es : List Entry) :
    (UInt8.ofNat (min es.length 255)).toNat = (es.take (min es.length 255)).length := by
  rw [UInt8.toNat_ofNat',List.length_take]
  omega

/-- The loop at entries that some header is followed by. -/
theorem importLoop_serialized {header : Bytes} {es : List Entry} (hes : ∀ e ∈ es, e.WithinLimits) :
    ∃ found, importLoop (header ++ ((es.take (min es.length 255)).map serializeEntry).flatten)
        (UInt8.ofNat (min es.length 255)) 256 0 header.length
        ((es.take (min es.length 255)).map serializeEntry).flatten.length = some found ∧
      found.map Found.entry = es.take (min es.length 255) := by
  have hfits : ∀ e ∈ es.take (min es.length 255), e.Fits :=
    fun e he => (hes e (List.mem_of_mem_take he)).fits
  have hrounds : ∀ c : UInt8, c.toNat-(0 : UInt8).toNat < 256 :=
    fun c => Nat.lt_of_le_of_lt (Nat.sub_le _ _) c.toNat_lt
  obtain ⟨found,hfound,hentries,_⟩ := importLoop_eq List.length_append.symm
    (UInt8.le_iff_toNat_le.2 (Nat.zero_le _)) (hrounds (UInt8.ofNat (min es.length 255)))
  refine ⟨found,hfound,?_⟩
  rw [hentries,List.drop_left,counted_toNat]
  exact parseEntries_serialize hfits

theorem serializeSync_found (requestId : UInt64) {es : List Entry}
    (hes : ∀ e ∈ es, e.WithinLimits) :
    ∃ found, readImport (serializeSync requestId es) = some found ∧
      found.map Found.entry = es.take (min es.length 255) := by
  obtain ⟨found,hfound,hentries,_⟩ := readImport_eq (serializeSync requestId es)
  refine ⟨found,hfound,hentries.trans ?_⟩
  exact importedEntries_encode (.inl rfl) (counted_toNat es)
    (fun e he => (hes e (List.mem_of_mem_take he)).fits)

theorem countByte_serializeResult (requestId : UInt64) (es : List Entry) (status : UInt8) :
    countByte (serializeResult requestId es status) = UInt8.ofNat (min es.length 255) := by
  simp [countByte,serializeResult,StoreResultPayload.encode]

theorem serializeResult_found (requestId : UInt64) (status : UInt8) {es : List Entry}
    (hes : ∀ e ∈ es, e.WithinLimits) :
    ∃ found, importLoop (serializeResult requestId es status)
        (countByte (serializeResult requestId es status)) 256 0 StoreResultPayload.size
        ((serializeResult requestId es status).length-StoreResultPayload.size) = some found ∧
      found.map Found.entry = es.take (min es.length 255) := by
  rw [countByte_serializeResult,serializeResult,List.length_append,
    ← StoreResultPayload.encode_length
      { requestId, entryCount := UInt8.ofNat (min es.length 255), status,
        totalCount := UInt32.ofNat es.length },Nat.add_sub_cancel_left]
  exact importLoop_serialized hes

/-- Entries within the limits come out of a SYNC answer as they went in, the first 255 of them,
and a RESULT lays them out alike; of any payload whatever the loop reads only its own bytes, and
takes only entries that lie in it. -/
theorem sync_import :
    (∀ (requestId : UInt64) (status : UInt8) (es : List Entry), (∀ e ∈ es, e.WithinLimits) →
      (∃ found, readImport (serializeSync requestId es) = some found ∧
        found.map Found.entry = es.take (min es.length 255)) ∧
      (serializeResult requestId es status).drop StoreResultPayload.size =
        (serializeSync requestId es).drop StoreSyncPayload.size ∧
      ∃ found, importLoop (serializeResult requestId es status)
          (countByte (serializeResult requestId es status)) 256 0 StoreResultPayload.size
          ((serializeResult requestId es status).length-StoreResultPayload.size) = some found ∧
        found.map Found.entry = es.take (min es.length 255)) ∧
    ∀ raw : Bytes, ∃ found, readImport raw = some found ∧
      LaidOut raw StoreSyncPayload.size found ∧ (∀ f ∈ found, f.Inside raw) ∧
      ∀ (st : StoreHandler) (peer : Nat) (clock : Clock),
        (st.onSync peer raw clock).state.rows =
          st.rows.importEntries clock (found.map Found.entry) := by
  constructor
  · intro requestId status es hes
    refine ⟨serializeSync_found requestId hes,?_,serializeResult_found requestId status hes⟩
    rw [serializeResult,serializeSync,List.drop_left' (StoreResultPayload.encode_length _),
      List.drop_left' (StoreSyncPayload.encode_length _)]
  · intro raw
    obtain ⟨found,hfound,hentries,hlaid⟩ := readImport_eq raw
    refine ⟨found,hfound,hlaid,hlaid.inside,fun st peer clock => ?_⟩
    rw [onSync_state,hentries]

/-- Two entries of a peer, one of them without a value. -/
def sampleEntries : List Entry :=
  [{ key := [112,1], value := [7,8,9], timestampUs := 40, ttlS := 60, flags := 1 },
    { key := [112,2], timestampUs := 41 }]

theorem sampleEntries_found :
    ∃ found, readImport (serializeSync 5 sampleEntries) = some found ∧
      found.map Found.entry = sampleEntries :=
  (sync_import.1 5 0 sampleEntries (by decide)).1

end GoodNet.Store
