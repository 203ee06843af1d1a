import GoodNet.WireHeader
import Mathlib.Data.List.Basic
set_option autoImplicit false

/-! The payloads of the store protocol of `core/data/messages.hpp` and the entries that travel
in them. The structures are packed, every field is little-endian, and keys and values follow
the fixed part. -/

namespace GoodNet.Store
open Codec

def msgTypeSysStorePut : UInt32 := 0x0600
def msgTypeSysStoreGet : UInt32 := 0x0601
def msgTypeSysStoreResult : UInt32 := 0x0602
def msgTypeSysStoreDelete : UInt32 := 0x0603
def msgTypeSysStoreSubscribe : UInt32 := 0x0604
def msgTypeSysStoreNotify : UInt32 := 0x0605
def msgTypeSysStoreSync : UInt32 := 0x0606

def storeKeyMaxLen : Nat := 128
def storeValueMaxLen : Nat := 4096

/-- The integer of `w` bytes at an offset. -/
def fieldAt (b : Bytes) (offset w : Nat) : Nat := leNat ((b.drop offset).take w)

structure StorePutPayload where
  requestId : UInt64
  ttlS : UInt64
  keyLen : UInt16
  valueLen : UInt16
  flags : UInt8
  deriving DecidableEq, Repr

def StorePutPayload.size : Nat := 24

def StorePutPayload.decode (b : Bytes) : StorePutPayload where
  requestId := UInt64.ofNat (fieldAt b 0 8)
  ttlS := UInt64.ofNat (fieldAt b 8 8)
  keyLen := UInt16.ofNat (fieldAt b 16 2)
  valueLen := UInt16.ofNat (fieldAt b 18 2)
  flags := b.getD 20 0

structure StoreGetPayload where
  requestId : UInt64
  keyLen : UInt16
  queryType : UInt8
  maxResults : UInt32
  deriving DecidableEq, Repr

def StoreGetPayload.size : Nat := 16

def StoreGetPayload.decode (b : Bytes) : StoreGetPayload where
  requestId := UInt64.ofNat (fieldAt b 0 8)
  keyLen := UInt16.ofNat (fieldAt b 8 2)
  queryType := b.getD 10 0
  maxResults := UInt32.ofNat (fieldAt b 12 4)

structure StoreDeletePayload where
  requestId : UInt64
  keyLen : UInt16
  deriving DecidableEq, Repr

def StoreDeletePayload.size : Nat := 16

def StoreDeletePayload.decode (b : Bytes) : StoreDeletePayload where
  requestId := UInt64.ofNat (fieldAt b 0 8)
  keyLen := UInt16.ofNat (fieldAt b 8 2)

structure StoreSubscribePayload where
  requestId : UInt64
  keyLen : UInt16
  action : UInt8
  queryType : UInt8
  deriving DecidableEq, Repr

def StoreSubscribePayload.size : Nat := 16

def StoreSubscribePayload.decode (b : Bytes) : StoreSubscribePayload where
  requestId := UInt64.ofNat (fieldAt b 0 8)
  keyLen := UInt16.ofNat (fieldAt b 8 2)
  action := b.getD 10 0
  queryType := b.getD 11 0

structure StoreResultPayload where
  requestId : UInt64
  entryCount : UInt8
  status : UInt8
  totalCount : UInt32
  deriving DecidableEq, Repr

def StoreResultPayload.encode (p : StoreResultPayload) : Bytes :=
  leBytes 8 p.requestId.toNat ++ [p.entryCount,p.status,0,0] ++ leBytes 4 p.totalCount.toNat

structure StoreNotifyPayload where
  event : UInt8
  timestampUs : UInt64
  deriving DecidableEq, Repr

def StoreNotifyPayload.encode (p : StoreNotifyPayload) : Bytes :=
  [p.event,0,0,0] ++ leBytes 8 p.timestampUs.toNat

structure StoreSyncPayload where
  requestId : UInt64
  syncType : UInt8
  entryCount : UInt8
  sinceTimestamp : UInt64
  deriving DecidableEq, Repr

def StoreSyncPayload.size : Nat := 20

def StoreSyncPayload.encode (p : StoreSyncPayload) : Bytes :=
  leBytes 8 p.requestId.toNat ++ [p.syncType,p.entryCount,0,0] ++
    leBytes 8 p.sinceTimestamp.toNat

def StoreSyncPayload.decode (b : Bytes) : StoreSyncPayload where
  requestId := UInt64.ofNat (fieldAt b 0 8)
  syncType := b.getD 8 0
  entryCount := b.getD 9 0
  sinceTimestamp := UInt64.ofNat (fieldAt b 12 8)

@[simp] theorem StoreSyncPayload.encode_length (p : StoreSyncPayload) :
    p.encode.length = StoreSyncPayload.size := by
  simp [encode,size]

theorem StoreSyncPayload.decode_encode (p : StoreSyncPayload) (tail : Bytes) :
    StoreSyncPayload.decode (p.encode ++ tail) = p := by
  have hr := leNat_leBytes_of_lt (w := 8) (n := p.requestId.toNat) p.requestId.toNat_lt
  have hs := leNat_leBytes_of_lt (w := 8) (n := p.sinceTimestamp.toNat) p.sinceTimestamp.toNat_lt
  cases p
  simp_all [decode,encode,fieldAt,List.drop_append,List.getElem?_append,List.drop_eq_nil_of_le]

/-- The fixed part of an entry in a RESULT, NOTIFY or SYNC payload. -/
structure StoreEntry where
  keyLen : UInt16
  valueLen : UInt16
  timestampUs : UInt64
  ttlS : UInt64
  flags : UInt8
  deriving DecidableEq, Repr

def StoreEntry.size : Nat := 24

def StoreEntry.encode (e : StoreEntry) : Bytes :=
  leBytes 2 e.keyLen.toNat ++ leBytes 2 e.valueLen.toNat ++ leBytes 8 e.timestampUs.toNat ++
    leBytes 8 e.ttlS.toNat ++ [e.flags,0,0,0]

def StoreEntry.decode (b : Bytes) : StoreEntry where
  keyLen := UInt16.ofNat (fieldAt b 0 2)
  valueLen := UInt16.ofNat (fieldAt b 2 2)
  timestampUs := UInt64.ofNat (fieldAt b 4 8)
  ttlS := UInt64.ofNat (fieldAt b 12 8)
  flags := b.getD 20 0

@[simp] theorem StoreEntry.encode_length (e : StoreEntry) : e.encode.length = StoreEntry.size := by
  simp [encode,size]

theorem StoreEntry.decode_encode (e : StoreEntry) (tail : Bytes) :
    StoreEntry.decode (e.encode ++ tail) = e := by
  have hk := leNat_leBytes_of_lt (w := 2) (n := e.keyLen.toNat) e.keyLen.toNat_lt
  have hv := leNat_leBytes_of_lt (w := 2) (n := e.valueLen.toNat) e.valueLen.toNat_lt
  have hts := leNat_leBytes_of_lt (w := 8) (n := e.timestampUs.toNat) e.timestampUs.toNat_lt
  have httl := leNat_leBytes_of_lt (w := 8) (n := e.ttlS.toNat) e.ttlS.toNat_lt
  cases e
  simp_all [decode,encode,fieldAt,List.drop_append,List.getElem?_append,List.drop_eq_nil_of_le]

/-- One entry of a store (`backend.hpp`). -/
structure Entry where
  key : Bytes := []
  value : Bytes := []
  timestampUs : UInt64 := 0
  ttlS : UInt64 := 0
  flags : UInt8 := 0
  deriving DecidableEq, Repr

/-- The lengths travel in 16 bits, and as many bytes of key and value go with them. -/
def serializeEntry (e : Entry) : Bytes :=
  let se : StoreEntry :=
    { keyLen := UInt16.ofNat e.key.length
      valueLen := UInt16.ofNat e.value.length
      timestampUs := e.timestampUs
      ttlS := e.ttlS
      flags := e.flags }
  se.encode ++ e.key.take se.keyLen.toNat ++ e.value.take se.valueLen.toNat

/-- One round of the import loop of `on_sync`: an entry and what follows it. -/
def parseEntry (b : Bytes) : Option (Entry × Bytes) :=
  if b.length < StoreEntry.size then none else
    let se := StoreEntry.decode b
    let rest := b.drop StoreEntry.size
    if rest.length < se.keyLen.toNat+se.valueLen.toNat then none else
      let tail := rest.drop se.keyLen.toNat
      some ({ key := rest.take se.keyLen.toNat, value := tail.take se.valueLen.toNat,
              timestampUs := se.timestampUs, ttlS := se.ttlS, flags := se.flags },
        tail.drop se.valueLen.toNat)

def parseEntries : Nat → Bytes → List Entry
  | 0, _ => []
  | n+1, b =>
    match parseEntry b with
    | none => []
    | some (e,rest) => e :: parseEntries n rest

/-- Key and value fit the 16-bit lengths of the wire. -/
def Entry.Fits (e : Entry) : Prop := e.key.length < 65536 ∧ e.value.length < 65536

instance (e : Entry) : Decidable e.Fits := inferInstanceAs (Decidable (_ ∧ _))

theorem parseEntry_serializeEntry {e : Entry} (h : e.Fits) (tail : Bytes) :
    parseEntry (serializeEntry e ++ tail) = some (e,tail) := by
  obtain ⟨hk,hv⟩ := h
  have hkey : (UInt16.ofNat e.key.length).toNat = e.key.length := by simp; omega
  have hvalue : (UInt16.ofNat e.value.length).toNat = e.value.length := by simp; omega
  have hdrop : ∀ (se : StoreEntry) (t : Bytes), (se.encode ++ t).drop StoreEntry.size = t := by
    intro se t
    exact List.drop_left' se.encode_length
  simp only [serializeEntry,parseEntry,List.append_assoc,StoreEntry.decode_encode,hdrop,hkey,hvalue,
    List.take_length,List.length_append,StoreEntry.encode_length,List.drop_left,List.take_left]
  rw [if_neg (by omega),if_neg (by omega)]

/-- What an exporter writes down, an importer reads back. -/
theorem parseEntries_serialize {es : List Entry} (h : ∀ e ∈ es, e.Fits) :
    parseEntries es.length (es.map serializeEntry).flatten = es := by
  induction es with
  | nil => rfl
  | cons e es ih =>
    have hhead := parseEntry_serializeEntry (h e List.mem_cons_self)
      (es.map serializeEntry).flatten
    have htail := ih (fun x hx => h x (List.mem_cons_of_mem e hx))
    rw [List.map_cons,List.flatten_cons,List.length_cons,parseEntries,hhead]
    exact congrArg (e :: ·) htail

/-- An entry off the wire fits the wire, whatever its bytes. -/
theorem parseEntry_fits {b rest : Bytes} {e : Entry} (h : parseEntry b = some (e,rest)) :
    e.Fits := by
  simp only [parseEntry] at h
  split at h
  · cases h
  · split at h
    · cases h
    · cases h
      have hk := (StoreEntry.decode b).keyLen.toNat_lt
      have hv := (StoreEntry.decode b).valueLen.toNat_lt
      simp only [Entry.Fits,List.length_take]
      omega

theorem parseEntries_fits {n : Nat} {b : Bytes} : ∀ e ∈ parseEntries n b, e.Fits := by
  induction n generalizing b with
  | zero => intro e he; cases he
  | succ n ih =>
    intro e he
    rw [parseEntries] at he
    split at he
    · cases he
    · rename_i first rest hparse
      rcases List.mem_cons.mp he with rfl | he
      · exact parseEntry_fits hparse
      · exact ih e he

end GoodNet.Store
