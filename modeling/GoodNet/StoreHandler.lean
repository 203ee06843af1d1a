import GoodNet.StoreBackend
set_option autoImplicit false

/-! `apps/store/handler.cpp`: the five requests of the store protocol. The readings of
`now_us()` within one call are numbered in the order of the source, and what a handler hands
to `core_.send` is part of its result. -/

namespace GoodNet.Store
open Codec

structure Sub where
  connId : Nat
  key : Bytes
  queryType : UInt8
  deriving DecidableEq, Repr

structure StoreHandler where
  rows : Rows := ∅
  subscriptions : List Sub := []

structure Message where
  peer : Nat
  type : UInt32
  payload : Bytes
  deriving DecidableEq, Repr

structure Handled where
  state : StoreHandler
  result : Propagation
  sent : List Message := []

abbrev Clock := Nat → UInt64

/-- `on_disconnect`. -/
def StoreHandler.onDisconnect (st : StoreHandler) (id : Nat) : StoreHandler :=
  { st with subscriptions := st.subscriptions.filter (fun s => s.connId ≠ id) }

/-- `extract_kv`: two views without data when the payload is shorter than it says. -/
def extractKv (raw : Bytes) (headerSz keyLen valueLen : Nat) : Option (Bytes × Bytes) :=
  if raw.length < headerSz+keyLen+valueLen then none else
    some ((raw.drop headerSz).take keyLen,(raw.drop (headerSz+keyLen)).take valueLen)

/-- The key view of GET, DELETE and SUBSCRIBE. -/
def extractKey (raw : Bytes) (headerSz keyLen : Nat) : Option Bytes :=
  if 0 < keyLen ∧ headerSz+keyLen ≤ raw.length then some ((raw.drop headerSz).take keyLen)
  else none

def serializeResult (requestId : UInt64) (entries : List Entry) (status : UInt8) : Bytes :=
  let count := min entries.length 255
  StoreResultPayload.encode
      { requestId, entryCount := UInt8.ofNat count, status,
        totalCount := UInt32.ofNat entries.length } ++
    ((entries.take count).map serializeEntry).flatten

def serializeNotify (e : Entry) (event : UInt8) (now : UInt64) : Bytes :=
  StoreNotifyPayload.encode
      { event, timestampUs := if e.timestampUs ≠ 0 then e.timestampUs else now } ++
    serializeEntry e

def Sub.matches (s : Sub) (e : Entry) : Bool :=
  if s.queryType = 0 then s.key = e.key else s.key.isPrefixOf e.key

def notifySubscribers (subs : List Sub) (e : Entry) (event : UInt8) (clock : Clock) :
    List Message :=
  (subs.filter (fun s => s.matches e)).zipIdx.map (fun x =>
    { peer := x.1.connId, type := msgTypeSysStoreNotify,
      payload := serializeNotify e event (clock x.2) })

def result (peer : Nat) (requestId : UInt64) (entries : List Entry) (status : UInt8) : Message where
  peer := peer
  type := msgTypeSysStoreResult
  payload := serializeResult requestId entries status

def StoreHandler.onPut (st : StoreHandler) (peer : Nat) (raw : Bytes) (clock : Clock) : Handled :=
  if raw.length < StorePutPayload.size then { state := st, result := .reject } else
    let put := StorePutPayload.decode raw
    if storeKeyMaxLen < put.keyLen.toNat ∨ storeValueMaxLen < put.valueLen.toNat then
      { state := st, result := .reject }
    else
      let kv := extractKv raw StorePutPayload.size put.keyLen.toNat put.valueLen.toNat
      let key := (kv.map Prod.fst).getD []
      let value := (kv.map Prod.snd).getD []
      if key = [] ∧ 0 < put.keyLen then { state := st, result := .reject } else
        let (rows,ok) := st.rows.put kv put.ttlS put.flags (clock 0)
        { state := { st with rows := rows }
          result := .consumed
          sent := result peer put.requestId [] (if ok then 0 else 2) ::
            (if ok then
              notifySubscribers st.subscriptions
                { key, value, timestampUs := clock 1, ttlS := put.ttlS, flags := put.flags } 0
                (fun i => clock (i+2))
            else []) }

def StoreHandler.onGet (st : StoreHandler) (peer : Nat) (raw : Bytes) (clock : Clock) : Handled :=
  if raw.length < StoreGetPayload.size then { state := st, result := .reject } else
    let get := StoreGetPayload.decode raw
    if storeKeyMaxLen < get.keyLen.toNat then { state := st, result := .reject } else
      let key := extractKey raw StoreGetPayload.size get.keyLen.toNat
      let maxResults := if get.maxResults = 0 then 32 else get.maxResults
      let entries :=
        if get.queryType = 0 then (st.rows.get key (clock 0)).toList
        else if get.queryType = 1 ∨ get.queryType = 2 then
          st.rows.getPrefix key maxResults (clock 0)
        else []
      { state := st
        result := .consumed
        sent := [result peer get.requestId entries (if entries = [] then 1 else 0)] }

def StoreHandler.onDelete (st : StoreHandler) (peer : Nat) (raw : Bytes) (clock : Clock) :
    Handled :=
  if raw.length < StoreDeletePayload.size then { state := st, result := .reject } else
    let del := StoreDeletePayload.decode raw
    if storeKeyMaxLen < del.keyLen.toNat then { state := st, result := .reject } else
      let key := extractKey raw StoreDeletePayload.size del.keyLen.toNat
      let (rows,existed) := st.rows.del key
      { state := { st with rows := rows }
        result := .consumed
        sent := result peer del.requestId [] (if existed then 0 else 1) ::
          (if existed then
            notifySubscribers st.subscriptions { key := key.getD [], timestampUs := clock 0 } 2
              (fun i => clock (i+1))
          else []) }

def StoreHandler.onSubscribe (st : StoreHandler) (peer : Nat) (raw : Bytes) : Handled :=
  if raw.length < StoreSubscribePayload.size then { state := st, result := .reject } else
    let sub := StoreSubscribePayload.decode raw
    -- The view may be without data; the copy kept of it is then the empty string.
    let key := (extractKey raw StoreSubscribePayload.size sub.keyLen.toNat).getD []
    { state :=
        { st with subscriptions :=
            if sub.action = 0 then
              st.subscriptions ++ [{ connId := peer, key, queryType := sub.queryType }]
            else st.subscriptions.filter (fun s => ¬(s.connId = peer ∧ s.key = key)) }
      result := .consumed
      sent := [result peer sub.requestId [] 0] }

/-- `!existing || existing->timestamp_us < se.timestamp_us`. -/
def Rows.takes (rows : Rows) (e : Entry) (now : UInt64) : Bool :=
  match rows.get (some e.key) now with
  | none => true
  | some existing => decide (existing.timestampUs < e.timestampUs)

/-- The body of the import loop; `get` and `put` read the clock one after the other. -/
def Rows.importEntry (rows : Rows) (e : Entry) (gotAt putAt : UInt64) : Rows :=
  if rows.takes e gotAt then (rows.put (some (e.key,e.value)) e.ttlS e.flags putAt).1 else rows

def Rows.importEntries (rows : Rows) (clock : Clock) : List Entry → Rows
  | [] => rows
  | e :: es => (rows.importEntry e (clock 0) (clock 1)).importEntries (fun i => clock (i+2)) es

/-- The answer to a request for the entries since a timestamp. -/
def Rows.syncResponse (rows : Rows) (sync : StoreSyncPayload) (now : UInt64) : Bytes :=
  let entries := rows.getSince sync.sinceTimestamp 256 now
  let count := min entries.length 255
  StoreSyncPayload.encode
      { requestId := sync.requestId, syncType := 1, entryCount := UInt8.ofNat count,
        sinceTimestamp := 0 } ++
    ((entries.take count).map serializeEntry).flatten

/-- The entries an importer finds in a payload. -/
def syncEntries (raw : Bytes) : List Entry :=
  parseEntries (StoreSyncPayload.decode raw).entryCount.toNat (raw.drop StoreSyncPayload.size)

def StoreHandler.onSync (st : StoreHandler) (peer : Nat) (raw : Bytes) (clock : Clock) : Handled :=
  if raw.length < StoreSyncPayload.size then { state := st, result := .reject } else
    let sync := StoreSyncPayload.decode raw
    if sync.syncType = 0 then
      { state := st
        result := .consumed
        sent := [{ peer := peer, type := msgTypeSysStoreSync,
                   payload := st.rows.syncResponse sync (clock 0) }] }
    else if sync.syncType = 1 ∨ sync.syncType = 2 then
      { state := { st with rows := st.rows.importEntries clock (syncEntries raw) }
        result := .consumed }
    else { state := st, result := .consumed }

/-- The messages `start()` subscribes to. -/
inductive Request where
  | put | get | delete | subscribe | sync
  deriving DecidableEq, Repr

def Request.type : Request → UInt32
  | .put => msgTypeSysStorePut
  | .get => msgTypeSysStoreGet
  | .delete => msgTypeSysStoreDelete
  | .subscribe => msgTypeSysStoreSubscribe
  | .sync => msgTypeSysStoreSync

def StoreHandler.handle (st : StoreHandler) (kind : Request) (peer : Nat) (raw : Bytes)
    (clock : Clock) : Handled :=
  match kind with
  | .put => st.onPut peer raw clock
  | .get => st.onGet peer raw clock
  | .delete => st.onDelete peer raw clock
  | .subscribe => st.onSubscribe peer raw
  | .sync => st.onSync peer raw clock

/-- Key and value of a PUT that is not turned down. -/
def putEntry (raw : Bytes) : Option (Bytes × Bytes) :=
  let put := StorePutPayload.decode raw
  if raw.length < StorePutPayload.size ∨ storeKeyMaxLen < put.keyLen.toNat ∨
      storeValueMaxLen < put.valueLen.toNat then none
  else extractKv raw StorePutPayload.size put.keyLen.toNat put.valueLen.toNat

def deleteKey (raw : Bytes) : Option Bytes :=
  let del := StoreDeletePayload.decode raw
  if raw.length < StoreDeletePayload.size ∨ storeKeyMaxLen < del.keyLen.toNat then none
  else extractKey raw StoreDeletePayload.size del.keyLen.toNat

/-- The entries an import loop goes through; there are none in a request. -/
def importedEntries (raw : Bytes) : List Entry :=
  let sync := StoreSyncPayload.decode raw
  if raw.length < StoreSyncPayload.size ∨ ¬(sync.syncType = 1 ∨ sync.syncType = 2) then []
  else syncEntries raw

theorem importedEntries_encode {sync : StoreSyncPayload} {es : List Entry}
    (htype : sync.syncType = 1 ∨ sync.syncType = 2) (hcount : sync.entryCount.toNat = es.length)
    (h : ∀ e ∈ es, e.Fits) :
    importedEntries (sync.encode ++ (es.map serializeEntry).flatten) = es := by
  have hlen : ¬(sync.encode ++ (es.map serializeEntry).flatten).length < StoreSyncPayload.size := by
    rw [List.length_append,sync.encode_length]
    omega
  simp only [importedEntries,syncEntries,StoreSyncPayload.decode_encode,hcount,
    List.drop_left' sync.encode_length]
  rw [if_neg (not_or.2 ⟨hlen,not_not.2 htype⟩)]
  exact parseEntries_serialize h

/-- The row that a PUT writes. -/
def putRow (raw value : Bytes) (now : UInt64) : Row :=
  Row.written value (StorePutPayload.decode raw).ttlS (StorePutPayload.decode raw).flags now

theorem extractKv_length {raw key value : Bytes} {headerSz keyLen valueLen : Nat}
    (h : extractKv raw headerSz keyLen valueLen = some (key,value)) :
    key.length = keyLen ∧ value.length = valueLen := by
  rw [extractKv] at h
  split at h
  · cases h
  · cases h
    simp only [List.length_take,List.length_drop]
    omega

theorem putEntry_length {raw key value : Bytes} (h : putEntry raw = some (key,value)) :
    key.length ≤ storeKeyMaxLen ∧ value.length ≤ storeValueMaxLen := by
  simp only [putEntry] at h
  split at h
  · cases h
  · obtain ⟨hk,hv⟩ := extractKv_length h
    omega

theorem onPut_rows (st : StoreHandler) (peer : Nat) (raw : Bytes) (clock : Clock) :
    (st.onPut peer raw clock).state.rows =
      match putEntry raw with
      | none => st.rows
      | some (key,value) => st.rows.insert key (putRow raw value (clock 0)) := by
  simp only [StoreHandler.onPut,putEntry]
  by_cases hshort : raw.length < StorePutPayload.size
  · simp [hshort]
  · by_cases hlimits : storeKeyMaxLen < (StorePutPayload.decode raw).keyLen.toNat ∨
        storeValueMaxLen < (StorePutPayload.decode raw).valueLen.toNat
    · simp [hshort,hlimits]
    · rw [if_neg hshort,if_neg hlimits,if_neg (not_or.2 ⟨hshort,hlimits⟩)]
      cases hkv : extractKv raw StorePutPayload.size (StorePutPayload.decode raw).keyLen.toNat
          (StorePutPayload.decode raw).valueLen.toNat with
      | none => split <;> rfl
      | some kv =>
        obtain ⟨key,value⟩ := kv
        have hkey := (extractKv_length hkv).1
        rw [if_neg]
        · rfl
        · rintro ⟨hnil,hpos⟩
          have hpos' := UInt16.lt_iff_toNat_lt.1 hpos
          have hlen : key.length = 0 := congrArg List.length hnil
          have hzero : (0 : UInt16).toNat = 0 := rfl
          omega

theorem onDelete_rows (st : StoreHandler) (peer : Nat) (raw : Bytes) (clock : Clock) :
    (st.onDelete peer raw clock).state.rows = (st.rows.del (deleteKey raw)).1 := by
  simp only [StoreHandler.onDelete,deleteKey]
  by_cases hshort : raw.length < StoreDeletePayload.size
  · simp [hshort,Rows.del]
  · by_cases hlimit : storeKeyMaxLen < (StoreDeletePayload.decode raw).keyLen.toNat
    · simp [hshort,hlimit,Rows.del]
    · simp [hshort,hlimit]

theorem onGet_state (st : StoreHandler) (peer : Nat) (raw : Bytes) (clock : Clock) :
    (st.onGet peer raw clock).state = st := by
  simp only [StoreHandler.onGet]
  split
  · rfl
  · split <;> rfl

theorem onSubscribe_rows (st : StoreHandler) (peer : Nat) (raw : Bytes) :
    (st.onSubscribe peer raw).state.rows = st.rows := by
  simp only [StoreHandler.onSubscribe]
  split <;> rfl

theorem onSync_state (st : StoreHandler) (peer : Nat) (raw : Bytes) (clock : Clock) :
    (st.onSync peer raw clock).state =
      { st with rows := st.rows.importEntries clock (importedEntries raw) } := by
  simp only [StoreHandler.onSync,importedEntries]
  by_cases hshort : raw.length < StoreSyncPayload.size
  · simp [hshort,Rows.importEntries]
  · by_cases hzero : (StoreSyncPayload.decode raw).syncType = 0
    · simp [hshort,hzero,Rows.importEntries]
    · by_cases htype : (StoreSyncPayload.decode raw).syncType = 1 ∨
          (StoreSyncPayload.decode raw).syncType = 2
      · simp [hshort,hzero,htype]
      · simp [hshort,hzero,htype,Rows.importEntries]

/-- What a request does to the table. -/
theorem handle_rows (st : StoreHandler) (kind : Request) (peer : Nat) (raw : Bytes)
    (clock : Clock) :
    (st.handle kind peer raw clock).state.rows =
      match kind with
      | .put =>
        match putEntry raw with
        | none => st.rows
        | some (key,value) => st.rows.insert key (putRow raw value (clock 0))
      | .delete => (st.rows.del (deleteKey raw)).1
      | .sync => st.rows.importEntries clock (importedEntries raw)
      | _ => st.rows := by
  cases kind with
  | put => exact onPut_rows st peer raw clock
  | get => rw [StoreHandler.handle,onGet_state]
  | delete => exact onDelete_rows st peer raw clock
  | subscribe => exact onSubscribe_rows st peer raw
  | sync => rw [StoreHandler.handle,onSync_state]

/-- Every entry of an import meets `P` in the state it is compared in, with its two readings
of the clock. -/
def Rows.EachImport (P : Rows → Entry → UInt64 → UInt64 → Prop) (rows : Rows) (clock : Clock) :
    List Entry → Prop
  | [] => True
  | e :: es => P rows e (clock 0) (clock 1) ∧
      (rows.importEntry e (clock 0) (clock 1)).EachImport P (fun i => clock (i+2)) es

theorem Rows.importEntries_invariant {P : Rows → Entry → UInt64 → UInt64 → Prop} {I : Rows → Prop}
    (hstep : ∀ rows e gotAt putAt, I rows → P rows e gotAt putAt →
      I (rows.importEntry e gotAt putAt))
    {rows : Rows} (hi : I rows) {clock : Clock} {es : List Entry}
    (h : rows.EachImport P clock es) : I (rows.importEntries clock es) := by
  induction es generalizing rows clock with
  | nil => exact hi
  | cons e es ih => exact ih (hstep rows e _ _ hi h.1) h.2

end GoodNet.Store
