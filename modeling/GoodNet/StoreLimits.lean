import GoodNet.StoreHandler
import GoodNet.Lib.Interleaving
set_option autoImplicit false

/-! What a store accepts: the lengths of what it keeps, over runs of requests from any peers,
and what becomes of a payload that is shorter than it says. -/

namespace GoodNet.Store
open Codec Interleaving

/-- What reaches a store: a request, the end of a connection, the cleanup thread. -/
inductive Event where
  | request (kind : Request) (peer : Nat) (raw : Bytes) (clock : Clock)
  | disconnected (id : Nat)
  | cleanup (now : UInt64)

def StoreHandler.act (st : StoreHandler) : Event → StoreHandler
  | .request kind peer raw clock => (st.handle kind peer raw clock).state
  | .disconnected id => st.onDisconnect id
  | .cleanup now => { st with rows := (st.rows.cleanupExpired now).1 }

def Rows.Bounded (rows : Rows) : Prop :=
  ∀ k r, rows.lookup k = some r →
    k.length ≤ storeKeyMaxLen ∧ r.value.length ≤ storeValueMaxLen

/-- An entry that the import takes over keeps the limits of the protocol. -/
def TakenWithinLimits (rows : Rows) (e : Entry) (gotAt _putAt : UInt64) : Prop :=
  rows.takes e gotAt = true → e.key.length ≤ storeKeyMaxLen ∧ e.value.length ≤ storeValueMaxLen

/-- The entries of a SYNC response that the store takes over keep the limits. -/
def WithinLimits (st : StoreHandler) : Event → Prop
  | .request .sync _ raw clock =>
    st.rows.EachImport TakenWithinLimits clock (importedEntries raw)
  | _ => True

theorem Rows.Bounded.insert {rows : Rows} (h : rows.Bounded) {key : Bytes} {r : Row}
    (hkey : key.length ≤ storeKeyMaxLen) (hvalue : r.value.length ≤ storeValueMaxLen) :
    Rows.Bounded (rows.insert key r) := by
  intro k r' hr'
  by_cases hk : k = key
  · subst hk
    rw [AList.lookup_insert] at hr'
    cases hr'
    exact ⟨hkey,hvalue⟩
  · rw [AList.lookup_insert_ne hk] at hr'
    exact h k r' hr'

theorem importEntry_bounded (rows : Rows) (e : Entry) (gotAt putAt : UInt64) (h : rows.Bounded)
    (he : TakenWithinLimits rows e gotAt putAt) : (rows.importEntry e gotAt putAt).Bounded := by
  rw [Rows.importEntry]
  split
  · rename_i htakes
    obtain ⟨hkey,hvalue⟩ := he htakes
    exact h.insert hkey hvalue
  · exact h

/-- What holds of every row is kept by an event, if it holds of what a PUT writes and, for a SYNC
response, of what is imported. -/
theorem act_rows {P : Bytes → Row → Prop} {st : StoreHandler} (ev : Event)
    (h : ∀ k r, st.rows.lookup k = some r → P k r)
    (hput : ∀ key raw value now, key.length ≤ storeKeyMaxLen → value.length ≤ storeValueMaxLen →
      P key (putRow raw value now))
    (hsync : ∀ peer raw clock, ev = .request .sync peer raw clock → ∀ k r,
      (st.rows.importEntries clock (importedEntries raw)).lookup k = some r → P k r) :
    ∀ k r, (st.act ev).rows.lookup k = some r → P k r := by
  cases ev with
  | disconnected id => exact h
  | cleanup now => exact fun k r hr => h k r (Rows.cleanupExpired_lookup hr)
  | request kind peer raw clock =>
    rw [StoreHandler.act,handle_rows]
    cases kind with
    | put =>
      cases hwrite : putEntry raw with
      | none => exact h
      | some kv =>
        obtain ⟨hkey,hvalue⟩ := putEntry_length hwrite
        intro k r hr
        by_cases hk : k = kv.1
        · subst hk
          rw [AList.lookup_insert] at hr
          cases hr
          exact hput _ raw _ _ hkey hvalue
        · rw [AList.lookup_insert_ne hk] at hr
          exact h k r hr
    | get => exact h
    | delete => exact fun k r hr => h k r (Rows.del_lookup hr)
    | subscribe => exact h
    | sync => exact hsync peer raw clock rfl

theorem act_bounded (st : StoreHandler) (ev : Event) (h : st.rows.Bounded)
    (hev : WithinLimits st ev) : (st.act ev).rows.Bounded := by
  refine act_rows ev h (fun _ _ _ _ hkey hvalue => ⟨hkey,hvalue⟩) (fun peer raw clock heq => ?_)
  subst heq
  exact Rows.importEntries_invariant importEntry_bounded h hev

theorem empty_bounded : Rows.Bounded ∅ := by
  intro k r h
  cases h

/-- As long as the imports keep to the limits, everything stored does. -/
theorem stored_within_limits (events : List Event)
    (h : Along StoreHandler.act WithinLimits {} events) :
    (run StoreHandler.act {} events).rows.Bounded :=
  Along.invariant act_bounded empty_bounded h

/-- A SYNC response with one entry. -/
def syncOf (e : Entry) : Bytes :=
  StoreSyncPayload.encode { requestId := 0, syncType := 1, entryCount := 1, sinceTimestamp := 0 } ++
    ([e].map serializeEntry).flatten

theorem importedEntries_syncOf {e : Entry} (h : e.Fits) : importedEntries (syncOf e) = [e] :=
  importedEntries_encode (.inl rfl) rfl (by simpa using h)

theorem stored_within_limits_sample :
    (run StoreHandler.act {}
      [.request .sync 7 (syncOf { key := [1,2], value := [3], timestampUs := 5 })
        (fun _ => 9)]).rows.Bounded := by
  refine stored_within_limits _ ⟨?_,trivial⟩
  rw [WithinLimits,importedEntries_syncOf (by decide)]
  exact ⟨fun _ => by decide,trivial⟩

/-- A key one byte too long. -/
def longKey : Bytes := List.replicate 129 1

/-- It comes in with a SYNC response. -/
theorem longKey_kept :
    (run StoreHandler.act {}
      [.request .sync 7 (syncOf { key := longKey, value := [3], timestampUs := 5 })
        (fun _ => 9)]).rows.lookup longKey = some (Row.written [3] 0 0 9) := by
  decide +kernel

theorem sync_exceeds_limits :
    ¬∀ events : List Event, (run StoreHandler.act {} events).rows.Bounded := by
  intro h
  have hlong : longKey.length = 129 := List.length_replicate
  have hkept := (h _ longKey _ longKey_kept).1
  rw [hlong] at hkept
  exact absurd hkept (by decide)

def headerSize : Request → Nat
  | .put => StorePutPayload.size
  | .get => StoreGetPayload.size
  | .delete => StoreDeletePayload.size
  | .subscribe => StoreSubscribePayload.size
  | .sync => StoreSyncPayload.size

/-- The lengths of key and value that the fixed part of a request declares. -/
def declared (kind : Request) (raw : Bytes) : Nat × Nat :=
  match kind with
  | .put => ((StorePutPayload.decode raw).keyLen.toNat,(StorePutPayload.decode raw).valueLen.toNat)
  | .get => ((StoreGetPayload.decode raw).keyLen.toNat,0)
  | .delete => ((StoreDeletePayload.decode raw).keyLen.toNat,0)
  | .subscribe => ((StoreSubscribePayload.decode raw).keyLen.toNat,0)
  | .sync => (0,0)

def Truncated (kind : Request) (raw : Bytes) : Prop :=
  raw.length < headerSize kind+(declared kind raw).1+(declared kind raw).2

/-- Which of the truncated payloads are told from complete ones: SUBSCRIBE compares nothing
but the fixed part, and GET and DELETE no more than the limit of a key. -/
def Noticed (kind : Request) (raw : Bytes) : Prop :=
  raw.length < headerSize kind ∨
    match kind with
    | .put => storeKeyMaxLen < (declared .put raw).1 ∨ storeValueMaxLen < (declared .put raw).2 ∨
        0 < (declared .put raw).1
    | .get => storeKeyMaxLen < (declared .get raw).1
    | .delete => storeKeyMaxLen < (declared .delete raw).1
    | _ => False

theorem extractKv_truncated {raw : Bytes} {headerSz keyLen valueLen : Nat}
    (h : raw.length < headerSz+keyLen+valueLen) :
    extractKv raw headerSz keyLen valueLen = none := if_pos h

theorem put_truncated {st : StoreHandler} {peer : Nat} {raw : Bytes} {clock : Clock}
    (h : Truncated .put raw) :
    ((st.onPut peer raw clock).result = .reject ∧ (st.onPut peer raw clock).state = st) ↔
      Noticed .put raw := by
  simp only [StoreHandler.onPut,Noticed,headerSize,declared]
  split
  · rename_i hshort
    exact ⟨fun _ => .inl hshort,fun _ => ⟨rfl,rfl⟩⟩
  · rename_i hshort
    split
    · rename_i hlimits
      exact ⟨fun _ => .inr (hlimits.elim .inl (fun hv => .inr (.inl hv))),fun _ => ⟨rfl,rfl⟩⟩
    · rename_i hlimits
      have hkv := extractKv_truncated h
      simp only [headerSize,declared] at hkv
      rw [hkv]
      split
      · rename_i hkey
        have hpos : 0 < (StorePutPayload.decode raw).keyLen.toNat := UInt16.lt_iff_toNat_lt.1 hkey.2
        exact ⟨fun _ => .inr (.inr (.inr hpos)),fun _ => ⟨rfl,rfl⟩⟩
      · rename_i hkey
        refine ⟨fun hr => ?_,fun hn => ?_⟩
        · cases hr.1
        · rcases hn with hn | hn | hn | hn
          · exact absurd hn hshort
          · exact absurd (.inl hn) hlimits
          · exact absurd (.inr hn) hlimits
          · exact absurd ⟨rfl,UInt16.lt_iff_toNat_lt.2 hn⟩ hkey

/-- GET and DELETE make two tests before they act. -/
theorem refused_by_two_tests {st : StoreHandler} {p q : Prop} [Decidable p] [Decidable q]
    {done : Handled} (hdone : done.result = .consumed) :
    ((if p then { state := st, result := .reject }
        else if q then { state := st, result := .reject } else done : Handled).result = .reject ∧
      (if p then { state := st, result := .reject }
        else if q then { state := st, result := .reject } else done : Handled).state = st) ↔
      p ∨ q := by
  by_cases hp : p
  · simp [hp]
  · by_cases hq : q
    · simp [hq]
    · simp [hp,hq,hdone]

theorem get_truncated {st : StoreHandler} {peer : Nat} {raw : Bytes} {clock : Clock} :
    ((st.onGet peer raw clock).result = .reject ∧ (st.onGet peer raw clock).state = st) ↔
      Noticed .get raw := refused_by_two_tests rfl

theorem delete_truncated {st : StoreHandler} {peer : Nat} {raw : Bytes} {clock : Clock} :
    ((st.onDelete peer raw clock).result = .reject ∧ (st.onDelete peer raw clock).state = st) ↔
      Noticed .delete raw := refused_by_two_tests rfl

theorem subscribe_truncated {st : StoreHandler} {peer : Nat} {raw : Bytes} :
    ((st.onSubscribe peer raw).result = .reject ∧ (st.onSubscribe peer raw).state = st) ↔
      Noticed .subscribe raw := by
  simp only [StoreHandler.onSubscribe,Noticed,headerSize,or_false]
  split
  · rename_i hshort
    exact ⟨fun _ => hshort,fun _ => ⟨rfl,rfl⟩⟩
  · rename_i hlong
    refine ⟨fun hr => ?_,fun hn => absurd hn hlong⟩
    cases hr.1

/-- A truncated request is refused without effect exactly where its lengths give it away. -/
theorem truncated_refused_iff (st : StoreHandler) (kind : Request) (peer : Nat) (raw : Bytes)
    (clock : Clock) (hkind : kind ≠ .sync) (h : Truncated kind raw) :
    ((st.handle kind peer raw clock).result = .reject ∧
      (st.handle kind peer raw clock).state = st) ↔ Noticed kind raw := by
  cases kind with
  | put => exact put_truncated h
  | get => exact get_truncated
  | delete => exact delete_truncated
  | subscribe => exact subscribe_truncated
  | sync => exact absurd rfl hkind

/-- A PUT with a key of two bytes that never came. -/
theorem truncated_refused_iff_put :
    ((StoreHandler.handle {} .put 7 (List.replicate 16 0 ++ [2,0,0,0,0,0,0,0])
        (fun _ => 9)).result = .reject ∧
      (StoreHandler.handle {} .put 7 (List.replicate 16 0 ++ [2,0,0,0,0,0,0,0])
        (fun _ => 9)).state = {}) ↔ Noticed .put (List.replicate 16 0 ++ [2,0,0,0,0,0,0,0]) :=
  truncated_refused_iff {} .put 7 _ (fun _ => 9) (by decide) (by unfold Truncated; decide)

/-- A SUBSCRIBE to a prefix of four bytes that never came: the peer now watches every key. -/
def cutSubscribe : Bytes := List.replicate 8 0 ++ [4,0,0,1,0,0,0,0]

theorem truncated_subscribes_to_all :
    ¬∀ (st : StoreHandler) (kind : Request) (peer : Nat) (raw : Bytes) (clock : Clock),
      kind ≠ .sync → Truncated kind raw →
        (st.handle kind peer raw clock).result = .reject ∧
          (st.handle kind peer raw clock).state = st := by
  intro h
  have hsub := congrArg StoreHandler.subscriptions
    (h {} .subscribe 7 cutSubscribe (fun _ => 9) (by decide) (by unfold Truncated; decide)).2
  exact absurd hsub (by decide)

end GoodNet.Store
