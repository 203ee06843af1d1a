import GoodNet.StoreLimits
set_option autoImplicit false

/-! A subscriber that applies the notifications it is sent. While its subscription lasts, the copy
it keeps of a key is the row of that key in the store, as long as the row is written by PUT and
DELETE: an import and a clean-up say nothing. -/

namespace GoodNet.Store
open Codec Interleaving

/-- What a notification tells about a row. -/
structure Shown where
  value : Bytes
  ttlS : UInt64
  flags : UInt8
  deriving DecidableEq, Repr

def Row.shown (r : Row) : Shown := ⟨r.value,r.ttlS,r.flags⟩

def StoreNotifyPayload.size : Nat := 12

/-- Event and entry of a NOTIFY payload. -/
def readNotify (payload : Bytes) : Option (UInt8 × Entry) :=
  (parseEntry (payload.drop StoreNotifyPayload.size)).map (fun p => (payload.getD 0 0,p.1))

abbrev Mirror := Table Bytes Shown

/-- Event 0 is a PUT, event 2 a DELETE. -/
def Mirror.note (m : Mirror) (event : UInt8) (e : Entry) : Mirror :=
  if event = 0 then m.insert e.key ⟨e.value,e.ttlS,e.flags⟩
  else if event = 2 then m.erase e.key
  else m

def Mirror.hear (m : Mirror) (msg : Message) : Mirror :=
  if msg.type = msgTypeSysStoreNotify then
    match readNotify msg.payload with
    | some (event,e) => m.note event e
    | none => m
  else m

def Mirror.hearAll (m : Mirror) (msgs : List Message) : Mirror := msgs.foldl Mirror.hear m

/-- What an event makes the store send. -/
def StoreHandler.announces (st : StoreHandler) : Event → List Message
  | .request kind peer raw clock => (st.handle kind peer raw clock).sent
  | .disconnected _ => []
  | .cleanup _ => []

/-- A store and the copy that one of its peers keeps. -/
structure Watched where
  store : StoreHandler := {}
  mirror : Mirror := ∅

def Watched.act (peer : Nat) (w : Watched) (ev : Event) : Watched where
  store := w.store.act ev
  mirror := w.mirror.hearAll ((w.store.announces ev).filter (fun msg => msg.peer = peer))

/-- The keys a subscription is about. -/
def Sub.covers (s : Sub) (key : Bytes) : Bool := s.matches { key := key }

/-- Copy and row of a key are the same. -/
def Watched.AgreesAt (w : Watched) (key : Bytes) : Prop :=
  w.mirror.lookup key = (w.store.rows.lookup key).map Row.shown

/-- The events that change rows without a word. -/
def Event.isSilent : Event → Bool
  | .request .sync .. => true
  | .cleanup _ => true
  | _ => false

/-- The subscription is there, and nothing silent touches the row. -/
def Told (s : Sub) (key : Bytes) (w : Watched) (ev : Event) : Prop :=
  s ∈ w.store.subscriptions ∧
    (ev.isSilent = true → (w.store.act ev).rows.lookup key = w.store.rows.lookup key)

section
variable {m : Mirror} {e : Entry} {key : Bytes}

theorem readNotify_serialize {event : UInt8} (h : e.Fits) (now : UInt64) :
    readNotify (serializeNotify e event now) = some (event,e) := by
  unfold serializeNotify
  generalize (if e.timestampUs ≠ 0 then e.timestampUs else now) = at_
  have hdrop : ((StoreNotifyPayload.encode ⟨event,at_⟩) ++ serializeEntry e).drop
      StoreNotifyPayload.size = serializeEntry e :=
    List.drop_left' (by simp [StoreNotifyPayload.encode,StoreNotifyPayload.size])
  have hparse := parseEntry_serializeEntry h []
  rw [List.append_nil] at hparse
  unfold readNotify
  rw [hdrop,hparse]
  rfl

theorem Mirror.hear_notify {event : UInt8} (h : e.Fits) (peer : Nat) (now : UInt64) :
    m.hear ⟨peer,msgTypeSysStoreNotify,serializeNotify e event now⟩ = m.note event e := by
  simp [hear,readNotify_serialize h]

theorem result_type (peer : Nat) (id : UInt64) (es : List Entry) (status : UInt8) :
    (result peer id es status).type ≠ msgTypeSysStoreNotify := by
  simp [result,msgTypeSysStoreResult,msgTypeSysStoreNotify]

theorem Mirror.hear_other {msg : Message} (h : msg.type ≠ msgTypeSysStoreNotify) :
    m.hear msg = m := by simp [hear,h]

/-- Messages of other kinds pass the copy by. -/
theorem Mirror.hearAll_others {msgs : List Message}
    (h : ∀ msg ∈ msgs, msg.type ≠ msgTypeSysStoreNotify) : m.hearAll msgs = m := by
  induction msgs with
  | nil => rfl
  | cons msg msgs ih =>
    have hfirst : m.hear msg = m := hear_other (h msg List.mem_cons_self)
    have hrest := ih (fun x hx => h x (List.mem_cons_of_mem _ hx))
    simpa [hearAll,hfirst] using hrest

theorem Mirror.note_other {event : UInt8} (h : key ≠ e.key) :
    (m.note event e).lookup key = m.lookup key := by
  unfold note
  split
  · exact AList.lookup_insert_ne h
  · split
    · exact AList.lookup_erase_ne h
    · rfl

/-- The row that an event of this kind leaves behind. -/
def noted (event : UInt8) (e : Entry) : Option Shown :=
  if event = 0 then some ⟨e.value,e.ttlS,e.flags⟩ else none

theorem Mirror.note_self {event : UInt8} (h : event = 0 ∨ event = 2) :
    (m.note event e).lookup e.key = noted event e := by
  rcases h with rfl | rfl
  · exact AList.lookup_insert m
  · exact AList.lookup_erase e.key m

/-- Several notifications of one change are like one of them. -/
theorem Mirror.hearAll_notices {event : UInt8} (hf : e.Fits) (hev : event = 0 ∨ event = 2)
    {msgs : List Message} (h : ∀ msg ∈ msgs, ∃ peer now,
      msg = ⟨peer,msgTypeSysStoreNotify,serializeNotify e event now⟩) (m : Mirror) (key : Bytes) :
    (m.hearAll msgs).lookup key =
      if key = e.key ∧ msgs ≠ [] then noted event e else m.lookup key := by
  induction msgs generalizing m with
  | nil => simp [hearAll]
  | cons msg msgs ih =>
    obtain ⟨peer,now,rfl⟩ := h msg List.mem_cons_self
    have hrest := ih (fun x hx => h x (List.mem_cons_of_mem _ hx)) (m.note event e)
    have hfirst : m.hearAll (⟨peer,msgTypeSysStoreNotify,serializeNotify e event now⟩ :: msgs) =
        (m.note event e).hearAll msgs := by
      simp only [hearAll,List.foldl_cons,hear_notify hf]
    rw [hfirst,hrest]
    by_cases hkey : key = e.key
    · subst hkey
      simp [note_self hev]
    · simp [hkey,note_other hkey]

end

section
variable {s : Sub} {key : Bytes} {peer : Nat} {w : Watched}

theorem mem_notifySubscribers {subs : List Sub} {e : Entry} {event : UInt8} {clock : Clock}
    {msg : Message} (h : msg ∈ notifySubscribers subs e event clock) :
    ∃ dest now, msg = ⟨dest,msgTypeSysStoreNotify,serializeNotify e event now⟩ := by
  obtain ⟨x,-,rfl⟩ := List.mem_map.mp h
  exact ⟨x.1.connId,clock x.2,rfl⟩

/-- A subscriber hears of a change its subscription is about. -/
theorem notified {subs : List Sub} (hs : s ∈ subs) (hp : s.connId = peer) {e : Entry}
    (hc : s.covers e.key = true) (event : UInt8) (clock : Clock) :
    (notifySubscribers subs e event clock).filter (fun msg => msg.peer = peer) ≠ [] := by
  have hmem : s ∈ subs.filter (fun s => s.matches e) := by
    rw [List.mem_filter]
    exact ⟨hs,hc⟩
  obtain ⟨i,hi,hget⟩ := List.mem_iff_getElem.mp hmem
  have hzip : (s,i) ∈ (subs.filter (fun s => s.matches e)).zipIdx := by
    rw [List.mk_mem_zipIdx_iff_getElem?]
    exact List.getElem?_eq_some_iff.mpr ⟨hi,hget⟩
  have hmsg : (⟨s.connId,msgTypeSysStoreNotify,serializeNotify e event (clock i)⟩ : Message) ∈
      (notifySubscribers subs e event clock).filter (fun msg => msg.peer = peer) := by
    rw [List.mem_filter]
    exact ⟨List.mem_map.mpr ⟨(s,i),hzip,rfl⟩,by simpa using hp⟩
  exact List.ne_nil_of_mem hmsg

/-- An answer and then the notices of one change: what the copy of a key comes to. -/
theorem hear_answer {subs : List Sub} (hs : s ∈ subs) (hp : s.connId = peer)
    (hk : s.covers key = true) {e : Entry} (hf : e.Fits) {event : UInt8}
    (hev : event = 0 ∨ event = 2) (dest : Nat) (id : UInt64) (status : UInt8) (clock : Clock)
    (m : Mirror) :
    (m.hearAll ((result dest id [] status :: notifySubscribers subs e event clock).filter
      (fun msg => msg.peer = peer))).lookup key =
        if key = e.key then noted event e else m.lookup key := by
  have hnotices : ∀ msg ∈ (notifySubscribers subs e event clock).filter
      (fun msg => msg.peer = peer), ∃ dest now,
        msg = ⟨dest,msgTypeSysStoreNotify,serializeNotify e event now⟩ := fun msg hmsg =>
    mem_notifySubscribers (List.mem_filter.mp hmsg).1
  have hheard := Mirror.hearAll_notices hf hev hnotices m key
  have hanswer : m.hear (result dest id [] status) = m :=
    Mirror.hear_other (result_type dest id [] status)
  have hskip : m.hearAll ((result dest id [] status :: notifySubscribers subs e event clock).filter
      (fun msg => msg.peer = peer)) = m.hearAll ((notifySubscribers subs e event clock).filter
        (fun msg => msg.peer = peer)) := by
    rw [List.filter_cons]
    split
    · simp [Mirror.hearAll,hanswer]
    · rfl
  rw [hskip,hheard]
  by_cases hkey : key = e.key
  · subst hkey
    simp [notified hs hp hk event clock]
  · simp [hkey]

/-- What a request does that a copy has to follow: no row changes and only an answer is sent, or
one row does, with an answer and the notices of it. -/
inductive Change (st : StoreHandler) (h : Handled) : Prop where
  | quiet (hrows : ∀ key, h.state.rows.lookup key = st.rows.lookup key)
      (hsent : ∀ msg ∈ h.sent, msg.type ≠ msgTypeSysStoreNotify)
  | noticed (e : Entry) (event : UInt8) (dest : Nat) (id : UInt64) (later : Clock) (hf : e.Fits)
      (hev : event = 0 ∨ event = 2)
      (hrows : ∀ key, (h.state.rows.lookup key).map Row.shown =
        if key = e.key then noted event e else (st.rows.lookup key).map Row.shown)
      (hsent : h.sent = result dest id [] 0 :: notifySubscribers st.subscriptions e event later)

theorem onPut_change (st : StoreHandler) (asker : Nat) (raw : Bytes) (clock : Clock) :
    Change st (st.onPut asker raw clock) := by
  simp only [StoreHandler.onPut]
  split
  · exact .quiet (fun _ => rfl) (by simp)
  · split
    · exact .quiet (fun _ => rfl) (by simp)
    · rename_i hlimits
      split
      · exact .quiet (fun _ => rfl) (by simp)
      · cases hkv : extractKv raw StorePutPayload.size (StorePutPayload.decode raw).keyLen.toNat
            (StorePutPayload.decode raw).valueLen.toNat with
        | none => exact .quiet (fun _ => rfl) (by simp [Rows.put,result_type])
        | some kv =>
          obtain ⟨key,value⟩ := kv
          obtain ⟨hkey,hvalue⟩ := extractKv_length hkv
          have hfits : key.length < 65536 ∧ value.length < 65536 := by
            simp only [storeKeyMaxLen,storeValueMaxLen] at hlimits
            omega
          refine .noticed
            { key := key, value := value, timestampUs := clock 1,
              ttlS := (StorePutPayload.decode raw).ttlS,
              flags := (StorePutPayload.decode raw).flags }
            0 asker (StorePutPayload.decode raw).requestId (fun i => clock (i+2)) hfits (Or.inl rfl)
            (fun k => ?_) rfl
          by_cases hk : k = key
          · subst hk
            simp [Rows.put,noted,Row.shown,Row.written]
          · simp [Rows.put,hk,AList.lookup_insert_ne hk]

theorem onDelete_change (st : StoreHandler) (asker : Nat) (raw : Bytes) (clock : Clock) :
    Change st (st.onDelete asker raw clock) := by
  simp only [StoreHandler.onDelete]
  split
  · exact .quiet (fun _ => rfl) (by simp)
  · split
    · exact .quiet (fun _ => rfl) (by simp)
    · rename_i hlimit
      cases hkey : extractKey raw StoreDeletePayload.size
          (StoreDeletePayload.decode raw).keyLen.toNat with
      | none => exact .quiet (fun _ => rfl) (by simp [Rows.del,result_type])
      | some key =>
        have hlen : key.length ≤ (StoreDeletePayload.decode raw).keyLen.toNat := by
          unfold extractKey at hkey
          split at hkey
          · cases hkey
            exact List.length_take_le _ _
          · cases hkey
        by_cases hfound : (st.rows.lookup key).isSome = true
        · have hfits : key.length < 65536 ∧ ([] : Bytes).length < 65536 := by
            simp only [storeKeyMaxLen] at hlimit
            simp
            omega
          refine .noticed { key := key, timestampUs := clock 0 } 2 asker
            (StoreDeletePayload.decode raw).requestId (fun i => clock (i+1)) hfits (Or.inr rfl)
            (fun k => ?_) (by simp [Rows.del,hfound])
          by_cases hk : k = key
          · subst hk
            simp [Rows.del,noted]
          · simp [Rows.del,hk,AList.lookup_erase_ne hk]
        · refine .quiet (fun k => ?_) (by simp [Rows.del,hfound,result_type])
          by_cases hk : k = key
          · have hnone : st.rows.lookup key = none := by simpa using hfound
            rw [hk]
            simp [Rows.del,hnone]
          · simp [Rows.del,AList.lookup_erase_ne hk]

theorem handle_change (st : StoreHandler) {kind : Request} (hkind : kind ≠ .sync) (asker : Nat)
    (raw : Bytes) (clock : Clock) : Change st (st.handle kind asker raw clock) := by
  cases kind with
  | put => exact onPut_change st asker raw clock
  | delete => exact onDelete_change st asker raw clock
  | get =>
    refine .quiet (fun key => ?_) ?_
    · rw [StoreHandler.handle,onGet_state]
    · simp only [StoreHandler.handle,StoreHandler.onGet]
      split
      · simp
      · split
        · simp
        · simp [result_type]
  | subscribe =>
    refine .quiet (fun key => ?_) ?_
    · rw [StoreHandler.handle,onSubscribe_rows]
    · simp only [StoreHandler.handle,StoreHandler.onSubscribe]
      split
      · simp
      · simp [result_type]
  | sync => exact absurd rfl hkind

/-- A SYNC is not answered by notices. -/
theorem onSync_sent (st : StoreHandler) (asker : Nat) (raw : Bytes) (clock : Clock) :
    ∀ msg ∈ (st.onSync asker raw clock).sent, msg.type ≠ msgTypeSysStoreNotify := by
  simp only [StoreHandler.onSync]
  split
  · simp
  · split
    · simp
      decide
    · split <;> simp

theorem Watched.AgreesAt.change (h : w.AgreesAt key) (hs : s ∈ w.store.subscriptions)
    (hp : s.connId = peer) (hk : s.covers key = true) {d : Handled} (hc : Change w.store d) :
    (⟨d.state,w.mirror.hearAll (d.sent.filter (fun msg => msg.peer = peer))⟩ : Watched).AgreesAt
      key := by
  cases hc with
  | quiet hrows hsent =>
    have hsame : w.mirror.hearAll (d.sent.filter (fun msg => msg.peer = peer)) = w.mirror :=
      Mirror.hearAll_others (fun msg hmsg => hsent msg (List.mem_filter.mp hmsg).1)
    simp only [AgreesAt,hsame,hrows]
    exact h
  | noticed e event dest id later hf hev hrows hsent =>
    simp only [AgreesAt,hrows,hsent]
    rw [hear_answer hs hp hk hf hev]
    split
    · rfl
    · exact h

/-- One event, one case: a silent one moves neither side, any other one both or none. -/
theorem Watched.AgreesAt.act (h : w.AgreesAt key) (hp : s.connId = peer) (hk : s.covers key = true)
    {ev : Event} (ht : Told s key w ev) : (w.act peer ev).AgreesAt key := by
  obtain ⟨hs,hsilent⟩ := ht
  cases ev with
  | disconnected id => exact h
  | cleanup now =>
    have hrows := hsilent rfl
    unfold AgreesAt at h ⊢
    rw [Watched.act,hrows]
    exact h
  | request kind asker raw clock =>
    by_cases hkind : kind = .sync
    · subst hkind
      have hrows := hsilent rfl
      have hsame : w.mirror.hearAll ((w.store.announces (.request .sync asker raw clock)).filter
          (fun msg => msg.peer = peer)) = w.mirror :=
        Mirror.hearAll_others (fun msg hmsg =>
          onSync_sent w.store asker raw clock msg (List.mem_filter.mp hmsg).1)
      unfold AgreesAt at h ⊢
      rw [Watched.act,hrows,hsame]
      exact h
    · exact h.change hs hp hk (handle_change w.store hkind asker raw clock)

end

/-- Over every run of requests from any peers, in which a subscription of `peer` stays, and at whose
start the peer's copy and the store agree about a key the subscription is about: they agree about it
at the end, as long as no import and no clean-up changes its row. -/
theorem mirror_follows_store (peer : Nat) (s : Sub) (key : Bytes) (w : Watched) (events : List Event)
    (hp : s.connId = peer) (hk : s.covers key = true) (hstart : w.AgreesAt key)
    (hrun : Along (Watched.act peer) (Told s key) w events) :
    (run (Watched.act peer) w events).AgreesAt key :=
  Along.invariant (I := fun w => w.AgreesAt key) (fun _ _ h ht => h.act hp hk ht) hstart hrun

/-- Peer 2 has asked for everything under the key `[1]`. -/
def askedForOne : Watched :=
  Watched.act 2 {} (.request .subscribe 2 ([7,0,0,0,0,0,0,0] ++ [1,0] ++ [0,1] ++ [0,0,0,0] ++ [1])
    (fun _ => 5))

def putNine : Bytes :=
  [8,0,0,0,0,0,0,0] ++ [0,0,0,0,0,0,0,0] ++ [2,0] ++ [1,0] ++ [0,0,0,0] ++ [1,4] ++ [9]

def deleteFour : Bytes := [9,0,0,0,0,0,0,0] ++ [2,0] ++ [0,0,0,0,0,0] ++ [1,4]

theorem mirror_follows_store_put :
    (run (Watched.act 2) askedForOne [.request .put 3 putNine (fun _ => 6)]).AgreesAt [1,4] :=
  mirror_follows_store 2 ⟨2,[1],1⟩ [1,4] askedForOne _ rfl (by decide) (by rfl)
    ⟨⟨by decide +kernel,by simp [Event.isSilent]⟩,trivial⟩

/-- The value has come and goes again. -/
example : (run (Watched.act 2) askedForOne
      [.request .put 3 putNine (fun _ => 6)]).mirror.lookup [1,4] = some ⟨[9],0,0⟩ ∧
    (run (Watched.act 2) askedForOne [.request .put 3 putNine (fun _ => 6),
      .request .delete 3 deleteFour (fun _ => 7)]).mirror.lookup [1,4] = none := by
  decide +kernel

end GoodNet.Store
