import GoodNet.ConnectionGauge
import GoodNet.Delivery
import GoodNet.StoreHandler
set_option autoImplicit false

/-! `apps/store/store_app.cpp` on top of the connection manager: the requests that the bus
delivers, the connection states it reports, and the subscriptions of connections that are
gone. -/

namespace GoodNet.Store
open Codec History

def Request.all : List Request := [.put,.get,.delete,.subscribe,.sync]

/-- The subscription of `start()` that a message type meets. -/
def requestOf (type : UInt32) : Option Request := Request.all.find? (fun k => k.type == type)

/-- The application listens to the bus: `start` of the handler and
`setup_connection_tracking`. -/
def StoreHandler.hear (clock : Clock) (app : StoreHandler) : Effect → StoreHandler
  | .deliver _ .bus hdr remote _ plain =>
    match requestOf hdr.type with
    | some kind => (app.handle kind remote.peerId plain clock).state
    | none => app
  | .connState id state =>
    if state = .closed ∨ state = .closing then app.onDisconnect id else app
  | _ => app

/-- The store after everything emitted so far has been handled; the `n`-th entry of the trace
is handled at `clocks n`. -/
def heard (clocks : Nat → Clock) : List Effect → StoreHandler
  | [] => {}
  | e :: older => (heard clocks older).hear (clocks older.length) e

/-- `on_conn_state` with one of the two closing states. -/
def saysClosed : Effect → Bool
  | .connState _ state => state == .closed || state == .closing
  | _ => false

/-- When a removal takes a record, the store has no subscription for it. -/
def Unsubscribed (app : StoreHandler) : Effect → Prop
  | .disconnecting id found => found.transportIndex.lookup id = none →
      (found.records.lookup id).isSome → ∀ s ∈ app.subscriptions, s.connId ≠ id
  | .duplicate id _ found =>
      (found.records.lookup id).isSome → ∀ s ∈ app.subscriptions, s.connId ≠ id
  | _ => True

/-- Every subscription is one of a connection in the registry. -/
def Live (app : StoreHandler) (st : Impl) : Prop :=
  ∀ s ∈ app.subscriptions, (st.find s.connId).isSome = true

/-- The store has no part in it, and it removes nothing. -/
def Aside (e : Effect) : Prop :=
  (∀ app clock, StoreHandler.hear clock app e = app) ∧ saysClosed e = false ∧
    ∀ app, Unsubscribed app e

structure Tracked (env : Env) (clocks : Nat → Clock) (st : Impl) : Prop where
  sound : st.SoundRecords env.sodium
  known : ∀ s ∈ (heard clocks st.log).subscriptions, s.connId < st.nextId
  exact : Live (heard clocks st.log) st ↔
    Justified (fun e older => Unsubscribed (heard clocks older) e) st.log
  silent : ∀ e ∈ st.log, saysClosed e = false

section
variable {env : Env} {clocks : Nat → Clock} {st st' : Impl}

theorem onPut_subscriptions (app : StoreHandler) (peer : Nat) (raw : Bytes) (clock : Clock) :
    (app.onPut peer raw clock).state.subscriptions = app.subscriptions := by
  simp only [StoreHandler.onPut]
  split
  · rfl
  · split
    · rfl
    · split <;> rfl

theorem onDelete_subscriptions (app : StoreHandler) (peer : Nat) (raw : Bytes) (clock : Clock) :
    (app.onDelete peer raw clock).state.subscriptions = app.subscriptions := by
  simp only [StoreHandler.onDelete]
  split
  · rfl
  · split <;> rfl

/-- A request moves only the subscriptions of the peer it is from. -/
theorem onSubscribe_others (app : StoreHandler) (peer : Nat) (raw : Bytes) {s : Sub}
    (hs : s.connId ≠ peer) :
    s ∈ (app.onSubscribe peer raw).state.subscriptions ↔ s ∈ app.subscriptions := by
  simp only [StoreHandler.onSubscribe]
  split
  · rfl
  · dsimp only
    split
    · have hnew : ∀ key queryType, s ≠ { connId := peer, key, queryType } :=
        fun key queryType hc => hs (by rw [hc])
      rw [List.mem_append,List.mem_singleton,or_iff_left (hnew _ _)]
    · simp [hs]

theorem handle_others (app : StoreHandler) (kind : Request) (peer : Nat) (raw : Bytes)
    (clock : Clock) {s : Sub} (hs : s.connId ≠ peer) :
    s ∈ (app.handle kind peer raw clock).state.subscriptions ↔ s ∈ app.subscriptions := by
  cases kind with
  | put => rw [StoreHandler.handle,onPut_subscriptions]
  | get => rw [StoreHandler.handle,onGet_state]
  | delete => rw [StoreHandler.handle,onDelete_subscriptions]
  | subscribe => exact onSubscribe_others app peer raw hs
  | sync => rw [StoreHandler.handle,onSync_state]

/-- So does whatever else the bus delivers from it. -/
theorem hear_others (app : StoreHandler) (clock : Clock) (owner : ConnectionRecord) (sink : Sink)
    (hdr : Header) (remote : Endpoint) (wire plain : Bytes) {s : Sub}
    (hs : s.connId ≠ remote.peerId) :
    s ∈ (app.hear clock (.deliver owner sink hdr remote wire plain)).subscriptions ↔
      s ∈ app.subscriptions := by
  cases sink with
  | bus =>
    simp only [StoreHandler.hear]
    cases requestOf hdr.type with
    | none => rfl
    | some kind => exact handle_others app kind remote.peerId plain clock hs
  | heartbeat => rfl
  | relay => rfl

/-- Neither a delivery nor a connection state nor a removal. -/
def plays : Effect → Bool
  | .deliver .. => true
  | .connState .. => true
  | .disconnecting .. => true
  | .duplicate .. => true
  | _ => false

theorem aside_idle {e : Effect} (h : plays e = false) : Aside e := by
  cases e <;> first | exact ⟨fun _ _ => rfl,rfl,fun _ => True.intro⟩ | cases h

theorem aside_report {e : Effect} (h : e.isReport = true) : Aside e := by
  cases e with
  | connState id state =>
    cases state with
    | closing => cases h
    | closed => cases h
    | _ => exact ⟨fun _ _ => rfl,rfl,fun _ => True.intro⟩
  | _ => first | exact aside_idle rfl | cases h

theorem aside_outward {e : Effect} (h : e.Outward) : Aside e := by
  rcases h with h | h
  · exact aside_report h
  · cases e <;> first | exact aside_idle rfl | cases h

theorem heard_append {new : List Effect} (h : ∀ e ∈ new, Aside e) (older : List Effect) :
    heard clocks (new ++ older) = heard clocks older := by
  induction new with
  | nil => rfl
  | cons e new ih =>
    have hrest := ih (fun x hx => h x (List.mem_cons_of_mem e hx))
    rw [← hrest]
    exact (h e List.mem_cons_self).1 _ _

theorem Live.congr {app : StoreHandler} {n : Nat} (hk : ∀ s ∈ app.subscriptions, s.connId < n)
    (hf : ∀ j, j < n → (st'.find j).isSome = (st.find j).isSome) :
    Live app st' ↔ Live app st := by
  refine forall_congr' (fun s => forall_congr' (fun hs => ?_))
  rw [hf s.connId (hk s hs)]

/-- Steps that remove nothing and tell the store nothing. -/
theorem Tracked.keep (h : Tracked env clocks st) (hs : st'.SoundRecords env.sodium)
    (hn : st.nextId ≤ st'.nextId)
    (hf : ∀ j, j < st.nextId → (st'.find j).isSome = (st.find j).isSome)
    (hl : ∃ new, st'.log = new ++ st.log ∧ ∀ e ∈ new, Aside e) :
    Tracked env clocks st' := by
  obtain ⟨new,hlog,hnew⟩ := hl
  have happ : heard clocks st'.log = heard clocks st.log := by rw [hlog,heard_append hnew]
  refine ⟨hs,fun s hm => ?_,?_,fun e he => ?_⟩
  · rw [happ] at hm
    exact Nat.lt_of_lt_of_le (h.known s hm) hn
  · rw [happ,Live.congr h.known hf,h.exact,hlog]
    exact ⟨fun hj => hj.append (fun e he older => (hnew e he).2.2 _),Justified.suffix⟩
  · rw [hlog] at he
    rcases List.mem_append.1 he with he | he
    · exact (hnew e he).2.1
    · exact h.silent e he

theorem Impl.Agrees.isSome {α : Type} {f : ConnectionRecord → α} (h : Impl.Agrees f st st')
    (id : Nat) : (st'.find id).isSome = (st.find id).isSome := by
  have hsome := congrArg Option.isSome (h id)
  rwa [Option.isSome_map,Option.isSome_map] at hsome

/-- A record goes. Its connection has no subscription left exactly when it had none before. -/
theorem Tracked.removed (h : Tracked env clocks st) {id : Nat} {e : Effect} {l : List Effect}
    (hs : st'.SoundRecords env.sodium) (hn : st'.nextId = st.nextId)
    (hid : st'.find id = none) (hf : ∀ j, j ≠ id → st'.find j = st.find j)
    (hlog : st'.log = l ++ e :: st.log) (hnew : ∀ x ∈ l, Aside x)
    (hear : ∀ app clock, StoreHandler.hear clock app e = app) (hmute : saysClosed e = false)
    (hun : ∀ app, Unsubscribed app e ↔
      ((st.find id).isSome → ∀ s ∈ app.subscriptions, s.connId ≠ id)) :
    Tracked env clocks st' := by
  have happ : heard clocks st'.log = heard clocks st.log := by
    rw [hlog,heard_append hnew]
    exact hear _ _
  have hlive : Live (heard clocks st.log) st' ↔ Unsubscribed (heard clocks st.log) e ∧
      Live (heard clocks st.log) st := by
    rw [hun]
    constructor
    · intro hl
      have hne : ∀ s ∈ (heard clocks st.log).subscriptions, s.connId ≠ id := by
        intro s hm hc
        have hsome := hl s hm
        rw [hc,hid] at hsome
        cases hsome
      refine ⟨fun _ => hne,fun s hm => ?_⟩
      rw [← hf s.connId (hne s hm)]
      exact hl s hm
    · rintro ⟨hu,hl⟩ s hm
      by_cases hc : s.connId = id
      · have hsome := hl s hm
        rw [hc] at hsome
        exact absurd hc (hu hsome s hm)
      · rw [hf s.connId hc]
        exact hl s hm
  refine ⟨hs,fun s hm => ?_,?_,fun x hx => ?_⟩
  · rw [happ] at hm
    rw [hn]
    exact h.known s hm
  · rw [happ,hlive,h.exact,hlog]
    exact ⟨fun hj => Justified.append hj (fun x hx older => (hnew x hx).2.2 _),Justified.suffix⟩
  · rw [hlog] at hx
    rcases List.mem_append.1 hx with hx | hx
    · exact (hnew x hx).2.1
    · rcases List.mem_cons.1 hx with rfl | hx
      · exact hmute
      · exact h.silent x hx

theorem Tracked.emit (h : Tracked env clocks st) {e : Effect} (he : Aside e) :
    Tracked env clocks (st.emit e) :=
  h.keep (h.sound.emit e) (Nat.le_refl _) (fun _ _ => rfl) ⟨[e],rfl,by simpa using he⟩

theorem Tracked.disconnect (h : Tracked env clocks st) (id : Nat) :
    Tracked env clocks (st.handleDisconnect id) := by
  have hs : (st.handleDisconnect id).SoundRecords env.sodium :=
    Micro.sound (Micro.disconnect id) h.sound
  have hn := st.handleDisconnect_nextId id
  rcases st.handleDisconnect_cases id with ⟨peer,hi,heq⟩ | ⟨-,hnone,heq⟩ | ⟨hi,r,hr,heq⟩
  · -- the id is that of a further path: the record stays
    have hpath : Aside (.disconnecting id st.toRegistry) :=
      ⟨fun _ _ => rfl,rfl,fun _ hnone => by rw [hi] at hnone; cases hnone⟩
    have hnoted := h.emit hpath
    rw [heq] at hs ⊢
    obtain ⟨new,hl,hrep⟩ :=
      (st.emit (.disconnecting id st.toRegistry)).dropTransport_log id peer
    refine hnoted.keep hs (Impl.dropTransport_same _ id peer).1.ge (fun j _ => ?_)
      ⟨new,hl,fun e he => aside_report (hrep e he)⟩
    exact Impl.Agrees.isSome
      (Impl.dropTransport_agrees (f := fun _ => ()) _ id peer (fun _ => rfl)) j
  · have hgone : Aside (.disconnecting id st.toRegistry) :=
      ⟨fun _ _ => rfl,rfl,fun _ _ hsome => by
        have hlook : st.toRegistry.records.lookup id = none := hnone
        rw [hlook] at hsome
        cases hsome⟩
    rw [heq]
    exact h.emit hgone
  · rw [heq] at hs hn ⊢
    have hid : (st.forgetPeer id r).find id = none := AList.lookup_erase id st.records
    refine h.removed (l := [.notify r.remote.key .closed,.stat .disconnect 1 id]) hs hn hid
      (fun j hj => Impl.find_forgetPeer r hj) rfl ?_ (fun _ _ => rfl) rfl (fun app => ?_)
    · intro x hx
      rcases List.mem_pair.1 hx with rfl | rfl
      · exact aside_report rfl
      · exact aside_report rfl
    · exact ⟨fun hu => hu hi,fun hu _ => hu⟩

theorem Tracked.duplicate (h : Tracked env clocks st) {id : Nat} {r : ConnectionRecord}
    (hs : (st.removeDuplicate id r).SoundRecords env.sodium) :
    Tracked env clocks (st.removeDuplicate id r) := by
  have hid : (st.removeDuplicate id r).find id = none := AList.lookup_erase id st.records
  exact h.removed (l := []) hs rfl hid (fun j hj => AList.lookup_erase_ne hj) rfl (by simp)
    (fun _ _ => rfl) rfl (fun app => Iff.rfl)

theorem Tracked.opened {id : Nat} {r : ConnectionRecord} {hdr : Header} {payload : Bytes}
    {out : Option Bytes} (h : Tracked env clocks st) (hr : st.find id = some r)
    (ho : st.openPayload env id r hdr payload = (st',out)) : Tracked env clocks st' := by
  refine h.keep (h.sound.opened hr ho) (Impl.openPayload_same ho).1.ge (fun j _ => ?_) ?_
  · exact Impl.Agrees.isSome (Impl.openPayload_agrees (f := fun _ => ()) ho (fun _ _ => rfl)) j
  · obtain ⟨new,hl,hnew⟩ := Impl.openPayload_log ho
    refine ⟨new,hl,fun e he => ?_⟩
    rcases hnew e he with hrep | rfl
    · exact aside_report hrep
    · exact aside_idle rfl

/-- A packet is handed on: the store may act on it, and only on its connection. -/
theorem Tracked.delivered (h : Tracked env clocks st) {id : Nat} {r : ConnectionRecord}
    (sink : Sink) (hdr : Header) (wire plain : Bytes) (hr : (st.find id).isSome = true)
    (hs : (st.emit (.deliver r sink hdr { r.remote with peerId := id } wire plain)).SoundRecords
      env.sodium) :
    Tracked env clocks
      (st.emit (.deliver r sink hdr { r.remote with peerId := id } wire plain)) := by
  have hother : ∀ s : Sub, s.connId ≠ id → (s ∈ (heard clocks (.deliver r sink hdr
      { r.remote with peerId := id } wire plain :: st.log)).subscriptions ↔
        s ∈ (heard clocks st.log).subscriptions) :=
    fun s hne => hear_others _ _ r sink hdr { r.remote with peerId := id } wire plain hne
  refine ⟨hs,fun s hm => ?_,?_,fun e he => ?_⟩
  · by_cases hc : s.connId = id
    · obtain ⟨r',hr'⟩ := Option.isSome_iff_exists.1 hr
      rw [hc]
      exact h.sound.fresh id r' hr'
    · exact h.known s ((hother s hc).1 hm)
  · constructor
    · intro hl
      refine ⟨True.intro,h.exact.1 (fun s hm => ?_)⟩
      by_cases hc : s.connId = id
      · rw [hc]
        exact hr
      · exact hl s ((hother s hc).2 hm)
    · rintro ⟨-,hj⟩ s hm
      by_cases hc : s.connId = id
      · rw [hc]
        exact hr
      · exact h.exact.2 hj s ((hother s hc).1 hm)
  · rcases List.mem_cons.1 he with rfl | he
    · rfl
    · exact h.silent e he

theorem Micro.tracked (h : Micro env st st') (hi : Tracked env clocks st) :
    Tracked env clocks st' := by
  have hs := h.sound hi.sound
  have hn := h.nextId_le
  cases h with
  | silent h =>
    obtain ⟨new,hl,hrep⟩ := h.log
    exact hi.keep hs hn
      (fun j _ => Impl.Agrees.isSome (h.agrees (f := fun _ => ()) (fun _ => rfl)) j)
      ⟨new,hl,fun e he => aside_report (hrep e he)⟩
  | @frame id msgType payload h =>
    have hq := st.sendFrame_outward env id msgType payload
    obtain ⟨new,hl,hout⟩ := hq.log
    exact hi.keep hs hn
      (fun j _ => Impl.Agrees.isSome (hq.agrees (f := fun _ => ()) (fun _ => rfl)) j)
      ⟨new,hl,fun e he => aside_outward (hout e he)⟩
  | direct msgType h => exact hi.emit (aside_idle rfl)
  | connect ep =>
    refine hi.keep hs hn (fun j hj => ?_)
      ⟨_ ++ [_,_],by rw [Impl.openConnection_log,List.append_assoc]; rfl,fun e he => ?_⟩
    · rw [Impl.openConnection_find_ne (Nat.ne_of_lt hj)]
    · rcases List.mem_append.mp he with he | he
      · split at he
        · rw [List.mem_singleton.mp he]
          exact aside_idle rfl
        · cases he
      · rcases List.mem_pair.mp he with rfl | rfl
        · exact aside_idle rfl
        · exact aside_idle rfl
  | attach ep scheme h he =>
    refine hi.keep hs hn (fun j _ => Impl.Agrees.isSome (Impl.attachTransport_agrees
      (f := fun _ => ()) _ ep scheme (fun _ _ => rfl)) j) ⟨[_,_],rfl,fun e he => ?_⟩
    rcases List.mem_pair.mp he with rfl | rfl
    · exact aside_idle rfl
    · exact aside_idle rfl
  | disconnect id => exact hi.disconnect id
  | duplicate h => exact hi.duplicate hs
  | read msg h =>
    refine hi.keep hs hn (fun j _ => Impl.Agrees.isSome (Impl.readNoise_agrees (f := fun _ => ())
      _ _ _ _ _ (fun _ _ => rfl)) j) ⟨[_],rfl,?_⟩
    simpa using aside_idle rfl
  | write payload h hl hok hk =>
    refine hi.keep hs hn (fun j _ => Impl.Agrees.isSome (Impl.writeNoise_agrees (f := fun _ => ())
      _ _ _ (fun _ _ => rfl)) j) ⟨[_],rfl,?_⟩
    simpa using aside_idle rfl
  | @authenticate id hs' hp schemes h hrs =>
    exact hi.keep hs hn (fun j _ => Impl.Agrees.isSome (Impl.Agrees.modify (f := fun _ => ()) id
      (fun _ => rfl)) j) ⟨[],rfl,by simp⟩
  | @commit id r hs' h hh ha hd hf =>
    refine hi.keep hs hn (fun j _ => Impl.Agrees.isSome (Impl.Agrees.modify (f := fun _ => ()) id
      (g := ConnectionRecord.committed env.sodium hs') (fun _ => rfl)) j) ⟨[_],rfl,?_⟩
    simpa using aside_idle rfl
  | rekey id =>
    rcases st.rekeySession_cases env id with h | ⟨r,s,_,_,_,h⟩
    · rw [h]
      exact hi
    · have hfind : ∀ j, ((st.rekeySession env id).1.find j).isSome = (st.find j).isSome :=
        Impl.Agrees.isSome (Impl.rekeySession_agrees (f := fun _ => ()) id (fun _ _ _ => rfl))
      rw [h] at hs hn hfind ⊢
      exact hi.keep hs hn (fun j _ => hfind j) ⟨[_],rfl,by simpa using aside_idle rfl⟩
  | refuse h he ho => exact hi.opened h ho
  | @receive mid id r hdr payload plain sink h he ho =>
    have hopen := hi.opened h ho
    have hbytes : Tracked env clocks (mid.emit (.stat .rxBytes payload.length id)) :=
      hopen.emit (aside_report rfl)
    have hpacket : Tracked env clocks ((mid.emit (.stat .rxBytes payload.length id)).emit
        (.stat .rxPacket 1 id)) := hbytes.emit (aside_report rfl)
    refine hpacket.delivered sink hdr payload plain ?_ hs
    have hsome := Impl.Agrees.isSome (Impl.openPayload_agrees (f := fun _ => ()) ho
      (fun _ _ => rfl)) id
    rw [h] at hsome
    exact hsome

end

/-- The manager reports no connection closed, so the store forgets none: its subscriptions are
all of connections in the registry as long as no removal takes a connection that has one. -/
theorem subscriptions_live_iff (env : Env) (identity : NodeIdentity) (calls : List Call)
    (clocks : Nat → Clock) :
    let st := (Impl.start identity).run env calls
    (∀ e ∈ st.log, saysClosed e = false) ∧
      (Live (heard clocks st.log) st ↔
        Justified (fun e older => Unsubscribed (heard clocks older) e) st.log) := by
  have hstart : Tracked env clocks (Impl.start identity) := by
    refine ⟨start_sound env identity,fun s hs => ?_,?_,fun e he => ?_⟩
    · cases hs
    · exact ⟨fun _ => True.intro,fun _ s hs => by cases hs⟩
    · cases he
  have hrun : Tracked env clocks ((Impl.start identity).run env calls) := by
    refine Impl.run_invariant hstart (fun _ _ h _ hi => Micro.tracked h hi)
      (fun st id bytes hi => ?_) calls (fun _ _ => True.intro)
    have hsame := Impl.setRecvBuf_agrees (f := fun _ => ()) st id bytes (fun _ _ => rfl)
    exact hi.keep (hi.sound.buffer id bytes) (Nat.le_refl _)
      (fun j _ => Impl.Agrees.isSome hsame j) ⟨[],rfl,by simp⟩
  exact ⟨hrun.silent,hrun.exact⟩

/-- The initiator subscribes to every key and its connection goes. -/
def bobLosesSubscriber : List Call := bobConfirms ++
  [.frame 1 msgTypeSysStoreSubscribe 2 ((Impl.start NodeIdentity.alice).run (Env.sample false)
      (aliceConfirms ++ [.event (.send 1 msgTypeSysStoreSubscribe
        (List.replicate 8 0 ++ [0,0,0,1,0,0,0,0]))])).lastSent,
    .event (.disconnected 1)]

set_option maxRecDepth 10000 in
theorem subscriber_outlives_connection :
    ¬∀ (env : Env) (identity : NodeIdentity) (calls : List Call) (clocks : Nat → Clock),
      let st := (Impl.start identity).run env calls
      Live (heard clocks st.log) st := by
  intro h
  have hlive := h (Env.sample false) NodeIdentity.bob bobLosesSubscriber (fun _ _ => 0)
  have hsub : { connId := 1, key := [], queryType := 1 } ∈ (heard (fun _ _ => 0)
      ((Impl.start NodeIdentity.bob).run (Env.sample false) bobLosesSubscriber).log).subscriptions
    := by decide +kernel
  have hgone : (((Impl.start NodeIdentity.bob).run (Env.sample false) bobLosesSubscriber).find
      1).isSome = false := by decide +kernel
  have hsome := hlive _ hsub
  rw [hgone] at hsome
  cases hsome

end GoodNet.Store
