import GoodNet.ManagerMotions
import GoodNet.PkIndex
import GoodNet.Lib.Interleaving
set_option autoImplicit false

/-! `SignalBus::emit_stat` for connects and disconnects: the gauge `connections` and its two
totals, against the number of records in the registry. -/

namespace GoodNet
open Codec Noise

/-- The three counters of `accum_` that follow connections. -/
structure Accum where
  connections : UInt32 := 0
  totalConn : UInt32 := 0
  totalDisc : UInt32 := 0
  deriving DecidableEq, Repr

def Accum.emitStat (e : Effect) (a : Accum) : Accum :=
  match e with
  | .stat .connect .. =>
    { a with connections := a.connections+1, totalConn := a.totalConn+1 }
  | .stat .disconnect .. =>
    { a with connections := a.connections-1, totalDisc := a.totalDisc+1 }
  | _ => a

/-- The counters after a trace, which has its latest entry in front. -/
def accumOf (log : List Effect) : Accum := log.foldr Accum.emitStat {}

/-- `connection_count()`. -/
def Impl.connectionCount (st : Impl) : Nat := st.ids.length

def Effect.counts (kind : StatKind) : Effect → Bool
  | .stat k .. => k == kind
  | _ => false

/-- How often a kind of event has been emitted. -/
def told (kind : StatKind) (log : List Effect) : Nat := log.countP (Effect.counts kind)

/-- The record of a rejected duplicate is gone when its removal begins: the connector has
reported the disconnect before `close_now` returned. -/
def Effect.reportedFirst : Effect → Bool
  | .duplicate id _ found => (found.records.lookup id).isNone
  | _ => true

theorem accumOf_eq (log : List Effect) :
    accumOf log = ⟨UInt32.ofNat (told .connect log)-UInt32.ofNat (told .disconnect log),
      UInt32.ofNat (told .connect log),UInt32.ofNat (told .disconnect log)⟩ := by
  induction log with
  | nil => rfl
  | cons e log ih =>
    have hstep : accumOf (e :: log) = (accumOf log).emitStat e := rfl
    have hnext : ∀ n, UInt32.ofNat (n+1) = UInt32.ofNat n+1 := fun n => UInt32.ofNat_add n 1
    have hmore : ∀ a b : UInt32, a+1-b = a-b+1 := by grind
    have hless : ∀ a b : UInt32, a-(b+1) = a-b-1 := by grind
    rw [hstep,ih]
    cases e with
    | stat kind value id =>
      cases kind with
      | connect =>
        have hc : told .connect (.stat .connect value id :: log) = told .connect log+1 :=
          List.countP_cons_of_pos rfl
        have hd : told .disconnect (.stat .connect value id :: log) = told .disconnect log := rfl
        rw [hc,hd,hnext,hmore,Accum.emitStat]
      | disconnect =>
        have hc : told .connect (.stat .disconnect value id :: log) = told .connect log := rfl
        have hd : told .disconnect (.stat .disconnect value id :: log) = told .disconnect log+1 :=
          List.countP_cons_of_pos rfl
        rw [hc,hd,hnext,hless,Accum.emitStat]
      | _ => rfl
    | _ => rfl

structure Impl.Counted (st : Impl) : Prop where
  balance : told .connect st.log = told .disconnect st.log+st.connectionCount
  behind : ∀ earlier, earlier <:+ st.log → told .disconnect earlier ≤ told .connect earlier

/-- As many records as before, and nothing said about connections. -/
structure Level (st st' : Impl) : Prop where
  count : st'.connectionCount = st.connectionCount
  log : ∃ new, st'.log = new ++ st.log ∧
    ∀ e ∈ new, e.counts .connect = false ∧ e.counts .disconnect = false

section
variable {env : Env} {heard : Nat → NoiseFrame → Read → Prop} {st st' : Impl}

theorem told_skip {kind : StatKind} {new : List Effect} (h : ∀ e ∈ new, e.counts kind = false)
    (log : List Effect) : told kind (new ++ log) = told kind log := by
  have hnew : new.countP (Effect.counts kind) = 0 :=
    List.countP_eq_zero.2 (fun e he => by simp [h e he])
  unfold told
  rw [List.countP_append,hnew,Nat.zero_add]

theorem Impl.Counted.level (h : st.Counted) (hl : Level st st') : st'.Counted := by
  obtain ⟨new,hlog,hnew⟩ := hl.log
  have hskip : ∀ part, (∀ e ∈ part, e ∈ new) → ∀ log,
      told .connect (part ++ log) = told .connect log ∧
        told .disconnect (part ++ log) = told .disconnect log := fun part hp log =>
    ⟨told_skip (fun e he => (hnew e (hp e he)).1) log,
      told_skip (fun e he => (hnew e (hp e he)).2) log⟩
  refine ⟨?_,fun earlier he => ?_⟩
  · obtain ⟨hc,hd⟩ := hskip new (fun _ he => he) st.log
    rw [hlog,hc,hd,hl.count]
    exact h.balance
  · rw [hlog] at he
    obtain ⟨later,hsplit⟩ := he
    rcases List.append_eq_append_iff.1 hsplit with ⟨part,hpart,rfl⟩ | ⟨part,rfl,hrest⟩
    · obtain ⟨hc,hd⟩ := hskip part (fun e he => by rw [hpart]; exact List.mem_append_right later he)
        st.log
      rw [hc,hd]
      exact h.behind _ List.suffix_rfl
    · exact h.behind _ ⟨part,hrest.symm⟩

/-- One more entry, after which the counts agree with the records again. -/
theorem Impl.Counted.next (h : st.Counted) {e : Effect} (hlog : st'.log = e :: st.log)
    (hb : told .connect st'.log = told .disconnect st'.log+st'.connectionCount) : st'.Counted := by
  refine ⟨hb,fun earlier he => ?_⟩
  rw [hlog] at he
  rcases List.suffix_cons_iff.1 he with rfl | he
  · rw [← hlog]
    omega
  · exact h.behind _ he

/-- A record goes and a disconnect is counted. -/
theorem Impl.Counted.dropped (h : st.Counted) {id : Nat}
    (hlog : st'.log = .stat .disconnect 1 id :: st.log)
    (hcount : st'.connectionCount+1 = st.connectionCount) : st'.Counted := by
  have hc : told .connect st'.log = told .connect st.log := by
    rw [hlog]
    rfl
  have hd : told .disconnect st'.log = told .disconnect st.log+1 := by
    rw [hlog]
    exact List.countP_cons_of_pos rfl
  have hb := h.balance
  exact h.next hlog (by omega)

/-- A record comes and a connect is counted. -/
theorem Impl.Counted.added (h : st.Counted) {id : Nat}
    (hlog : st'.log = .stat .connect 1 id :: st.log)
    (hcount : st'.connectionCount = st.connectionCount+1) : st'.Counted := by
  have hd : told .disconnect st'.log = told .disconnect st.log := by
    rw [hlog]
    rfl
  have hc : told .connect st'.log = told .connect st.log+1 := by
    rw [hlog]
    exact List.countP_cons_of_pos rfl
  have hb := h.balance
  exact h.next hlog (by omega)

theorem Level.modify (st : Impl) (id : Nat) (f : ConnectionRecord → ConnectionRecord) :
    Level st (st.modify id f) :=
  ⟨(st.ids_modify id f).length_eq,[],rfl,by simp⟩

theorem Level.emit (st : Impl) {e : Effect} (hc : e.counts .connect = false)
    (hd : e.counts .disconnect = false) : Level st (st.emit e) :=
  ⟨rfl,[e],rfl,by simpa using ⟨hc,hd⟩⟩

theorem Level.same (hids : st'.ids = st.ids) (hlog : st'.log = st.log) : Level st st' :=
  ⟨congrArg List.length hids,[],hlog,by simp⟩

theorem Effect.isPlain_counts {e : Effect} (h : e.isPlain = true) :
    e.counts .connect = false ∧ e.counts .disconnect = false := by
  cases e with
  | stat kind value id => cases kind <;> first | exact ⟨rfl,rfl⟩ | cases h
  | _ => exact ⟨rfl,rfl⟩

theorem Effect.isTraffic_counts {e : Effect} (h : e.isTraffic = true) :
    e.counts .connect = false ∧ e.counts .disconnect = false := by
  cases e with
  | stat kind value id => cases kind <;> first | exact ⟨rfl,rfl⟩ | cases h
  | _ => exact ⟨rfl,rfl⟩

theorem Mild.level (h : Mild st st') : Level st st' := by
  obtain ⟨new,hl,hp⟩ := h.log
  exact ⟨h.ids.length_eq,new,hl,fun e he => Effect.isPlain_counts (hp e he)⟩

theorem Impl.sendFrame_level (st : Impl) (id : Nat) (msgType : UInt32) (payload : Bytes) :
    Level st (st.sendFrame env id msgType payload) := by
  have hfoot := st.sendFrame_footprint env id msgType payload
  obtain ⟨new,hl,hp⟩ := hfoot.log
  exact ⟨hfoot.ids.length_eq,new,hl,fun e he => Effect.isTraffic_counts (hp e he).1⟩

theorem Impl.Counted.dropTransport (h : st.Counted) (id peer : Nat) :
    (st.dropTransport id peer).Counted := by
  have herase : (st.eraseTransport id).Counted := h.level (Level.same rfl rfl)
  unfold Impl.dropTransport
  dsimp only
  split
  · exact herase
  · split
    · exact herase.level (Level.modify _ peer _)
    · rename_i p _
      have huri : ((st.eraseTransport id).eraseUri p.remote.key).Counted :=
        herase.level (Level.same rfl rfl)
      have hpath := huri.level (Level.modify _ peer (ConnectionRecord.dropPath id))
      split
      · exact hpath
      · exact hpath.level (Level.emit _ rfl rfl)

theorem Impl.forgetPeer_count (st : Impl) {id : Nat} {r : ConnectionRecord} (h : st.find id = some r) :
    (st.forgetPeer id r).connectionCount+1 = st.connectionCount := by
  have hmem : id ∈ st.ids := (st.mem_ids id).2 ⟨r,h⟩
  have hkeys : (st.forgetPeer id r).ids = st.ids.erase id := AList.keys_erase id st.records
  have hpos : 0 < st.ids.length := List.length_pos_of_mem hmem
  have hlen : (st.ids.erase id).length = st.ids.length-1 := List.length_erase_of_mem hmem
  unfold connectionCount
  rw [hkeys,hlen]
  omega

/-- A disconnect is counted when it takes a record, and only then. -/
theorem Impl.Counted.handleDisconnect (h : st.Counted) (id : Nat) :
    (st.handleDisconnect id).Counted := by
  have hnote : (st.emit (.disconnecting id st.toRegistry)).Counted := h.level (Level.emit st rfl rfl)
  rcases st.handleDisconnect_cases id with ⟨peer,-,heq⟩ | ⟨-,-,heq⟩ | ⟨-,r,hr,heq⟩
  · rw [heq]
    exact hnote.dropTransport id peer
  · rw [heq]
    exact hnote
  · rw [heq]
    refine Impl.Counted.level ?_ (Level.emit _ rfl rfl)
    have hcount := (st.emit (.disconnecting id st.toRegistry)).forgetPeer_count hr
    exact hnote.dropped rfl hcount

theorem Impl.Counted.removeDuplicate (h : st.Counted) {id : Nat} {r : ConnectionRecord}
    (hgone : st.find id = none) : (st.removeDuplicate id r).Counted := by
  refine h.level ⟨?_,[.duplicate id r st.toRegistry],rfl,by simp [Effect.counts]⟩
  have hkeys : (st.removeDuplicate id r).ids = st.ids.erase id := AList.keys_erase id st.records
  have hmem : id ∉ st.ids := by
    rw [st.mem_ids,hgone]
    simp
  unfold connectionCount
  rw [hkeys,List.erase_of_not_mem hmem]

/-- The counts are right unless a duplicate has been removed before it was reported. -/
def Impl.Tallied (st : Impl) : Prop := (∀ e ∈ st.log, e.reportedFirst = true) → st.Counted

theorem Impl.Tallied.grow {new : List Effect} (h : st.Tallied) (hlog : st'.log = new ++ st.log)
    (hc : st.Counted → st'.Counted) : st'.Tallied := by
  intro hall
  rw [hlog] at hall
  exact hc (h (fun e he => hall e (List.mem_append_right new he)))

theorem Impl.Tallied.level (h : st.Tallied) (hl : Level st st') : st'.Tallied := by
  obtain ⟨new,hlog,-⟩ := hl.log
  exact h.grow hlog (fun hc => hc.level hl)

theorem Impl.Tallied.handleDisconnect (h : st.Tallied) (id : Nat) :
    (st.handleDisconnect id).Tallied := by
  obtain ⟨new,hlog,-⟩ := st.handleDisconnect_log id
  rw [← List.singleton_append,← List.append_assoc] at hlog
  exact h.grow hlog (fun hc => hc.handleDisconnect id)

theorem Motion.tallied (h : Motion env heard st st') (ht : st.Tallied) : st'.Tallied := by
  cases h with
  | talk h =>
    cases h with
    | mild h => exact ht.level h.level
    | frame id msgType payload => exact ht.level (st.sendFrame_level id msgType payload)
  | disconnect id => exact ht.handleDisconnect id
  | hangUp h =>
    exact Impl.hangUp_rule (fun a b hab ha => ha.level hab.level)
      (fun a via ha => ha.handleDisconnect via) h
      (fun a via scheme _ ha => ha.level (Level.emit a rfl rfl))
      (fun a via scheme _ ha => ha.level (Level.emit a rfl rfl)) ht
  | duplicate id r =>
    intro hall
    have hgone : st.find id = none :=
      Option.isNone_iff_eq_none.1 (hall (.duplicate id r st.toRegistry) List.mem_cons_self)
    exact (ht (fun e he => hall e (List.mem_cons_of_mem _ he))).removeDuplicate hgone
  | read kind msg cap h =>
    exact (ht.level (Level.modify st _ _)).level (Level.emit _ rfl rfl)
  | greet h h0 =>
    have hask : st.ask.Tallied := ht.level (Level.same rfl rfl)
    exact (hask.level (Level.modify _ _ _)).level (Level.emit _ rfl rfl)
  | answer h hd hok =>
    have hask : st.ask.Tallied := ht.level (Level.same rfl rfl)
    exact (hask.level (Level.modify _ _ _)).level (Level.emit _ rfl rfl)
  | authenticate h hd hk ha => exact ht.level (Level.modify st _ _)
  | @commit id r hs h hh =>
    have hkeyed := ht.level (Level.modify st id (ConnectionRecord.committed env.sodium hs))
    have hindexed : ({ st.modify id (ConnectionRecord.committed env.sodium hs) with
        pkIndex := st.pkIndex.insert r.pkHex id } : Impl).Tallied :=
      hkeyed.level (Level.same rfl rfl)
    exact hindexed.level (Level.emit _ rfl rfl)

theorem Impl.Counted.insertRecord (h : st.Counted) (ep : Endpoint)
    (hfresh : ∀ id r, st.find id = some r → id < st.nextId) :
    (st.insertRecord env ep).Counted := by
  have hmem : st.nextId ∉ st.ids := by
    rw [st.mem_ids]
    rintro ⟨r,hr⟩
    exact Nat.lt_irrefl _ (hfresh st.nextId r hr)
  have hkeys : (st.insertRecord env ep).ids = st.nextId :: st.ids.erase st.nextId :=
    AList.keys_insert st.records
  have hnote : (st.emit (.registered ep.key st.nextId)).Counted := h.level (Level.emit st rfl rfl)
  refine hnote.added rfl ?_
  unfold connectionCount
  rw [hkeys,List.erase_of_not_mem hmem]
  rfl

/-- How a call begins: a connect brings one record and is counted once. -/
theorem Event.opening_tallied (e : Event) (hs : st.SoundRecords env.sodium) (ht : st.Tallied) :
    (e.opening env st).Tallied := by
  rcases e.opening_cases env st with h | ⟨ep,-,-,h⟩ | ⟨pk,ep,scheme,peer,r,-,-,-,h⟩ | ⟨next,-,h⟩ |
    ⟨scheme,ops,-,h⟩ | ⟨priority,-,h⟩
  · rw [h]
    exact ht
  · rw [h]
    have hlog : (st.insertRecord env ep).log =
        [.stat .connect 1 st.nextId,.registered ep.key st.nextId] ++ st.log := rfl
    exact ht.grow hlog (fun hc => hc.insertRecord ep hs.fresh)
  · rw [h]
    have hattach : Level st (st.attachTransport peer ep scheme) :=
      ⟨(st.ids_modify peer _).length_eq,
        [.transportChange peer scheme true,.registered ep.key peer],rfl,by simp [Effect.counts]⟩
    exact ht.level hattach
  · rw [h]
    exact ht.level (Level.same rfl rfl)
  · rw [h]
    exact ht.level (Level.same rfl rfl)
  · rw [h]
    exact ht.level (Level.same rfl rfl)

theorem Event.step_tallied (e : Event) (hs : st.SoundRecords env.sodium) (ht : st.Tallied) :
    (e.step env st).Tallied :=
  ((Event.step_motions hs e).invariant (e.opening_tallied hs ht) (fun _ _ _ h => h.tallied)).1

end

/-- Feeding bytes in is a run of events, so a run of calls is one. -/
theorem Impl.run_events (env : Env) (st : Impl) (calls : List Call) :
    ∃ events, st.run env calls = st.perform env events := by
  induction calls generalizing st with
  | nil => exact ⟨[],rfl⟩
  | cons c calls ih =>
    have hone : ∃ events, c.step env st = st.perform env events := by
      cases c with
      | event e => exact ⟨[e],rfl⟩
      | data id chunk others =>
        obtain ⟨events,h,-⟩ := st.handleData_events env id chunk others
        exact ⟨events,h⟩
    obtain ⟨events,h⟩ := hone
    obtain ⟨later,hl⟩ := ih (c.step env st)
    refine ⟨events ++ later,?_⟩
    rw [perform_append,← h]
    exact hl

theorem run_tallied (env : Env) (identity : NodeIdentity) (calls : List Call) :
    ((Impl.start identity).run env calls).Tallied := by
  obtain ⟨events,h⟩ := (Impl.start identity).run_events env calls
  have hstart : (Impl.start identity).SoundRecords env.sodium ∧ (Impl.start identity).Tallied := by
    refine ⟨start_sound env identity,fun _ => ⟨rfl,fun earlier he => ?_⟩⟩
    rw [List.suffix_nil.1 he]
    exact Nat.le_refl _
  have hrun : (Interleaving.run (Event.step env) (Impl.start identity) events).SoundRecords
      env.sodium ∧ (Interleaving.run (Event.step env) (Impl.start identity) events).Tallied :=
    Interleaving.run_invariant (I := fun st : Impl => st.SoundRecords env.sodium ∧ st.Tallied)
      (fun st e hi => ⟨Event.step_sound hi.1 e,e.step_tallied hi.1 hi.2⟩) hstart events
  rw [h]
  exact hrun.2

/-- Whatever comes and goes, the gauge and the difference of the totals are the number of
records, and no disconnect is counted that no connect precedes. -/
theorem gauge_counts_records (env : Env) (identity : NodeIdentity) (calls : List Call)
    (h : ∀ e ∈ ((Impl.start identity).run env calls).log, e.reportedFirst = true) :
    let st := (Impl.start identity).run env calls
    (accumOf st.log).connections = UInt32.ofNat st.connectionCount ∧
      (accumOf st.log).totalConn-(accumOf st.log).totalDisc = UInt32.ofNat st.connectionCount ∧
      (st.connectionCount < 2^32 → (accumOf st.log).connections.toNat = st.connectionCount) ∧
      ∀ earlier, earlier <:+ st.log → told .disconnect earlier ≤ told .connect earlier := by
  intro st
  have hc : st.Counted := run_tallied env identity calls h
  have hdiff : UInt32.ofNat (told .connect st.log)-UInt32.ofNat (told .disconnect st.log) =
      UInt32.ofNat st.connectionCount := by
    rw [hc.balance,UInt32.ofNat_add]
    grind
  rw [accumOf_eq]
  refine ⟨hdiff,hdiff,fun hsmall => ?_,hc.behind⟩
  dsimp only
  rw [hdiff]
  exact UInt32.toNat_ofNat_of_lt' hsmall

set_option maxRecDepth 10000 in
/-- The connector has reported the disconnect before the duplicate is removed. -/
theorem gauge_counts_records_rejected :
    (accumOf ((Impl.start NodeIdentity.bob).run (Env.sample true) bobRejects).log).connections = 1 ∧
      ((Impl.start NodeIdentity.bob).run (Env.sample true) bobRejects).connectionCount = 1 := by
  have hall : ∀ e ∈ ((Impl.start NodeIdentity.bob).run (Env.sample true) bobRejects).log,
      e.reportedFirst = true := List.all_eq_true.1 (by decide +kernel)
  have hcount : ((Impl.start NodeIdentity.bob).run (Env.sample true) bobRejects).connectionCount =
    1 := by decide +kernel
  have hgauge := (gauge_counts_records (Env.sample true) NodeIdentity.bob bobRejects hall).1
  rw [hcount] at hgauge
  exact ⟨hgauge,hcount⟩

/-- The same peer connects once more and runs its handshake to the end, over a connector that
reports a close later. -/
def bobMeetsTwice : List Call := bobConfirms ++
  [.event (.connected (Endpoint.sample "a2" 0)),
    .frame 2 msgTypeNoiseInit 0
      ((Impl.start NodeIdentity.alice).run (Env.sample false) aliceOpens).lastSent]

def bobRemoves : List Call := bobMeetsTwice ++
  [.frame 2 msgTypeNoiseFin 0 ((Impl.start NodeIdentity.alice).run (Env.sample false)
    (aliceOpens ++ [.frame 1 msgTypeNoiseResp 0
      ((Impl.start NodeIdentity.bob).run (Env.sample false) bobMeetsTwice).lastSent])).lastSent,
    .event (.disconnected 2)]

set_option maxRecDepth 10000 in
/-- The removed record is never counted as gone, not even when the report comes in. -/
theorem gauge_misses_duplicate :
    ((Impl.start NodeIdentity.bob).run (Env.sample false) bobRemoves).connectionCount = 1 ∧
      (accumOf ((Impl.start NodeIdentity.bob).run (Env.sample false) bobRemoves).log).connections =
        2 ∧
      (accumOf ((Impl.start NodeIdentity.bob).run (Env.sample false) bobRemoves).log).totalConn-
        (accumOf ((Impl.start NodeIdentity.bob).run (Env.sample false) bobRemoves).log).totalDisc =
        2 := by decide +kernel

end GoodNet
