import GoodNet.ManagerMotions
import GoodNet.HonestNode
import GoodNet.Lib.Interleaving
set_option autoImplicit false

/-! `rotate_identity_keys` among handshakes. The Noise static key of a connection is taken from
the identity at the connect, the payload from the identity one or two messages later. -/

namespace GoodNet
open Codec Noise Interleaving

/-- The manager, with a note of the static key each handshake was initialised with. -/
structure KeyRun where
  st : Impl
  static : Table Nat Key := ∅

def KeyRun.act (env : Env) (s : KeyRun) (e : Event) : KeyRun where
  st := e.step env s.st
  static :=
    match e with
    | .connected ep =>
      if s.st.shuttingDown then s.static
      else s.static.insert s.st.nextId (s.st.freshHandshake env ep).sPk
    | _ => s.static

/-- No handshake has its payload still to send: an initiator sends it when it answers the
second message, a responder when it answers the first. -/
def Impl.payloadsSent (st : Impl) : Bool :=
  st.records.entries.all (fun e => e.2.handshake.all (fun hs => decide (2 ≤ hs.step)))

/-- A connection begins with a device key that has an X25519 image, and a rotation changes
this image only when no payload is due. -/
def Event.keepsKey (env : Env) (st : Impl) : Event → Bool
  | .connected _ =>
    st.shuttingDown || (env.sodium.pkToCurve25519 st.identity.devicePubkey).isSome
  | .rotate next =>
    decide (env.sodium.pkToCurve25519 next.devicePubkey =
      env.sodium.pkToCurve25519 st.identity.devicePubkey) || st.payloadsSent
  | _ => true

/-- Two states of one exchange, the first about to write a message that carries a payload. -/
inductive Paired (S : Sodium) (writer reader : HandshakeState) : Prop where
  | second (h : Met S 1 reader writer) (he : writer.re = S.scalarmultBase reader.eSk)
  | third (h : Met S 2 writer reader) (he : writer.re = S.scalarmultBase reader.eSk)
      (hk : reader.symmetric.cipher.hasKey = true)

/-- The device key of a payload, as a peer decodes it, belongs to a static key. -/
def ShowsKey (S : Sodium) (payload : Bytes) (key : Key) : Prop :=
  S.pkToCurve25519 (HandshakePayload.decode payload).devicePubkey = some key

/-- A Noise message is a first one with no payload, or carries a payload that shows the static
key of its handshake. -/
def Effect.OwnKey (S : Sodium) (static : Table Nat Key) : Effect → Prop
  | .noiseWrite id before secret w => w.ok = true →
    (before.step = 0 ∧ w = before.writeMessage S secret []) ∨
    ∃ payload, w = before.writeMessage S secret payload ∧
      static.lookup id = some before.sPk ∧ ShowsKey S payload before.sPk
  | _ => True

structure Impl.Keyed (S : Sodium) (static : Table Nat Key) (st : Impl) : Prop where
  handshakes : ∀ id r hs, st.find id = some r → r.handshake = some hs →
    static.lookup id = some hs.sPk ∧
      (hs.step < 2 → S.pkToCurve25519 st.identity.devicePubkey = some hs.sPk)
  log : ∀ e ∈ st.log, e.OwnKey S static
  fresh : ∀ id key, static.lookup id = some key → id < st.nextId

section
variable {S : Sodium} {static : Table Nat Key} {env : Env} {st st' : Impl}

/-- What an honest peer does with the message: it reads the payload, and the key in it is the
static key it has learned. -/
theorem Paired.check {writer reader : HandshakeState} (h : Paired S writer reader) (L : S.Lawful)
    (secret : Key) {payload : Bytes} (hp : ShowsKey S payload writer.sPk) :
    let d := reader.readMessage S (writer.writeMessage S secret payload).out
    d.ok = true ∧ ShowsKey S d.payloadOut d.state.rs := by
  cases h with
  | second h he =>
    obtain ⟨-,hans,-,hsame⟩ := second_message L.seal_open h he secret (L.dh_agree _ _)
      (L.dh_agree _ _) payload
    refine ⟨hans.ok,?_⟩
    rw [hans.payload,hans.static,hsame]
    exact hp
  | third h he hk =>
    obtain ⟨-,hcon,-,-⟩ := third_message L.seal_open h he hk (L.dh_agree _ _) secret payload
    refine ⟨hcon.ok,?_⟩
    rw [hcon.payload,hcon.static]
    exact hp

theorem Impl.buildHandshakePayload_shows (env : Env) (st : Impl) {key : Key}
    (h : env.sodium.pkToCurve25519 st.identity.devicePubkey = some key) :
    ShowsKey env.sodium (st.buildHandshakePayload env) key := by
  have hdevice : (HandshakePayload.decode (st.buildHandshakePayload env)).devicePubkey =
      st.identity.devicePubkey := (HandshakePayload.decode_encode _).2.1
  unfold ShowsKey
  rw [hdevice]
  exact h

/-- Steps in which a handshake may go on or end, but none begins. -/
theorem Impl.Keyed.keep {new : List Effect} (h : st.Keyed S static)
    (hh : ∀ id r' hs', st'.find id = some r' → r'.handshake = some hs' →
      ∃ r hs, st.find id = some r ∧ r.handshake = some hs ∧ hs'.sPk = hs.sPk ∧ hs.step ≤ hs'.step)
    (hid : st'.identity = st.identity) (hn : st.nextId ≤ st'.nextId)
    (hlog : st'.log = new ++ st.log) (hnew : ∀ e ∈ new, e.OwnKey S static) :
    st'.Keyed S static := by
  refine ⟨fun id r' hs' hr' hh' => ?_,?_,
    fun id key hk => Nat.lt_of_lt_of_le (h.fresh id key hk) hn⟩
  · obtain ⟨r,hs,hr,hrh,hpk,hstep⟩ := hh id r' hs' hr' hh'
    obtain ⟨hstatic,hdue⟩ := h.handshakes id r hs hr hrh
    rw [hid,hpk]
    exact ⟨hstatic,fun hlt => hdue (Nat.lt_of_le_of_lt hstep hlt)⟩
  · rw [hlog]
    exact List.forall_mem_append.2 ⟨hnew,h.log⟩

theorem Impl.Keyed.same {new : List Effect} (h : st.Keyed S static)
    (hk : Impl.Keeps ConnectionRecord.handshake st st') (hid : st'.identity = st.identity)
    (hn : st.nextId ≤ st'.nextId) (hlog : st'.log = new ++ st.log)
    (hnew : ∀ e ∈ new, e.OwnKey S static) : st'.Keyed S static := by
  refine h.keep (fun id r' hs' hr' hh' => ?_) hid hn hlog hnew
  obtain ⟨r,hr,heq⟩ := hk id r' hr'
  exact ⟨r,hs',hr,heq.symm.trans hh',rfl,Nat.le_refl _⟩

theorem Effect.isPlain_ownKey {e : Effect} (h : e.isPlain = true) : e.OwnKey S static := by
  cases e with
  | noiseWrite => cases h
  | _ => trivial

theorem Effect.isTraffic_ownKey {e : Effect} (h : e.isTraffic = true) : e.OwnKey S static := by
  cases e with
  | noiseWrite => cases h
  | _ => trivial

theorem Impl.Keyed.emit (h : st.Keyed S static) {e : Effect} (he : e.OwnKey S static) :
    (st.emit e).Keyed S static := by
  have hlog : (st.emit e).log = [e] ++ st.log := rfl
  refine h.same (Keeps.of_records rfl) rfl (Nat.le_refl _) hlog (fun e' he' => ?_)
  rw [List.mem_singleton.1 he']
  exact he

theorem Impl.Keyed.mild (h : st.Keyed S static) (hm : Mild st st') : st'.Keyed S static := by
  obtain ⟨new,hlog,hplain⟩ := hm.log
  have hk : Impl.Keeps ConnectionRecord.handshake st st' := by
    intro id r' hr'
    obtain ⟨r,hr,hspine⟩ := hm.spine.keeps id r' hr'
    exact ⟨r,hr,congrArg Prod.fst hspine⟩
  exact h.same hk hm.identity hm.nextId.ge hlog (fun e he => Effect.isPlain_ownKey (hplain e he))

theorem Impl.Keyed.frame (h : st.Keyed S static) (id : Nat) (msgType : UInt32) (payload : Bytes) :
    (st.sendFrame env id msgType payload).Keyed S static := by
  have hfoot := st.sendFrame_footprint env id msgType payload
  obtain ⟨new,hlog,hpath⟩ := hfoot.log
  have hk : Impl.Keeps ConnectionRecord.handshake st (st.sendFrame env id msgType payload) := by
    intro j r' hr'
    obtain ⟨r,hr,hu⟩ := hfoot.find_some hr'
    exact ⟨r,hr,(ConnectionRecord.unsent_field ConnectionRecord.handshake (fun _ => rfl) hu).symm⟩
  exact h.same hk hfoot.identity hfoot.nextId.ge hlog
    (fun e he => Effect.isTraffic_ownKey (hpath e he).1)

theorem Impl.Keyed.handleDisconnect (h : st.Keyed S static) (via : Nat) :
    (st.handleDisconnect via).Keyed S static := by
  obtain ⟨new,hlog,hreport⟩ := st.handleDisconnect_log via
  have hfixed := st.handleDisconnect_fixed via
  rw [← List.singleton_append,← List.append_assoc] at hlog
  refine h.same (st.handleDisconnect_keeps via (fun _ => rfl)) hfixed.identity
    hfixed.nextId.ge hlog ?_
  intro e he
  rcases List.mem_append.1 he with he | he
  · have hr := hreport e he
    cases e with
    | noiseWrite => cases hr
    | _ => trivial
  · rw [List.mem_singleton.1 he]
    trivial

/-- The handshake of a connection goes on to a state of the same party. -/
theorem Impl.Keyed.onward (h : st.Keyed S static) {id : Nat} {hs hs' : HandshakeState} {e : Effect}
    (hb : (st.find id).bind ConnectionRecord.handshake = some hs) (hpk : hs'.sPk = hs.sPk)
    (hstep : hs.step ≤ hs'.step) (he : e.OwnKey S static) :
    ((st.modify id (ConnectionRecord.withHandshake hs')).emit e).Keyed S static := by
  refine Impl.Keyed.emit ?_ he
  refine h.keep (fun j r' hs₁ hr' hh' => ?_) rfl (Nat.le_refl _) (List.nil_append _).symm (by simp)
  obtain ⟨r,hr,⟨rfl,rfl⟩ | ⟨-,rfl⟩⟩ := find_modify_some hr'
  · rw [hr] at hb
    cases hh'
    exact ⟨r,hs,hr,hb,hpk,hstep⟩
  · exact ⟨r',hs₁,hr,hh',rfl,Nat.le_refl _⟩

theorem Noise.Counts.le {ok : Bool} {before after : Nat} (h : Counts ok before after) :
    before ≤ after := by
  unfold Counts at h
  split at h
  · omega
  · omega

/-- A payload is written when the message before it has just been read; it is enough that the
identity still has the key of every such handshake. -/
theorem Motion.keyed {heard : Nat → NoiseFrame → Read → Prop} (h : Motion env heard st st')
    (hst : st.Keyed env.sodium static)
    (hdue : ∀ id kind d, heard id kind d → d.ok = true → d.state.step ≤ 2 →
      env.sodium.pkToCurve25519 st.identity.devicePubkey = some d.state.sPk) :
    st'.Keyed env.sodium static := by
  have hask : st.ask.Keyed env.sodium static := hst.mild (Mild.ask st)
  cases h with
  | talk h =>
    cases h with
    | mild h => exact hst.mild h
    | frame id msgType payload => exact hst.frame id msgType payload
  | disconnect id => exact hst.handleDisconnect id
  | hangUp h =>
    exact Impl.hangUp_rule (fun a b hab ha => ha.mild hab) (fun a via ha => ha.handleDisconnect via)
      h (fun a via scheme _ ha => ha.emit trivial) (fun a via scheme _ ha => ha.emit trivial) hst
  | duplicate id r =>
    have hlog : (st.removeDuplicate id r).log = [.duplicate id r st.toRegistry] ++ st.log := rfl
    exact hst.same (Impl.Keeps.erase id rfl) rfl (Nat.le_refl _) hlog (by simp [Effect.OwnKey])
  | @read id hs kind msg cap h =>
    exact hst.onward h (hs.readMessage_same msg).sPk (hs.readMessage_counts msg).le trivial
  | @greet id hs h h0 =>
    obtain ⟨hwrote,hcounts⟩ := hs.writeMessage_wrote (S := env.sodium) (env.random st.asked) []
    exact hask.onward h hwrote.sPk hcounts.le (fun _ => .inl ⟨h0,rfl⟩)
  | @answer id kind d h hd hok =>
    obtain ⟨r,hr,hh⟩ := Option.bind_eq_some_iff.1 h
    obtain ⟨hwrote,hcounts⟩ := d.state.writeMessage_wrote (S := env.sodium) (env.random st.asked)
      (st.buildHandshakePayload env)
    refine hask.onward h hwrote.sPk hcounts.le (fun hw => .inr ⟨_,rfl,?_,?_⟩)
    · exact (hst.handshakes id r d.state hr hh).1
    · exact st.buildHandshakePayload_shows env
        (hdue id kind d hd hok (HandshakeState.writeMessage_ok_step hw).1)
  | @authenticate id kind d h hd hk ha =>
    refine hst.same (fun j r' hr' => ?_) rfl (Nat.le_refl _) (List.nil_append _).symm (by simp)
    obtain ⟨r,hr,⟨rfl,rfl⟩ | ⟨-,rfl⟩⟩ := Impl.find_modify_some hr'
    · exact ⟨r,hr,(st.authenticate_keeps _ _ r).1⟩
    · exact ⟨r',hr,rfl⟩
  | @commit id r hs h hh =>
    have hlog : (st.commitSession env id r hs).log = [.established id r hs] ++ st.log := rfl
    refine hst.keep (fun j r' hs' hr' hh' => ?_) rfl (Nat.le_refl _) hlog (by simp [Effect.OwnKey])
    obtain ⟨r₀,hr₀,⟨rfl,rfl⟩ | ⟨-,rfl⟩⟩ := Impl.find_modify_some hr'
    · cases hh'
    · exact ⟨r',hs',hr₀,hh',rfl,Nat.le_refl _⟩

theorem Impl.Keyed.insertRecord (h : st.Keyed env.sodium static) (ep : Endpoint)
    (hkey : (env.sodium.pkToCurve25519 st.identity.devicePubkey).isSome = true) :
    (st.insertRecord env ep).Keyed env.sodium
      (static.insert st.nextId (st.freshHandshake env ep).sPk) := by
  obtain ⟨key,hconv⟩ := Option.isSome_iff_exists.1 hkey
  have hnext : (st.insertRecord env ep).nextId = st.nextId+1 := rfl
  have hold : ∀ id k, static.lookup id = some k →
      (static.insert st.nextId (st.freshHandshake env ep).sPk).lookup id = some k := by
    intro id k hk
    rw [AList.lookup_insert_ne (Nat.ne_of_lt (h.fresh id k hk))]
    exact hk
  refine ⟨fun id r hs hr hh => ?_,?_,fun id k hk => ?_⟩
  · by_cases hid : id = st.nextId
    · subst hid
      rw [insertRecord_find,Option.some.injEq] at hr
      subst hr
      cases hh
      have hspk : (st.freshHandshake env ep).sPk = key := by
        unfold freshHandshake
        rw [hconv]
        rfl
      refine ⟨AList.lookup_insert static,fun _ => ?_⟩
      exact hconv.trans (congrArg some hspk.symm)
    · rw [insertRecord_find_ne hid] at hr
      obtain ⟨hstatic,hdue⟩ := h.handshakes id r hs hr hh
      exact ⟨hold id _ hstatic,hdue⟩
  · have hlog : (st.insertRecord env ep).log =
        [.stat .connect 1 st.nextId,.registered ep.key st.nextId] ++ st.log := rfl
    rw [hlog]
    refine List.forall_mem_append.2 ⟨by simp [Effect.OwnKey],fun e he => ?_⟩
    have hown := h.log e he
    cases e with
    | noiseWrite id before secret w =>
      intro hw
      rcases hown hw with hfirst | ⟨payload,heq,hstatic,hshow⟩
      · exact .inl hfirst
      · exact .inr ⟨payload,heq,hold id _ hstatic,hshow⟩
    | _ => trivial
  · rw [hnext]
    by_cases hid : id = st.nextId
    · omega
    · rw [AList.lookup_insert_ne hid] at hk
      exact Nat.lt_succ_of_lt (h.fresh id k hk)

theorem Impl.payloadsSent_step (h : st.payloadsSent = true) {id : Nat} {r : ConnectionRecord}
    {hs : HandshakeState} (hr : st.find id = some r) (hh : r.handshake = some hs) : 2 ≤ hs.step := by
  have hmem : (⟨id,r⟩ : Sigma fun _ : Nat => ConnectionRecord) ∈ st.records.entries :=
    AList.mem_lookup_iff.1 hr
  have hall := List.all_eq_true.1 h _ hmem
  rw [hh] at hall
  simpa using hall

/-- The rotation itself: whoever still has a payload to send finds the old image. -/
theorem Impl.Keyed.rotate (h : st.Keyed S static) (next : NodeIdentity)
    (hkey : S.pkToCurve25519 next.devicePubkey = S.pkToCurve25519 st.identity.devicePubkey ∨
      st.payloadsSent = true) : (st.rotateIdentityKeys next).Keyed S static := by
  refine ⟨fun id r hs hr hh => ?_,h.log,h.fresh⟩
  obtain ⟨hstatic,hdue⟩ := h.handshakes id r hs hr hh
  refine ⟨hstatic,fun hlt => ?_⟩
  rcases hkey with hsame | hsent
  · exact hsame.trans (hdue hlt)
  · exact absurd (payloadsSent_step hsent hr hh) (Nat.not_le.2 hlt)

theorem KeyRun.act_keyed {s : KeyRun} {e : Event} (hs : s.st.SoundRecords env.sodium)
    (h : s.st.Keyed env.sodium s.static) (hc : e.keepsKey env s.st = true) :
    (s.act env e).st.Keyed env.sodium (s.act env e).static := by
  have hopen : (e.opening env s.st).Keyed env.sodium (s.act env e).static := by
    cases e with
    | connected ep =>
      unfold Event.opening KeyRun.act
      dsimp only
      split
      · exact h
      · rename_i hdown
        exact h.insertRecord ep (by simpa [Event.keepsKey,hdown] using hc)
    | addTransport pk ep scheme =>
      change (s.st.handleAddTransport pk ep scheme).1.Keyed env.sodium s.static
      rcases s.st.handleAddTransport_cases pk ep scheme with heq | ⟨peer,r,-,-,heq⟩
      · rw [heq]
        exact h
      · rw [heq]
        have hlog : (s.st.attachTransport peer ep scheme).log =
            [.transportChange peer scheme true,.registered ep.key peer] ++ s.st.log := rfl
        exact h.same (Impl.attachTransport_agrees peer ep scheme (fun _ _ => rfl)).keeps rfl
          (Nat.le_succ _) hlog (by simp [Effect.OwnKey])
    | rotate next =>
      refine h.rotate next ?_
      simpa [Event.keepsKey] using hc
    | registerConnector scheme ops => exact ⟨h.handshakes,h.log,h.fresh⟩
    | setSchemePriority priority => exact ⟨h.handshakes,h.log,h.fresh⟩
    | _ => exact h
  refine ((Event.step_motions hs e).invariant hopen (fun a b hfixed hm ha =>
    hm.keyed ha (fun id kind d hd hok hstep => ?_))).1
  cases e with
  | dispatch via hdr payload =>
    obtain ⟨rfl,-,hs₀,hh,rfl⟩ := hd
    obtain ⟨r,hr,hrh,-⟩ := Impl.handshakeAs_some hh
    have hcount := hs₀.readMessage_counts (S := env.sodium) payload
    rw [hok] at hcount
    have hlt : hs₀.step < 2 := by
      have heq : (hs₀.readMessage env.sodium payload).state.step = hs₀.step+1 := hcount
      omega
    rw [hfixed.identity,(hs₀.readMessage_same payload).sPk]
    exact (h.handshakes id r hs₀ hr hrh).2 hlt
  | _ => exact hd.elim

end

/-- Whatever rotations fall among the steps of any number of handshakes, as long as they keep
the image of the device key or find no payload due: every payload that a node sends shows the
static key its handshake began with, and an honest peer's check of it passes. -/
theorem payload_shows_static_key (env : Env) (identity : NodeIdentity) (events : List Event)
    (h : Along (KeyRun.act env) (fun s e => e.keepsKey env s.st = true) ⟨Impl.start identity,∅⟩
      events) :
    let s := run (KeyRun.act env) ⟨Impl.start identity,∅⟩ events
    (∀ e ∈ s.st.log, e.OwnKey env.sodium s.static) ∧
      (env.sodium.Lawful → ∀ id before secret w, Effect.noiseWrite id before secret w ∈ s.st.log →
        w.ok = true → ∀ reader, Paired env.sodium before reader →
        (reader.readMessage env.sodium w.out).ok = true ∧
          ShowsKey env.sodium (reader.readMessage env.sodium w.out).payloadOut
            (reader.readMessage env.sodium w.out).state.rs) := by
  intro s
  have hstart : (Impl.start identity).SoundRecords env.sodium ∧
      (Impl.start identity).Keyed env.sodium ∅ := by
    refine ⟨start_sound env identity,⟨?_,?_,?_⟩⟩
    · exact fun id r hs hr => by simp [Impl.start,Impl.find] at hr
    · exact fun e he => by simp [Impl.start] at he
    · exact fun id key hk => by simp at hk
  have hrun : s.st.SoundRecords env.sodium ∧ s.st.Keyed env.sodium s.static :=
    h.invariant (I := fun s => s.st.SoundRecords env.sodium ∧ s.st.Keyed env.sodium s.static)
      (fun s e hi hc => ⟨Event.step_sound hi.1 e,KeyRun.act_keyed hi.1 hi.2 hc⟩) hstart
  refine ⟨hrun.2.log,fun L id before secret w hw hok reader hpair => ?_⟩
  rcases hrun.2.log _ hw hok with ⟨h0,-⟩ | ⟨payload,rfl,-,hshow⟩
  · cases hpair with
    | second hmet => exact absurd (h0.symm.trans hmet.stepR) (by decide)
    | third hmet => exact absurd (h0.symm.trans hmet.stepI) (by decide)
  · exact hpair.check L secret hshow

/-- The same user with another device key. -/
def NodeIdentity.bobRotated : NodeIdentity := NodeIdentity.sample 3 5

/-- The keys change once the payload is on its way. -/
def bobRotatesLate : List Event := eventsOf bobAnswers ++ [.rotate NodeIdentity.bobRotated]

/-- A message that carries a payload has gone out. -/
def Effect.isAnswer : Effect → Bool
  | .noiseWrite _ before _ w => w.ok && decide (0 < before.step)
  | _ => false

set_option maxRecDepth 10000 in
theorem payload_shows_static_key_late :
    (run (KeyRun.act (Env.sample false)) ⟨Impl.start NodeIdentity.bob,∅⟩
        bobRotatesLate).st.log.any Effect.isAnswer = true ∧
      ∀ e ∈ (run (KeyRun.act (Env.sample false)) ⟨Impl.start NodeIdentity.bob,∅⟩
        bobRotatesLate).st.log, e.OwnKey Sodium.sample (run (KeyRun.act (Env.sample false))
          ⟨Impl.start NodeIdentity.bob,∅⟩ bobRotatesLate).static :=
  ⟨by decide +kernel,(payload_shows_static_key (Env.sample false) NodeIdentity.bob bobRotatesLate
    (by decide +kernel)).1⟩

/-- The keys change between the connect and the first message of the peer. -/
def bobRotatesEarly : List Call :=
  [.tcp,.event (.connected (Endpoint.sample "a" 0)),.event (.rotate NodeIdentity.bobRotated),
    .frame 1 msgTypeNoiseInit 0
      ((Impl.start NodeIdentity.alice).run (Env.sample false) aliceOpens).lastSent]

/-- The handshake of the peer when the answer reaches it. -/
def aliceWaits : Option HandshakeState :=
  (((Impl.start NodeIdentity.alice).run (Env.sample false) aliceOpens).find 1).bind
    ConnectionRecord.handshake

/-- What the peer makes of the answer: it belongs to its exchange, and the device key in the
payload is not that of the static key. -/
def Effect.refusedBy (reader : HandshakeState) : Effect → Bool
  | .noiseWrite _ before _ w =>
    let d := reader.readMessage Sodium.sample w.out
    w.ok && decide (reader.symmetric = before.symmetric) && reader.step == 1 && before.step == 1 &&
      reader.initiator && !before.initiator &&
      decide (reader.sPk = Sodium.sample.scalarmultBase reader.sSk) &&
      decide (before.sPk = Sodium.sample.scalarmultBase before.sSk) &&
      decide (before.re = Sodium.sample.scalarmultBase reader.eSk) &&
      decide (Sodium.sample.pkToCurve25519 (HandshakePayload.decode d.payloadOut).devicePubkey ≠
        some d.state.rs)
  | _ => false

theorem Effect.refusedBy_not_ownKey {reader : HandshakeState} {e : Effect}
    {static : Table Nat Key} (h : e.refusedBy reader = true) : ¬ e.OwnKey Sodium.sample static := by
  intro hown
  cases e with
  | noiseWrite id before secret w =>
    simp only [Effect.refusedBy,Bool.and_eq_true,decide_eq_true_eq,beq_iff_eq,
      Bool.not_eq_true'] at h
    obtain ⟨⟨⟨⟨⟨⟨⟨⟨⟨hok,hsym⟩,hreader⟩,hwriter⟩,hdials⟩,hanswers⟩,hkeyR⟩,hkeyW⟩,hre⟩,hrefused⟩ := h
    rcases hown hok with ⟨h0,-⟩ | ⟨payload,rfl,-,hshow⟩
    · omega
    · have hpair : Paired Sodium.sample before reader :=
        .second ⟨hsym,hreader,hwriter,hdials,hanswers,hkeyR,hkeyW⟩ hre
      exact hrefused (hpair.check Sodium.sample_lawful secret hshow).2
  | _ => cases h

set_option maxRecDepth 10000 in
/-- The payload shows the new key, and the peer drops the connection for it. -/
theorem rotation_breaks_handshake :
    (¬ ∀ e ∈ (run (KeyRun.act (Env.sample false)) ⟨Impl.start NodeIdentity.bob,∅⟩
        (eventsOf bobRotatesEarly)).st.log,
      e.OwnKey Sodium.sample (run (KeyRun.act (Env.sample false)) ⟨Impl.start NodeIdentity.bob,∅⟩
        (eventsOf bobRotatesEarly)).static) ∧
      ((Impl.start NodeIdentity.alice).run (Env.sample false) (aliceOpens ++
        [.frame 1 msgTypeNoiseResp 0 ((Impl.start NodeIdentity.bob).run (Env.sample false)
          bobRotatesEarly).lastSent])).log.any (fun e =>
        match e with
        | .drop 1 .authFail => true
        | _ => false) = true := by
  have hrefused : aliceWaits.any (fun reader => (run (KeyRun.act (Env.sample false))
      ⟨Impl.start NodeIdentity.bob,∅⟩ (eventsOf bobRotatesEarly)).st.log.any
        (Effect.refusedBy reader)) = true := by decide +kernel
  refine ⟨fun hall => ?_,by decide +kernel⟩
  obtain ⟨reader,-,hany⟩ := (Option.any_eq_true _ _).1 hrefused
  obtain ⟨e,he,href⟩ := List.any_eq_true.1 hany
  exact Effect.refusedBy_not_ownKey href (hall e he)

end GoodNet
