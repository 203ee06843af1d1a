import GoodNet.RelayDedup
import GoodNet.SessionTrace
set_option autoImplicit false

/-! Local delivery of a relayed frame: the inner frame goes through the session of the
connection the relay came in on. -/

namespace GoodNet
open Codec

/-- A remote peer with an established session, as `commit` leaves it. -/
structure Hop (st : Impl) (id : Nat) (s : NoiseSession) (r : ConnectionRecord) : Prop where
  find : st.find id = some r
  established : r.established = true
  remote : r.isLocalhost = false
  sealed : r.localhostPassthrough = false
  settled : r.handshake.isSome = false
  session : r.session = some s

section
variable {env : Env} {st st' : Impl} {id : Nat} {s : NoiseSession} {r : ConnectionRecord}

theorem Impl.SoundRecords.hop (h : st.SoundRecords env.sodium) (hr : st.find id = some r)
    (he : r.established = true) (hl : r.isLocalhost = false) (hs : r.session = some s) :
    Hop st id s r := by
  have hsound := h.record id r hr
  refine ⟨hr,he,hl,?_,(hsound.settled he).2,hs⟩
  by_contra hc
  have hlocal := hsound.localhost (by simpa using hc)
  rw [hl] at hlocal
  cases hlocal

theorem Hop.agrees (h : Hop st id s r) (ha : Impl.Agrees ConnectionRecord.keyed st st') :
    ∃ r', Hop st' id s r' := by
  obtain ⟨r',hr',hk⟩ := ha.find_some h.find
  simp only [ConnectionRecord.keyed,ConnectionRecord.standing,Prod.mk.injEq] at hk
  obtain ⟨⟨hstate,hlocal,hpass,_,hhand⟩,hsess⟩ := hk
  refine ⟨r',hr',?_,hlocal.trans h.remote,hpass.trans h.sealed,hhand.trans h.settled,
    hsess.trans h.session⟩
  have he := h.established
  unfold ConnectionRecord.established at he ⊢
  rw [hstate]
  exact he

theorem Impl.sendAll_agrees (st : Impl) (ids : List Nat) (msgType : UInt32) (payload : Bytes) :
    Impl.Agrees ConnectionRecord.keyed st (st.sendAll env ids msgType payload) := by
  unfold sendAll
  induction ids generalizing st with
  | nil => exact Agrees.refl st
  | cons id ids ih =>
    rw [List.foldl_cons]
    refine Agrees.trans ?_ (ih _)
    split
    · exact (st.sendFrame_outward env id msgType payload).agrees (fun r => rfl)
    · exact Agrees.refl st

theorem Impl.handleRelay_agrees (st : Impl) (id : Nat) (plaintext : Bytes) :
    Impl.Agrees ConnectionRecord.keyed st (st.handleRelay env id plaintext).1 := by
  have hheard : Impl.Agrees ConnectionRecord.keyed st (st.heard env id plaintext) :=
    Agrees.of_records (st.heard_same env id plaintext).1
  rcases st.handleRelay_cases env id plaintext with ⟨_,h⟩ | ⟨_,_,h⟩ | ⟨_,_,h⟩
  · rw [h]
    exact hheard
  · rw [h]
    exact hheard
  · rw [h]
    refine hheard.trans ?_
    unfold relay
    dsimp only
    split
    · exact (sendFrame_outward env _ _ _ _).agrees (fun r => rfl)
    · exact sendAll_agrees _ _ _ _

theorem Impl.handleHeartbeat_agrees (st : Impl) (id : Nat) (payload : Bytes) :
    Impl.Agrees ConnectionRecord.keyed st (st.handleHeartbeat env id payload) := by
  have hquiet : Quiet Effect.Outward st
      (st.modify id (fun r => r.heardPaths (parseHeartbeatExtension payload))) :=
    Quiet.modify st id (fun r => r.core_heardPaths _)
  have hheard : Impl.Agrees ConnectionRecord.keyed st _ := hquiet.agrees (fun r => rfl)
  unfold handleHeartbeat
  split
  · exact Agrees.refl st
  · dsimp only
    split
    · exact hheard.trans ((sendFrame_outward env _ _ _ _).agrees (fun r => rfl))
    · split
      · refine (hheard.trans (Agrees.of_records rfl)).trans (Agrees.modify id (fun r => ?_))
        exact ConnectionRecord.core_field ConnectionRecord.keyed (fun r => rfl) (r.core_pong _ _ _)
      · exact hheard

theorem Hop.decrypted (h : Hop st id s r) (hdr : Header) (payload : Bytes) :
    Hop (st.decryptFor env id s hdr payload).1 id
      (s.decrypt env.sodium env.zstd payload hdr.packetId).1
      (r.withSession (s.decrypt env.sodium env.zstd payload hdr.packetId).1) := by
  refine ⟨?_,h.established,h.remote,h.sealed,h.settled,rfl⟩
  rw [Impl.decryptFor_find,Impl.find_modify_self,h.find,Option.map_some]

theorem Hop.emit (h : Hop st id s r) (e : Effect) : Hop (st.emit e) id s r :=
  ⟨h.find,h.established,h.remote,h.sealed,h.settled,h.session⟩

theorem Hop.deliver (h : Hop st id s r) (owner : ConnectionRecord) (sink : Sink) (hdr : Header)
    (wire plain : Bytes) : Hop (st.deliver id owner sink hdr wire plain) id s r :=
  ((h.emit _).emit _).emit _

/-- How a frame on a remote connection is opened. -/
theorem Hop.openPayload_eq (h : Hop st id s r) (hdr : Header) (payload : Bytes) :
    st.openPayload env id r hdr payload =
      if hdr.flags &&& gnetFlagTrusted ≠ 0 then (st.emit (.drop id .trustedFromRemote),none)
      else if (s.decrypt env.sodium env.zstd payload hdr.packetId).2.isEmpty then
        ((st.decryptFor env id s hdr payload).1.emit (.drop id .decryptFail),none)
      else ((st.decryptFor env id s hdr payload).1,
        some (s.decrypt env.sodium env.zstd payload hdr.packetId).2) := by
  have hout : (st.decryptFor env id s hdr payload).2 =
      (s.decrypt env.sodium env.zstd payload hdr.packetId).2 := by
    unfold Impl.decryptFor
    dsimp only
    split
    · rfl
    · rfl
  unfold Impl.openPayload
  simp [h.sealed,h.remote,h.session,hout]

/-- A handshake frame finds no handshake any more. -/
theorem Hop.dispatch_handshake (h : Hop st id s r) {hdr : Header}
    (ht : isHandshakeType hdr.type = true) (depth : Nat) (payload : Bytes) :
    st.dispatchNested env (depth+1) id hdr payload = st := by
  have hnone : ∀ role, st.handshakeAs id role = none := by
    intro role
    have hh : r.handshake = none := by simpa using h.settled
    simp [Impl.handshakeAs,h.find,hh]
  unfold Impl.dispatchNested Impl.handleNoiseInit Impl.handleNoiseResp Impl.handleNoiseFin
  rw [hnone,hnone]
  simp only [isHandshakeType,Bool.or_eq_true,beq_iff_eq] at ht
  rcases ht with (ht | ht) | ht
  · simp [ht]
  · simp [ht]
  · simp [ht]

theorem NoiseSession.decrypt_keeps_refusing {S : Sodium} {Z : Zstd} {m : UInt64}
    (h : s.recvWindow.Refuses m) (wire : Bytes) (nonce : UInt64) :
    (s.decrypt S Z wire nonce).1.recvWindow.Refuses m := by
  rw [decrypt_session]
  unfold windowAfter
  dsimp only
  split
  · exact h
  · exact (NonceWindow.refuses_accept _ _ _).mpr (Or.inl h)

/-- What a remote frame that is not part of a handshake leads to. -/
theorem Hop.dispatch_eq (h : Hop st id s r) {hdr : Header}
    (ht : isHandshakeType hdr.type = false) (depth : Nat) (payload : Bytes) :
    st.dispatchNested env (depth+1) id hdr payload =
      if hdr.flags &&& gnetFlagTrusted ≠ 0 then st.emit (.drop id .trustedFromRemote)
      else
        let d := s.decrypt env.sodium env.zstd payload hdr.packetId
        let mid := (st.decryptFor env id s hdr payload).1
        if d.2.isEmpty then mid.emit (.drop id .decryptFail)
        else if hdr.type = msgTypeHeartbeat then
          (mid.deliver id r .heartbeat hdr payload d.2).handleHeartbeat env id d.2
        else if hdr.type = msgTypeRelay then
          let relayed := (mid.deliver id r .relay hdr payload d.2).handleRelay env id d.2
          match relayed.2 with
          | none => relayed.1
          | some (innerHdr,inner) => relayed.1.dispatchNested env depth id innerHdr inner
        else (mid.deliver id r .bus hdr payload d.2).deliverToBus env id r := by
  simp only [isHandshakeType,Bool.or_eq_false_iff,beq_eq_false_iff_ne,ne_eq] at ht
  obtain ⟨⟨h1,h2⟩,h3⟩ := ht
  conv_lhs => unfold Impl.dispatchNested
  simp only [h1,h2,h3,ite_false,h.find,h.established,Bool.not_true,Bool.false_eq_true,
    h.openPayload_eq]
  by_cases htrust : hdr.flags &&& gnetFlagTrusted ≠ 0
  · rw [if_pos htrust,if_pos htrust]
  · rw [if_neg htrust,if_neg htrust]
    generalize s.decrypt env.sodium env.zstd payload hdr.packetId = d
    cases hempty : d.2.isEmpty with
    | true => rfl
    | false =>
      simp only [Bool.false_eq_true,ite_false]
      by_cases hbeat : hdr.type = msgTypeHeartbeat
      · rw [if_pos hbeat,if_pos hbeat]
      · rw [if_neg hbeat,if_neg hbeat]
        by_cases hrelay : hdr.type = msgTypeRelay
        · rw [if_pos hrelay,if_pos hrelay]
          generalize Impl.handleRelay env _ id d.2 = relayed
          obtain ⟨st',_ | ⟨innerHdr,inner⟩⟩ := relayed
          · rfl
          · rfl
        · rw [if_neg hrelay,if_neg hrelay]

/-- A connection that keeps refusing what a session refused. -/
def Hop.Follows (st : Impl) (id : Nat) (s : NoiseSession) : Prop :=
  ∃ s' r', Hop st id s' r' ∧ ∀ m, s.recvWindow.Refuses m → s'.recvWindow.Refuses m

/-- A frame that is opened: the window has been asked for its packet id, and it does not
forget while the frame is handled. -/
theorem Hop.opened {depth : Nat} (ih : ∀ (st : Impl) (s : NoiseSession) (r : ConnectionRecord)
      (hdr : Header) (payload : Bytes), Hop st id s r →
      Hop.Follows (st.dispatchNested env depth id hdr payload) id s)
    (h : Hop st id s r) {hdr : Header} (ht : isHandshakeType hdr.type = false)
    (hu : hdr.flags &&& gnetFlagTrusted = 0) (payload : Bytes) :
    Hop.Follows (st.dispatchNested env (depth+1) id hdr payload) id
      (s.decrypt env.sodium env.zstd payload hdr.packetId).1 := by
  have hdec : Hop (st.decryptFor env id s hdr payload).1 id _ _ := h.decrypted hdr payload
  rw [h.dispatch_eq ht,if_neg (by simpa using hu)]
  dsimp only
  split
  · exact ⟨_,_,hdec.emit _,fun _ hm => hm⟩
  · split
    · obtain ⟨r',hr'⟩ := (hdec.deliver r .heartbeat hdr payload _).agrees
        (Impl.handleHeartbeat_agrees _ id _)
      exact ⟨_,r',hr',fun _ hm => hm⟩
    · split
      · obtain ⟨r',hr'⟩ := (hdec.deliver r .relay hdr payload _).agrees
          (Impl.handleRelay_agrees _ id (s.decrypt env.sodium env.zstd payload hdr.packetId).2)
        split
        · exact ⟨_,r',hr',fun _ hm => hm⟩
        · exact ih _ _ _ _ _ hr'
      · obtain ⟨r',hr'⟩ := (hdec.deliver r .bus hdr payload _).agrees
          ((Impl.deliverToBus_quiet _ id r).agrees (fun r => rfl))
        exact ⟨_,r',hr',fun _ hm => hm⟩

/-- Whatever comes in on a remote connection, it stays as it is but for its window, and
what the window refuses it goes on refusing. -/
theorem Hop.nested (depth : Nat) (st : Impl) (s : NoiseSession) (r : ConnectionRecord)
    (hdr : Header) (payload : Bytes) (h : Hop st id s r) :
    Hop.Follows (st.dispatchNested env depth id hdr payload) id s := by
  induction depth generalizing st s r hdr payload with
  | zero => exact ⟨s,r,h,fun _ hm => hm⟩
  | succ depth ih =>
    cases ht : isHandshakeType hdr.type with
    | true =>
      rw [h.dispatch_handshake ht]
      exact ⟨s,r,h,fun _ hm => hm⟩
    | false =>
      by_cases hu : hdr.flags &&& gnetFlagTrusted = 0
      · obtain ⟨s',r',h',hmore⟩ := h.opened ih ht hu payload
        exact ⟨s',r',h',fun m hm => hmore m (NoiseSession.decrypt_keeps_refusing hm _ _)⟩
      · rw [h.dispatch_eq ht,if_pos hu]
        exact ⟨s,r,h.emit _,fun _ hm => hm⟩

def Effect.isDelivery : Effect → Bool
  | .deliver .. => true
  | _ => false

/-- What has been handed to the handlers, in whosoever's name. -/
def Impl.handedOver (st : Impl) : List Effect := st.log.filter Effect.isDelivery

@[simp] theorem Impl.handedOver_emit (st : Impl) {e : Effect} (h : e.isDelivery = false) :
    (st.emit e).handedOver = st.handedOver := by
  unfold handedOver
  rw [log_emit,List.filter_cons_of_neg (by simp [h])]

theorem Impl.handedOver_decryptFor (st : Impl) (hdr : Header) (payload : Bytes) :
    (st.decryptFor env id s hdr payload).1.handedOver = st.handedOver := by
  rcases st.decryptFor_cases env id s hdr payload with ⟨_,_,h⟩ | ⟨_,h⟩
  · rw [h,handedOver_emit _ rfl]
    rfl
  · rw [h]
    rfl

theorem Impl.relaySeen_records (st : Impl) (hdr : Header) :
    (st.relaySeen env hdr).1.records = st.records ∧ (st.relaySeen env hdr).1.log = st.log := by
  rw [relaySeen_eq]
  split
  · exact ⟨rfl,rfl⟩
  · exact ⟨rfl,rfl⟩

/-- An inner frame that the session of a connection never gets to see, or whose packet id it
refuses anyway. -/
def passesBy (w : NonceWindow) (hdr : Header) (payload : Bytes) : Bool :=
  isHandshakeType hdr.type || decide (hdr.flags &&& gnetFlagTrusted ≠ 0) ||
    decide (payload.length < macLen) || !(w.accept hdr.packetId).2

theorem Hop.passes_by (h : Hop st id s r) {hdr : Header} {payload : Bytes}
    (hp : passesBy s.recvWindow hdr payload = true) (depth : Nat) :
    ∃ r', Hop (st.dispatchNested env (depth+1) id hdr payload) id s r' ∧
      (st.dispatchNested env (depth+1) id hdr payload).handedOver = st.handedOver := by
  cases ht : isHandshakeType hdr.type with
  | true =>
    rw [h.dispatch_handshake ht]
    exact ⟨r,h,rfl⟩
  | false =>
    rw [h.dispatch_eq ht]
    by_cases hu : hdr.flags &&& gnetFlagTrusted = 0
    · have hwindow : payload.length < macLen ∨ s.recvWindow.Refuses hdr.packetId := by
        simpa [passesBy,ht,hu,NonceWindow.accept_result] using hp
      have hnone : s.decrypt env.sodium env.zstd payload hdr.packetId = (s,[]) := by
        unfold NoiseSession.decrypt
        rcases hwindow with hshort | href
        · simp [hshort]
        · simp [NonceWindow.accept_refused href]
      have hdec : Hop (st.decryptFor env id s hdr payload).1 id _ _ := h.decrypted hdr payload
      rw [if_neg (by simpa using hu),hnone]
      rw [hnone] at hdec
      refine ⟨_,hdec.emit _,?_⟩
      exact (Impl.handedOver_emit _ rfl).trans (Impl.handedOver_decryptFor st hdr payload)
    · rw [if_pos hu]
      exact ⟨r,h.emit _,Impl.handedOver_emit _ rfl⟩

/-- The window has changed for good once it has taken the packet id of an inner frame. -/
theorem Hop.intrudes (h : Hop st id s r) {hdr : Header} {payload : Bytes}
    (hp : passesBy s.recvWindow hdr payload = false) (depth : Nat) {s' : NoiseSession}
    {r' : ConnectionRecord} (h' : Hop (st.dispatchNested env (depth+1) id hdr payload) id s' r') :
    s' ≠ s := by
  simp only [passesBy,Bool.or_eq_false_iff,decide_eq_false_iff_not,Bool.not_eq_false'] at hp
  obtain ⟨⟨⟨ht,hu⟩,hlong⟩,htake⟩ := hp
  obtain ⟨s'',r'',h'',hmore⟩ := h.opened (Hop.nested depth) ht (by simpa using hu) payload
  have hfree : ¬ s.recvWindow.Refuses hdr.packetId :=
    (NonceWindow.accept_result_true _ _).mp htake
  have hnow : (s.decrypt env.sodium env.zstd payload hdr.packetId).1.recvWindow.Refuses
      hdr.packetId := by
    rw [NoiseSession.decrypt_session]
    unfold NoiseSession.windowAfter
    rw [if_neg hlong]
    exact (NonceWindow.refuses_accept _ _ _).mpr (Or.inr (Or.inl rfl))
  have hsame : r'' = r' := Option.some.inj (h''.find.symm.trans h'.find)
  have hsess : s'' = s' := by
    rw [hsame] at h''
    exact Option.some.inj (h''.session.symm.trans h'.session)
  intro hc
  rw [← hc,← hsess] at hfree
  exact hfree (hmore _ hnow)

theorem Impl.relaySeen_result {a b : Impl} (hd : a.relayDedup = b.relayDedup)
    (hq : a.asked = b.asked) (hdr : Header) :
    (a.relaySeen env hdr).2 = (b.relaySeen env hdr).2 := by
  have hkept : a.remembered env = b.remembered env := by
    unfold remembered
    rw [hd,hq]
  rw [relaySeen_eq,relaySeen_eq,hkept,hq]
  split
  · rfl
  · rfl

theorem Impl.deliver_relayDedup (st : Impl) (id : Nat) (r : ConnectionRecord) (sink : Sink)
    (hdr : Header) (wire plain : Bytes) :
    (st.deliver id r sink hdr wire plain).relayDedup = st.relayDedup := rfl

theorem Impl.deliver_asked (st : Impl) (id : Nat) (r : ConnectionRecord) (sink : Sink)
    (hdr : Header) (wire plain : Bytes) :
    (st.deliver id r sink hdr wire plain).asked = st.asked := rfl

/-- Opening the outer frame and announcing it is nothing `relay_seen` notices. -/
theorem Impl.processes_opened (st : Impl) (hdr : Header) (wire plain : Bytes) :
    (((st.decryptFor env id s hdr wire).1.deliver id r .relay hdr wire plain).processes env
      plain) = st.processes env plain := by
  have hsame : ((st.decryptFor env id s hdr wire).1).relayDedup = st.relayDedup ∧
      ((st.decryptFor env id s hdr wire).1).asked = st.asked := by
    rcases st.decryptFor_cases env id s hdr wire with ⟨_,_,h⟩ | ⟨_,h⟩
    · rw [h]
      exact ⟨rfl,rfl⟩
    · rw [h]
      exact ⟨rfl,rfl⟩
  unfold processes
  rw [relaySeen_result (b := st)]
  · rw [deliver_relayDedup]
    exact hsame.1
  · rw [deliver_asked]
    exact hsame.2

end

/-- The session of a connection once it has taken in a frame of its own. -/
def NoiseSession.afterOwn (s : NoiseSession) (packetId : UInt64) : NoiseSession :=
  { s with recvWindow := (s.recvWindow.accept packetId).1 }

def Impl.sessionOf (st : Impl) (id : Nat) : Option NoiseSession :=
  (st.find id).bind ConnectionRecord.session

/-- The frame inside a relay payload leaves no trace on the connection it came in on: the
session is as its own frame left it, so every later packet id is judged by that window, and
what does not authenticate under its key is handed to no one. -/
structure KeptApart (env : Env) (st : Impl) (id : Nat) (r : ConnectionRecord) (s : NoiseSession)
    (hdr : Header) (wire plain : Bytes) : Prop where
  session : (st.dispatchPacket env id hdr wire).sessionOf id = some (s.afterOwn hdr.packetId)
  later : ∀ s', (st.dispatchPacket env id hdr wire).sessionOf id = some s' → ∀ nonce,
    (s'.recvWindow.accept nonce).2 = ((s.afterOwn hdr.packetId).recvWindow.accept nonce).2
  foreign : (s.afterOwn hdr.packetId).authenticates env.sodium (relayedPayload plain)
      (Header.decode (relayedFrame plain)).packetId = none →
    (st.dispatchPacket env id hdr wire).handedOver =
      .deliver r .relay hdr { r.remote with peerId := id } wire plain :: st.handedOver

section
variable {env : Env} {st : Impl} {id : Nat} {s : NoiseSession} {r : ConnectionRecord}

theorem Hop.sessionOf (h : Hop st id s r) : st.sessionOf id = some s := by
  unfold Impl.sessionOf
  rw [h.find]
  exact h.session

theorem Impl.handedOver_deliver (st : Impl) (owner : ConnectionRecord) (sink : Sink)
    (hdr : Header) (wire plain : Bytes) :
    (st.deliver id owner sink hdr wire plain).handedOver =
      .deliver owner sink hdr { owner.remote with peerId := id } wire plain :: st.handedOver :=
  rfl

theorem Impl.handleRelay_here {plaintext : Bytes} (hp : st.processes env plaintext = true)
    (hdest : Block.ofBytes 32 (plaintext.drop 1) = st.identity.userPubkey) :
    st.handleRelay env id plaintext =
      ((st.relaySeen env (Header.decode (relayedFrame plaintext))).1,
        some (Header.decode (relayedFrame plaintext),relayedPayload plaintext)) := by
  have hheard : st.heard env id plaintext =
      (st.relaySeen env (Header.decode (relayedFrame plaintext))).1 := by
    unfold processes at hp
    rw [Bool.and_eq_true] at hp
    exact if_pos hp.1
  rcases st.handleRelay_cases env id plaintext with ⟨hno,_⟩ | ⟨_,_,h⟩ | ⟨_,hne,_⟩
  · exact absurd (hp.symm.trans hno) (by decide)
  · rw [h,hheard]
  · exact absurd hdest hne

theorem Impl.handleRelay_ignored {plaintext : Bytes} (hp : st.processes env plaintext = false) :
    ∃ st', st.handleRelay env id plaintext = (st',none) ∧ st'.handedOver = st.handedOver := by
  have hheard : (st.heard env id plaintext).handedOver = st.handedOver := by
    unfold heard
    split
    · unfold handedOver
      rw [(relaySeen_records st _).2]
    · exact handedOver_emit _ rfl
  rcases st.handleRelay_cases env id plaintext with ⟨_,h⟩ | ⟨hyes,_⟩ | ⟨hyes,_⟩
  · exact ⟨_,h,hheard⟩
  · exact absurd (hp.symm.trans hyes) (by decide)
  · exact absurd (hp.symm.trans hyes) (by decide)

/-- A relay payload for this node, once its own frame has been opened. -/
theorem Hop.dispatch_relay (h : Hop st id s r) {hdr : Header} (ht : hdr.type = msgTypeRelay)
    (hu : hdr.flags &&& gnetFlagTrusted = 0) {wire plain : Bytes}
    (hp : (s.decrypt env.sodium env.zstd wire hdr.packetId).2 = plain) (hne : plain ≠ [])
    (depth : Nat) :
    let mid := (st.decryptFor env id s hdr wire).1.deliver id r .relay hdr wire plain
    st.dispatchNested env (depth+1) id hdr wire =
      match (mid.handleRelay env id plain).2 with
      | none => (mid.handleRelay env id plain).1
      | some (innerHdr,inner) =>
        (mid.handleRelay env id plain).1.dispatchNested env depth id innerHdr inner := by
  have hplain : isHandshakeType hdr.type = false := by
    rw [ht]
    decide
  have hbeat : ¬ msgTypeRelay = msgTypeHeartbeat := by decide
  have hfull : plain.isEmpty = false := by simpa using hne
  rw [h.dispatch_eq hplain,if_neg (by simpa using hu)]
  dsimp only
  rw [hp,hfull,ht,if_neg hbeat,if_pos rfl]
  rfl

theorem NoiseSession.decrypt_own {S : Sodium} {Z : Zstd} {wire : Bytes} {nonce : UInt64}
    (h : (s.decrypt S Z wire nonce).2 ≠ []) : (s.decrypt S Z wire nonce).1 = s.afterOwn nonce := by
  obtain ⟨_,_,_,_,hlen⟩ := decrypt_nonempty h
  rw [decrypt_session]
  unfold windowAfter afterOwn
  rw [if_neg (by omega)]

/-- The two decisions on a relay payload for this node: it is ignored, or the session of the
connection it came in on gets the inner frame. -/
theorem Hop.dispatch_here (h : Hop st id s r) {hdr : Header} (ht : hdr.type = msgTypeRelay)
    (hu : hdr.flags &&& gnetFlagTrusted = 0) {wire plain : Bytes}
    (hp : (s.decrypt env.sodium env.zstd wire hdr.packetId).2 = plain) (hne : plain ≠ [])
    (hdest : Block.ofBytes 32 (plain.drop 1) = st.identity.userPubkey) :
    ∃ mid own, Hop mid id (s.afterOwn hdr.packetId) own ∧
      mid.handedOver = .deliver r .relay hdr { r.remote with peerId := id } wire plain ::
        st.handedOver ∧
      st.dispatchPacket env id hdr wire =
        if st.processes env plain then
          mid.dispatchNested env (dispatchDepth-2+1) id (Header.decode (relayedFrame plain))
            (relayedPayload plain)
        else mid := by
  have hdepth : dispatchDepth = dispatchDepth-2+1+1 := by decide
  have hown : (s.decrypt env.sodium env.zstd wire hdr.packetId).1 = s.afterOwn hdr.packetId :=
    NoiseSession.decrypt_own (by rwa [hp])
  have hopen : Hop ((st.decryptFor env id s hdr wire).1.deliver id r .relay hdr wire plain) id _ _ :=
    (h.decrypted hdr wire).deliver r .relay hdr wire plain
  rw [hown] at hopen
  have hhanded : ((st.decryptFor env id s hdr wire).1.deliver id r .relay hdr wire plain).handedOver
      = .deliver r .relay hdr { r.remote with peerId := id } wire plain :: st.handedOver := by
    rw [Impl.handedOver_deliver,Impl.handedOver_decryptFor]
  have hident : ((st.decryptFor env id s hdr wire).1.deliver id r .relay hdr wire plain).identity =
      st.identity := by
    rcases st.decryptFor_cases env id s hdr wire with ⟨_,_,hd⟩ | ⟨_,hd⟩
    · rw [hd]
      rfl
    · rw [hd]
      rfl
  have hproc : ((st.decryptFor env id s hdr wire).1.deliver id r .relay hdr wire plain).processes env
      plain = st.processes env plain := st.processes_opened hdr wire plain
  have hdispatch : st.dispatchPacket env id hdr wire = _ :=
    (congrArg (fun n => st.dispatchNested env n id hdr wire) hdepth).trans
      (h.dispatch_relay ht hu hp hne _)
  generalize (st.decryptFor env id s hdr wire).1.deliver id r .relay hdr wire plain = mid at *
  cases hseen : st.processes env plain with
  | true =>
    rw [hseen] at hproc
    rw [← hident] at hdest
    rw [Impl.handleRelay_here hproc hdest] at hdispatch
    have hquiet : Quiet Effect.Outward mid
        (mid.relaySeen env (Header.decode (relayedFrame plain))).1 := mid.relaySeen_quiet _
    obtain ⟨own,hmid⟩ := hopen.agrees (hquiet.agrees (fun r => rfl))
    refine ⟨_,own,hmid,?_,?_⟩
    · unfold Impl.handedOver
      rw [(Impl.relaySeen_records mid _).2]
      exact hhanded
    · rw [if_pos rfl]
      exact hdispatch
  | false =>
    rw [hseen] at hproc
    obtain ⟨mid',hignored,hsame⟩ : ∃ st', mid.handleRelay env id plain = (st',none) ∧
      st'.handedOver = mid.handedOver := Impl.handleRelay_ignored hproc
    have hagree : Impl.Agrees ConnectionRecord.keyed mid (mid.handleRelay env id plain).1 :=
      mid.handleRelay_agrees id plain
    rw [hignored] at hdispatch hagree
    obtain ⟨own,hmid⟩ := hopen.agrees hagree
    refine ⟨mid',own,hmid,hsame.trans hhanded,?_⟩
    rw [if_neg (by simp)]
    exact hdispatch

/-- A relay payload for this node comes in on an established remote connection. The frame
inside leaves the session of that connection alone exactly when it is dropped before it
gets there, is too short for a tag, or bears a packet id that the window refuses: the window
moves before the tag is checked. -/
theorem relayed_frame_kept_apart (env : Env) (identity : NodeIdentity) (calls : List Call)
    {id : Nat} {r : ConnectionRecord} {s : NoiseSession} {hdr : Header} {wire plain : Bytes}
    (hr : ((Impl.start identity).run env calls).find id = some r) (he : r.established = true)
    (hl : r.isLocalhost = false) (hs : r.session = some s) (ht : hdr.type = msgTypeRelay)
    (hu : hdr.flags &&& gnetFlagTrusted = 0)
    (hp : (s.decrypt env.sodium env.zstd wire hdr.packetId).2 = plain) (hne : plain ≠ [])
    (hdest : Block.ofBytes 32 (plain.drop 1) =
      ((Impl.start identity).run env calls).identity.userPubkey) :
    KeptApart env ((Impl.start identity).run env calls) id r s hdr wire plain ↔
      ((Impl.start identity).run env calls).processes env plain = false ∨
      passesBy (s.recvWindow.accept hdr.packetId).1 (Header.decode (relayedFrame plain))
        (relayedPayload plain) = true := by
  have hop := (run_sound env identity calls).hop hr he hl hs
  obtain ⟨mid,own,hmid,hhanded,hdispatch⟩ := hop.dispatch_here ht hu hp hne hdest
  generalize (Impl.start identity).run env calls = st at *
  constructor
  · intro hk
    by_contra hc
    rw [not_or] at hc
    have hproc : st.processes env plain = true := by simpa using hc.1
    have hinto : passesBy (s.afterOwn hdr.packetId).recvWindow (Header.decode (relayedFrame plain))
        (relayedPayload plain) = false := Bool.eq_false_iff.mpr hc.2
    rw [if_pos hproc] at hdispatch
    obtain ⟨s',r',h',_⟩ : Hop.Follows (mid.dispatchNested env (dispatchDepth-2+1) id
      (Header.decode (relayedFrame plain)) (relayedPayload plain)) id _ :=
        Hop.nested _ mid _ own _ _ hmid
    have hsess := hk.session
    rw [hdispatch,h'.sessionOf] at hsess
    exact hmid.intrudes hinto _ h' (Option.some.inj hsess)
  · intro hc
    have hkept : ∃ r', Hop (st.dispatchPacket env id hdr wire) id (s.afterOwn hdr.packetId) r' ∧
        (st.dispatchPacket env id hdr wire).handedOver = mid.handedOver := by
      rw [hdispatch]
      split
      · rename_i hproc
        rcases hc with hc | hc
        · rw [hc] at hproc
          cases hproc
        · exact hmid.passes_by hc _
      · exact ⟨own,hmid,rfl⟩
    obtain ⟨r',h',hsame⟩ := hkept
    refine ⟨h'.sessionOf,fun s' hs' nonce => ?_,fun _ => hsame.trans hhanded⟩
    rw [h'.sessionOf] at hs'
    rw [Option.some.inj hs']

end

/-- A relay payload for the responder of the sample exchange. -/
def relayedToBob (packetId : UInt64) (payload : Bytes) : Bytes :=
  5 :: ((sampleKey 3).bytes ++ ((frameHeader 0 100 payload.length packetId).encode ++ payload))

/-- The initiator passes it on in a frame of its own. -/
def aliceRelays (plain : Bytes) : Bytes :=
  ((Impl.start NodeIdentity.alice).run (Env.sample false)
    (aliceConfirms ++ [.event (.send 1 msgTypeRelay plain)])).lastSent

def aliceRelayHeader (plain : Bytes) : Header :=
  frameHeader 0 msgTypeRelay (aliceRelays plain).length 2

/-- The responder, after the handshake, opens the frame and finds the payload; its session
also meets the given condition. -/
def bobOpens (plain : Bytes) (check : NoiseSession → Bool) : Bool :=
  (((Impl.start NodeIdentity.bob).run (Env.sample false) bobConfirms).find 1).any (fun r =>
    r.established && !r.isLocalhost && r.session.any (fun s =>
      decide ((s.decrypt Sodium.sample Zstd.sample (aliceRelays plain)
        (aliceRelayHeader plain).packetId).2 = plain) && check s))

theorem bobOpens_record (plain : Bytes) (check : NoiseSession → Bool)
    (h : bobOpens plain check = true) :
    ∃ r s, ((Impl.start NodeIdentity.bob).run (Env.sample false) bobConfirms).find 1 = some r ∧
      r.established = true ∧ r.isLocalhost = false ∧ r.session = some s ∧
      (s.decrypt Sodium.sample Zstd.sample (aliceRelays plain)
        (aliceRelayHeader plain).packetId).2 = plain ∧ check s = true := by
  obtain ⟨r,hr,hp⟩ := (Option.any_eq_true _ _).mp h
  simp only [Bool.and_eq_true,Bool.not_eq_true'] at hp
  obtain ⟨⟨he,hl⟩,hs⟩ := hp
  obtain ⟨s,hs,hd⟩ := (Option.any_eq_true _ _).mp hs
  rw [Bool.and_eq_true,decide_eq_true_eq] at hd
  exact ⟨r,s,hr,he,hl,hs,hd.1,hd.2⟩

set_option maxRecDepth 10000 in
theorem relayed_frame_kept_apart_short :
    ∃ r s, ((Impl.start NodeIdentity.bob).run (Env.sample false) bobConfirms).find 1 = some r ∧
      r.session = some s ∧ KeptApart (Env.sample false)
        ((Impl.start NodeIdentity.bob).run (Env.sample false) bobConfirms) 1 r s
        (aliceRelayHeader (relayedToBob 400 [7])) (aliceRelays (relayedToBob 400 [7]))
        (relayedToBob 400 [7]) := by
  obtain ⟨r,s,hr,he,hl,hs,hp,hc⟩ := bobOpens_record (relayedToBob 400 [7])
    (fun s => passesBy (s.recvWindow.accept 2).1
      (Header.decode (relayedFrame (relayedToBob 400 [7]))) (relayedPayload (relayedToBob 400 [7])))
    (by decide +kernel)
  exact ⟨r,s,hr,hs,(relayed_frame_kept_apart (Env.sample false) NodeIdentity.bob bobConfirms hr he
    hl hs (by decide +kernel) (by decide +kernel) hp (by decide +kernel)
    (by decide +kernel)).mpr (Or.inr hc)⟩

/-- Sixteen bytes of anything under a packet id ahead of the connection's own: the next
frame the neighbour sends, number 3, is refused as a replay. -/
def intruder : Bytes := relayedToBob 400 (List.replicate 16 0)

set_option maxRecDepth 10000 in
theorem relayed_frame_intrudes :
    ∃ r s, ((Impl.start NodeIdentity.bob).run (Env.sample false) bobConfirms).find 1 = some r ∧
      r.established = true ∧ r.isLocalhost = false ∧ r.session = some s ∧
      (s.decrypt Sodium.sample Zstd.sample (aliceRelays intruder)
        (aliceRelayHeader intruder).packetId).2 = intruder ∧
      ¬ KeptApart (Env.sample false)
        ((Impl.start NodeIdentity.bob).run (Env.sample false) bobConfirms) 1 r s
        (aliceRelayHeader intruder) (aliceRelays intruder) intruder := by
  obtain ⟨r,s,hr,he,hl,hs,hp,hc⟩ := bobOpens_record intruder
    (fun s => ((s.afterOwn 2).recvWindow.accept 3).2) (by decide +kernel)
  have hafter : ((((Impl.start NodeIdentity.bob).run (Env.sample false) bobConfirms).dispatchPacket
      (Env.sample false) 1 (aliceRelayHeader intruder) (aliceRelays intruder)).sessionOf 1).any
      (fun s' => !(s'.recvWindow.accept 3).2) = true := by decide +kernel
  obtain ⟨s',hs',href⟩ := (Option.any_eq_true _ _).mp hafter
  refine ⟨r,s,hr,he,hl,hs,hp,fun hk => ?_⟩
  have hsame := hk.later s' hs' 3
  have hopen : ((s.afterOwn (aliceRelayHeader intruder).packetId).recvWindow.accept 3).2 = true := hc
  rw [hopen] at hsame
  rw [hsame] at href
  cases href

end GoodNet
