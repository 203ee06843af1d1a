import GoodNet.SessionTrace
set_option autoImplicit false

/-! Which frames leave the node sealed. `build_frame` falls back to the bare payload when a
connection has no session, so everything hangs on what the callers check first. -/

namespace GoodNet
open Codec History

/-- The payload of a frame is a ciphertext under the owner's send key, unless its header
says that it belongs to the handshake. -/
def SealedFrame (S : Sodium) (Z : Zstd) (owner : ConnectionRecord) (frame : Bytes) : Prop :=
  isHandshakeType (Header.decode frame).type = false →
    ∃ s payload c, owner.session = some s ∧
      frame.drop headerSize = s.encrypt S Z payload (Header.decode frame).packetId c

/-- Every frame handed to a connector for a remote peer is sealed. -/
def Effect.Sealed (S : Sodium) (Z : Zstd) : Effect → Prop
  | .sendTo owner _ _ frame _ => owner.isLocalhost = false → SealedFrame S Z owner frame
  | .sendGather owner _ _ frames _ =>
    owner.isLocalhost = false → ∀ f ∈ frames, SealedFrame S Z owner f
  | _ => True

/-- A direct send is on an established or local connection, or of a handshake message. -/
def Effect.guarded : Effect → Bool
  | .direct owner msgType => owner.isLocalhost || owner.established || isHandshakeType msgType
  | _ => true

section
variable {S : Sodium} {Z : Zstd}

/-- The header has 16 bits for the type, enough for the three handshake types. -/
theorem isHandshakeType_header {msgType : UInt32} (h : isHandshakeType msgType = true)
    (flags : UInt8) (len : Nat) (packetId : UInt64) :
    isHandshakeType (frameHeader flags msgType len packetId).type = true := by
  unfold isHandshakeType at h
  simp only [Bool.or_eq_true,beq_iff_eq] at h
  rcases h with (rfl | rfl) | rfl
  · rfl
  · rfl
  · rfl

theorem frame_sealed {r : ConnectionRecord} {msgType : UInt32} (c : Compression) (payload : Bytes)
    (hl : r.isLocalhost = false) (hp : r.localhostPassthrough = false)
    (h : isHandshakeType msgType = true ∨ ∃ s, r.session = some s) :
    SealedFrame S Z r.takePacketId (r.frame S Z c msgType payload) := by
  intro htype
  unfold ConnectionRecord.frame at htype ⊢
  simp only [hp,hl,Bool.false_and,Bool.false_eq_true,ite_false,Bool.not_false,Bool.and_true]
    at htype ⊢
  cases ht : isHandshakeType msgType with
  | true =>
    rw [Header.decode_encode,isHandshakeType_header ht] at htype
    cases htype
  | false =>
    obtain ⟨s,hs⟩ := h.resolve_left (by simp [ht])
    refine ⟨s,payload,c,hs,?_⟩
    rw [Header.decode_encode]
    simp only [hs,Bool.not_false,ite_true]
    exact List.drop_left' (Header.encode_length _)

end

/-- What the send paths rely on. -/
structure Guarded (env : Env) (st : Impl) : Prop where
  sound : st.SoundRecords env.sodium
  backlog : st.NoBacklog
  indexed : ∀ key id, st.pkIndex.lookup key = some id →
    id < st.nextId ∧ ∀ r, st.find id = some r → r.established = true
  tight : ∀ e ∈ st.log, e.Sealed env.sodium env.zstd

section
variable {env : Env} {st st' : Impl}

theorem Effect.sealed_quiet {S : Sodium} {Z : Zstd} {e : Effect} (h : e.isWire = false) :
    e.Sealed S Z := by
  cases e <;> first | exact True.intro | cases h

theorem Effect.isWire_report {e : Effect} (h : e.isReport = true) : e.isWire = false := by
  cases e <;> first | rfl | cases h

/-- A frame with grounds to be sent leaves sealed. -/
theorem Guarded.frame (h : Guarded env st) (hc : ∀ e ∈ st.log, e.guarded = true) {id : Nat}
    {msgType : UInt32} (payload : Bytes) (hm : st.MaySend id msgType) :
    ∀ e : Effect, (e.isReport = true ∨ ∃ r, st.find id = some r ∧ e.carries r.takePacketId (fun f =>
      st.NoBacklog → f = r.frame env.sodium env.zstd st.compression msgType payload)) →
      e.Sealed env.sodium env.zstd := by
  intro e he
  rcases he with he | ⟨r,hr,he⟩
  · exact Effect.sealed_quiet (Effect.isWire_report he)
  have hsound := h.sound.record id r hr
  have hframe : r.isLocalhost = false → SealedFrame env.sodium env.zstd r.takePacketId
      (r.frame env.sodium env.zstd st.compression msgType payload) := by
    intro hl
    have hp : r.localhostPassthrough = false := by
      cases hp : r.localhostPassthrough with
      | false => rfl
      | true => exact absurd (hsound.localhost hp) (by simp [hl])
    refine frame_sealed _ payload hl hp ?_
    rcases hm with ht | ⟨key,hk⟩ | hm
    · exact Or.inl ht
    · exact Or.inr (hsound.session ((h.indexed key id hk).2 r hr))
    · rcases hm r hr with hest | hdirect
      · exact Or.inr (hsound.session hest)
      · have hg := hc _ hdirect
        simp only [Effect.guarded,hl,Bool.false_or,Bool.or_eq_true] at hg
        rcases hg with hest | ht
        · exact Or.inr (hsound.session hest)
        · exact Or.inl ht
  cases e with
  | sendTo owner via scheme f ok =>
    obtain ⟨rfl,hf⟩ := he
    rw [hf h.backlog]
    exact hframe
  | sendGather owner via scheme fs ok =>
    obtain ⟨rfl,hf⟩ := he
    intro hl f hfs
    rw [hf f hfs h.backlog]
    exact hframe hl
  | _ => exact True.intro

/-- Steps that index nobody and send nothing. -/
theorem Guarded.keep (h : Guarded env st) (hs : st'.SoundRecords env.sodium)
    (hb : st.NoBacklog → st'.NoBacklog) (hn : st.nextId ≤ st'.nextId)
    (hp : ∀ key id, st'.pkIndex.lookup key = some id → st.pkIndex.lookup key = some id)
    (hk : ∀ id r', id < st.nextId → st'.find id = some r' →
      ∃ r, st.find id = some r ∧ r'.established = r.established)
    (hl : ∃ new, st'.log = new ++ st.log ∧ ∀ e ∈ new, e.Sealed env.sodium env.zstd) :
    Guarded env st' := by
  refine ⟨hs,hb h.backlog,fun key id hlk => ?_,?_⟩
  · obtain ⟨hlt,hest⟩ := h.indexed key id (hp key id hlk)
    refine ⟨by omega,fun r' hr' => ?_⟩
    obtain ⟨r,hr,he⟩ := hk id r' hlt hr'
    rw [he]
    exact hest r hr
  · obtain ⟨new,hl,hn⟩ := hl
    intro e he
    rw [hl] at he
    rcases List.mem_append.mp he with he | he
    · exact hn e he
    · exact h.tight e he

theorem Guarded.opened {id : Nat} {r : ConnectionRecord} {hdr : Header} {payload : Bytes}
    {out : Option Bytes} (h : Guarded env st) (hr : st.find id = some r)
    (ho : st.openPayload env id r hdr payload = (st',out)) : Guarded env st' := by
  obtain ⟨hn,hq,hp,_,_⟩ := Impl.openPayload_same ho
  obtain ⟨new,hl,hnew⟩ := Impl.openPayload_log ho
  refine h.keep (h.sound.opened hr ho) (fun hb => by rwa [Impl.NoBacklog,hq]) hn.ge
    (fun key id hlk => by rwa [hp] at hlk)
    (fun id r' _ => (Impl.openPayload_agrees ho (fun r s => rfl)).keeps id r')
    ⟨new,hl,fun e he => ?_⟩
  rcases hnew e he with he | rfl
  · exact Effect.sealed_quiet (Effect.isWire_report he)
  · exact True.intro

theorem Micro.guarded (h : Micro env st st') (hc : ∀ e ∈ st'.log, e.guarded = true)
    (hi : Guarded env st) : Guarded env st' := by
  have hs := h.sound hi.sound
  have hn := h.nextId_le
  have hold : ∀ e ∈ st.log, e.guarded = true := fun e he => hc e (h.log_mono e he)
  cases h with
  | silent h =>
    obtain ⟨new,hl,hnew⟩ := h.log
    exact hi.keep hs h.backlog hn (fun key id hlk => by rwa [h.pk] at hlk)
      (fun id r' _ => (h.agrees (fun r => rfl)).keeps id r')
      ⟨new,hl,fun e he => Effect.sealed_quiet (Effect.isWire_report (hnew e he))⟩
  | @frame id msgType payload h =>
    have hq := st.sendFrame_quiet env id msgType payload
    obtain ⟨new,hl,hnew⟩ := hq.log
    exact hi.keep hs hq.backlog hn (fun key id hlk => by rwa [hq.pk] at hlk)
      (fun id r' _ => (hq.agrees (fun r => rfl)).keeps id r')
      ⟨new,hl,fun e he => hi.frame hold payload h e (hnew e he)⟩
  | direct msgType h =>
    exact hi.keep hs (fun hb => hb) hn (fun _ _ hlk => hlk) (fun id r' _ hr' => ⟨r',hr',rfl⟩)
      ⟨[_],rfl,by simp [Effect.Sealed]⟩
  | connect ep =>
    obtain ⟨_,hq,hp,_⟩ := st.openConnection_same env ep
    refine hi.keep hs (fun hb j q hj => ?_) hn (fun key id hlk => by rwa [hp] at hlk)
      (fun id r' hlt hr' => ?_) ⟨_ ++ [_,_],by rw [Impl.openConnection_log,List.append_assoc]; rfl,
        fun e he => ?_⟩
    · rw [hq] at hj
      exact noBacklog_insert hb rfl j q hj
    · rcases Impl.openConnection_find hr' with ⟨_,hr'⟩ | ⟨rfl,_⟩ | ⟨rfl,_⟩
      · exact ⟨r',hr',rfl⟩
      · omega
      · omega
    · cases ho : ep.outbound with
      | false =>
        simp only [ho,Bool.false_eq_true,ite_false,List.nil_append] at he
        rcases List.mem_pair.mp he with rfl | rfl
        · exact True.intro
        · exact True.intro
      | true =>
        simp only [ho,ite_true,List.cons_append,List.nil_append,List.mem_cons] at he
        rcases he with rfl | rfl | rfl | he
        · exact True.intro
        · exact True.intro
        · exact True.intro
        · cases he
  | attach ep scheme h he =>
    exact hi.keep hs (fun hb => hb) hn (fun _ _ hlk => hlk)
      (fun id r' _ => (Impl.attachTransport_agrees _ ep scheme (fun r paths => rfl)).keeps id r')
      ⟨[_,_],rfl,by simp [Effect.Sealed]⟩
  | disconnect id =>
    obtain ⟨new,hl,hnew⟩ := st.handleDisconnect_log id
    refine hi.keep hs (fun hb => ?_) hn (fun key j hlk => ?_)
      (fun j r' _ => st.handleDisconnect_keeps id (fun r => rfl) j r')
      ⟨new ++ [.disconnecting id st.toRegistry],by rw [hl,List.append_assoc]; rfl,fun e he => ?_⟩
    · rcases st.handleDisconnect_cases id with ⟨peer,_,h⟩ | ⟨_,_,h⟩ | ⟨_,r,_,h⟩
      · rw [h,Impl.NoBacklog,(Impl.dropTransport_same _ id peer).2.1]
        exact hb
      · rw [h]
        exact hb
      · rw [h]
        exact noBacklog_erase hb id
    · rcases st.handleDisconnect_cases id with ⟨peer,_,h⟩ | ⟨_,_,h⟩ | ⟨_,r,_,h⟩
      · rw [h,(Impl.dropTransport_same _ id peer).2.2] at hlk
        exact hlk
      · rw [h] at hlk
        exact hlk
      · rw [h] at hlk
        exact (Impl.forgetPeer_pk hlk).1
    · rcases List.mem_append.mp he with he | he
      · exact Effect.sealed_quiet (Effect.isWire_report (hnew e he))
      · rw [List.mem_singleton.mp he]
        exact True.intro
  | duplicate h =>
    exact hi.keep hs (fun hb => noBacklog_erase hb _) hn (fun _ _ hlk => hlk)
      (fun id r' _ => st.removeDuplicate_keeps _ _ id r') ⟨[_],rfl,by simp [Effect.Sealed]⟩
  | read msg h =>
    exact hi.keep hs (fun hb => hb) hn (fun _ _ hlk => hlk)
      (fun j r' _ => (Impl.readNoise_agrees _ _ _ _ _ (fun r hs => rfl)).keeps j r')
      ⟨[_],rfl,by simp [Effect.Sealed]⟩
  | write payload h hl hok hk =>
    exact hi.keep hs (fun hb => hb) hn (fun _ _ hlk => hlk)
      (fun j r' _ => (Impl.writeNoise_agrees _ _ _ (fun r hs => rfl)).keeps j r')
      ⟨[_],rfl,by simp [Effect.Sealed]⟩
  | @authenticate id hs' hp schemes h hrs =>
    refine hi.keep hs (fun hb => hb) hn (fun _ _ hlk => hlk)
      (fun j r' _ => (Impl.Agrees.modify id (fun r => ?_)).keeps j r') ⟨[],rfl,by simp⟩
    obtain ⟨_,_,hst,_⟩ := st.authenticate_keeps hp schemes r
    simp only [ConnectionRecord.established,hst]
  | @commit id r hs' h hh ha hd hf =>
    refine ⟨hs,hi.backlog,fun key j hlk => ?_,fun e he => ?_⟩
    · by_cases hk : key = r.pkHex
      · subst hk
        rw [Impl.commitSession_pk,AList.lookup_insert] at hlk
        cases hlk
        exact ⟨hi.sound.fresh id r h,Impl.commitSession_established h⟩
      · rw [Impl.commitSession_pk,AList.lookup_insert_ne hk] at hlk
        obtain ⟨hlt,hest⟩ := hi.indexed key j hlk
        refine ⟨hlt,fun r' hr' => ?_⟩
        obtain ⟨r₀,hr₀,⟨rfl,rfl⟩ | ⟨_,rfl⟩⟩ := Impl.find_modify_some hr'
        · rfl
        · exact hest r' hr₀
    · rcases List.mem_cons.mp he with rfl | he
      · exact True.intro
      · exact hi.tight e he
  | rekey id =>
    have hk : Impl.Keeps ConnectionRecord.established st (st.rekeySession env id).1 :=
      (Impl.rekeySession_agrees id (fun r s n => rfl)).keeps
    rcases st.rekeySession_cases env id with h | ⟨r,s,hr,_,_,h⟩
    · rw [h]
      exact hi
    · rw [h] at hs hn hk ⊢
      exact hi.keep hs (fun hb => hb) hn (fun _ _ hlk => hlk) (fun j r' _ => hk j r')
        ⟨[_],rfl,by simp [Effect.Sealed]⟩
  | refuse h he ho => exact hi.opened h ho
  | receive sink h he ho =>
    exact (hi.opened h ho).keep hs (fun hb => hb) (Nat.le_refl _) (fun _ _ hlk => hlk)
      (fun id r' _ hr' => ⟨r',hr',rfl⟩) ⟨[_,_,_],rfl,by simp [Effect.Sealed]⟩

end

/-- In a run whose direct sends are guarded, nothing but handshake messages leaves for a
remote peer in clear. -/
theorem wire_sealed (env : Env) (identity : NodeIdentity) (calls : List Call)
    (hc : ∀ e ∈ ((Impl.start identity).run env calls).log, e.guarded = true) :
    ∀ e ∈ ((Impl.start identity).run env calls).log, e.Sealed env.sodium env.zstd := by
  have hstart : Guarded env (Impl.start identity) := by
    refine ⟨start_sound env identity,fun id q hq => ?_,fun key id hk => ?_,fun e he => ?_⟩
    · simp [Impl.start] at hq
    · simp [Impl.start] at hk
    · simp [Impl.start] at he
  have hrun : Guarded env ((Impl.start identity).run env calls) := by
    refine Impl.run_invariant hstart (fun _ _ h hc hi => h.guarded hc hi)
      (fun st id bytes hi => ?_) calls hc
    exact hi.keep (hi.sound.buffer id bytes) (fun hb => hb) (Nat.le_refl _) (fun _ _ hlk => hlk)
      (fun j r' _ => (st.setRecvBuf_agrees id bytes (fun _ _ => rfl)).keeps j r') ⟨[],rfl,by simp⟩
  exact hrun.tight

/-- The frame sent last and the record it was built for. -/
def Impl.lastFrame (st : Impl) : Option (ConnectionRecord × Bytes) :=
  st.log.findSome? (fun e =>
    match e with
    | .sendTo owner _ _ frame _ => some (owner,frame)
    | _ => none)

theorem Impl.lastFrame_mem {st : Impl} {owner : ConnectionRecord} {frame : Bytes}
    (h : st.lastFrame = some (owner,frame)) :
    ∃ via scheme ok, Effect.sendTo owner via scheme frame ok ∈ st.log := by
  obtain ⟨e,he,hp⟩ := List.exists_of_findSome?_eq_some h
  split at hp
  · cases hp
    exact ⟨_,_,_,he⟩
  · cases hp

/-- A chat message sent on the connection of an undisturbed exchange. -/
def bobChats : List Call := bobConfirms ++ [.event (.send 1 msgTypeChat [104,105])]

set_option maxRecDepth 10000 in
theorem wire_sealed_chat :
    ∃ owner frame s payload c, ((Impl.start NodeIdentity.bob).run (Env.sample false)
        bobChats).lastFrame = some (owner,frame) ∧ owner.isLocalhost = false ∧
      (Header.decode frame).type = msgTypeChat ∧ owner.session = some s ∧
      frame.drop headerSize =
        s.encrypt Sodium.sample Zstd.sample payload (Header.decode frame).packetId c := by
  have hlast : (((Impl.start NodeIdentity.bob).run (Env.sample false) bobChats).lastFrame).any
      (fun p => !p.1.isLocalhost && (Header.decode p.2).type == msgTypeChat) = true := by
    decide +kernel
  obtain ⟨⟨owner,frame⟩,hf,hp⟩ := (Option.any_eq_true _ _).mp hlast
  simp only [Bool.and_eq_true,Bool.not_eq_true',beq_iff_eq] at hp
  obtain ⟨hl,ht⟩ := hp
  obtain ⟨via,scheme,ok,hm⟩ := Impl.lastFrame_mem hf
  obtain ⟨s,payload,c,hs,hd⟩ := wire_sealed (Env.sample false) NodeIdentity.bob bobChats
    (by decide +kernel) _ hm hl (by rw [ht]; rfl)
  exact ⟨owner,frame,s,payload,c,hf,hl,ht,hs,hd⟩

/-- The same message before the handshake has begun. -/
def bobChatsEarly : List Call :=
  [.tcp,.event (.connected (Endpoint.sample "a" 0)),.event (.send 1 msgTypeChat [104,105])]

/-- It leaves as it is, for a remote peer and without a session. -/
theorem early_send_in_clear :
    ∃ owner frame, ((Impl.start NodeIdentity.bob).run (Env.sample false)
        bobChatsEarly).lastFrame = some (owner,frame) ∧
      frame.drop headerSize = [104,105] ∧ owner.isLocalhost = false ∧
      ¬∀ e ∈ ((Impl.start NodeIdentity.bob).run (Env.sample false) bobChatsEarly).log,
        e.Sealed Sodium.sample Zstd.sample := by
  have hlast : (((Impl.start NodeIdentity.bob).run (Env.sample false)
      bobChatsEarly).lastFrame).any (fun p => !p.1.isLocalhost && p.1.session.isNone &&
        p.2.drop headerSize == [104,105] &&
        !isHandshakeType (Header.decode p.2).type) = true := by decide +kernel
  obtain ⟨⟨owner,frame⟩,hf,hp⟩ := (Option.any_eq_true _ _).mp hlast
  simp only [Bool.and_eq_true,Bool.not_eq_true',beq_iff_eq,Option.isNone_iff_eq_none] at hp
  obtain ⟨⟨⟨hl,hs⟩,hd⟩,ht⟩ := hp
  refine ⟨owner,frame,hf,hd,hl,fun hall => ?_⟩
  obtain ⟨via,scheme,ok,hm⟩ := Impl.lastFrame_mem hf
  obtain ⟨s,payload,c,hs',_⟩ := hall _ hm hl ht
  rw [hs] at hs'
  cases hs'

end GoodNet
