import GoodNet.SessionTrace
set_option autoImplicit false

/-! What reaches the handlers from a remote peer: only authenticated plaintext, and every
packet id of a session at most once. -/

namespace GoodNet
open Codec History

/-- The packet ids the window of a connection took since its session was made or rekeyed,
the latest first. -/
def acceptedSince (id : Nat) : List Effect → List UInt64
  | [] => []
  | .accepted j packetId :: older =>
    if j = id then packetId :: acceptedSince id older else acceptedSince id older
  | .rekeyed j :: older => if j = id then [] else acceptedSince id older
  | .established j _ _ :: older => if j = id then [] else acceptedSince id older
  | _ :: older => acceptedSince id older

/-- A delivery from a remote peer: not marked trusted, decrypted under the owner's session,
and under a packet id that was taken just now for the first time. -/
def Delivered (env : Env) (e : Effect) (older : List Effect) : Prop :=
  match e with
  | .deliver owner _ hdr remote wire plain => owner.isLocalhost = false →
      hdr.flags &&& gnetFlagTrusted = 0 ∧
      (∃ s body, owner.session = some s ∧
        s.authenticates env.sodium wire hdr.packetId = some body ∧
        (s.decrypt env.sodium env.zstd wire hdr.packetId).2 = plain ∧
        plain = openBody env.zstd body ∧ plain ≠ []) ∧
      ∃ earlier, acceptedSince remote.peerId older = hdr.packetId :: earlier ∧
        hdr.packetId ∉ earlier
  | _ => True

/-- Entries that bear on deliveries or on the ids taken. -/
def Effect.isReceipt : Effect → Bool
  | .accepted .. => true
  | .rekeyed .. => true
  | .established .. => true
  | .deliver .. => true
  | _ => false

structure Windowed (env : Env) (st : Impl) : Prop where
  sound : st.SoundRecords env.sodium
  shut : ∀ id r s, st.find id = some r → r.session = some s →
    ∀ packetId ∈ acceptedSince id st.log, s.recvWindow.Refuses packetId
  delivered : Justified (Delivered env) st.log

section
variable {env : Env} {st st' : Impl}

theorem acceptedSince_other {e : Effect} (h : e.isReceipt = false) (id : Nat)
    (older : List Effect) : acceptedSince id (e :: older) = acceptedSince id older := by
  cases e <;> first | rfl | cases h

theorem acceptedSince_append {new : List Effect} (h : ∀ e ∈ new, e.isReceipt = false) (id : Nat)
    (older : List Effect) : acceptedSince id (new ++ older) = acceptedSince id older := by
  induction new with
  | nil => rfl
  | cons e new ih =>
    rw [List.cons_append,acceptedSince_other (h e List.mem_cons_self)]
    exact ih (fun x hx => h x (List.mem_cons_of_mem e hx))

theorem delivered_other {e : Effect} (h : e.isReceipt = false) (older : List Effect) :
    Delivered env e older := by
  cases e <;> first | exact True.intro | cases h

theorem Effect.isReceipt_report {e : Effect} (h : e.isReport = true) : e.isReceipt = false := by
  cases e <;> first | rfl | cases h

theorem Effect.isReceipt_outward {e : Effect} (h : e.Outward) : e.isReceipt = false := by
  cases e <;> first | rfl | (rcases h with h | h <;> cases h)

/-- Steps that make no session, take no packet and deliver nothing. -/
theorem Windowed.keep (h : Windowed env st) (hs : st'.SoundRecords env.sodium)
    (hk : ∀ id r' s, st'.find id = some r' → r'.session = some s →
      ∃ r, st.find id = some r ∧ r.session = some s)
    (hl : ∃ new, st'.log = new ++ st.log ∧ ∀ e ∈ new, e.isReceipt = false) :
    Windowed env st' := by
  obtain ⟨new,hl,hn⟩ := hl
  refine ⟨hs,fun id r s hr hse pid hp => ?_,?_⟩
  · obtain ⟨r₀,hr₀,hs₀⟩ := hk id r s hr hse
    rw [hl,acceptedSince_append hn] at hp
    exact h.shut id r₀ s hr₀ hs₀ pid hp
  · rw [hl]
    exact h.delivered.append (fun e he older => delivered_other (hn e he) older)

theorem Impl.Keeps.session (h : Impl.Keeps ConnectionRecord.session st st') :
    ∀ id r' s, st'.find id = some r' → r'.session = some s →
      ∃ r, st.find id = some r ∧ r.session = some s := by
  intro id r' s hr hs
  obtain ⟨r,hr₀,hf⟩ := h id r' hr
  exact ⟨r,hr₀,hf.symm.trans hs⟩

/-- A new session starts with nothing taken. -/
theorem Windowed.restart (h : Windowed env st) {id : Nat} {e : Effect}
    {g : ConnectionRecord → ConnectionRecord} (hs : st'.SoundRecords env.sodium)
    (hfind : ∀ j, st'.find j = (st.modify id g).find j) (hlog : st'.log = e :: st.log)
    (hd : Delivered env e st.log) (hsame : acceptedSince id (e :: st.log) = [])
    (hother : ∀ j, j ≠ id → acceptedSince j (e :: st.log) = acceptedSince j st.log) :
    Windowed env st' := by
  refine ⟨hs,fun j r s hr hse pid hp => ?_,?_⟩
  · rw [hlog] at hp
    rw [hfind] at hr
    obtain ⟨r₀,hr₀,⟨rfl,_⟩ | ⟨hj,rfl⟩⟩ := Impl.find_modify_some hr
    · rw [hsame] at hp
      cases hp
    · rw [hother j hj] at hp
      exact h.shut j r s hr₀ hse pid hp
  · rw [hlog]
    exact ⟨hd,h.delivered⟩

/-- A window only ever turns away more. -/
theorem NoiseSession.decrypt_refuses {S : Sodium} {Z : Zstd} {s : NoiseSession} (wire : Bytes)
    (nonce : UInt64) {m : UInt64} (h : s.recvWindow.Refuses m) :
    (s.decrypt S Z wire nonce).1.recvWindow.Refuses m := by
  rw [decrypt_session]
  unfold windowAfter
  dsimp only
  split
  · exact h
  · exact (NonceWindow.refuses_accept _ _ _).mpr (Or.inl h)

theorem NoiseSession.decrypt_refuses_self {S : Sodium} {Z : Zstd} {s : NoiseSession}
    {wire : Bytes} (nonce : UInt64) (h : macLen ≤ wire.length) :
    (s.decrypt S Z wire nonce).1.recvWindow.Refuses nonce := by
  rw [decrypt_session]
  have hlong : ¬wire.length < macLen := by omega
  unfold windowAfter
  simp only [hlong,ite_false]
  exact (NonceWindow.refuses_accept _ _ _).mpr (Or.inr (Or.inl rfl))

theorem Windowed.decrypted (h : Windowed env st) {id : Nat} {r : ConnectionRecord}
    {s : NoiseSession} {hdr : Header} {payload : Bytes} (hr : st.find id = some r)
    (hse : r.session = some s) : Windowed env (st.decryptFor env id s hdr payload).1 := by
  have hs : (st.decryptFor env id s hdr payload).1.SoundRecords env.sodium :=
    h.sound.decrypted hr hse
  -- the record of `id` has its window moved on, every other record is as it was
  have hfind : ∀ j r', (st.decryptFor env id s hdr payload).1.find j = some r' →
      (j = id ∧ r'.session = some (s.decrypt env.sodium env.zstd payload hdr.packetId).1) ∨
      (j ≠ id ∧ st.find j = some r') := by
    intro j r' hr'
    rw [Impl.decryptFor_find] at hr'
    obtain ⟨r₀,hr₀,⟨rfl,rfl⟩ | ⟨hj,rfl⟩⟩ := Impl.find_modify_some hr'
    · exact Or.inl ⟨rfl,rfl⟩
    · exact Or.inr ⟨hj,hr₀⟩
  rcases st.decryptFor_cases env id s hdr payload with ⟨hlen,_,hd⟩ | ⟨_,hd⟩
  · have hlog : (st.decryptFor env id s hdr payload).1.log =
        .accepted id hdr.packetId :: st.log := by rw [hd]; rfl
    refine ⟨hs,fun j r' s' hr' hs' pid hp => ?_,by rw [hlog]; exact ⟨True.intro,h.delivered⟩⟩
    rw [hlog] at hp
    rcases hfind j r' hr' with ⟨rfl,hj⟩ | ⟨hj,hr₀⟩
    · rw [hj] at hs'
      cases hs'
      simp only [acceptedSince,ite_true,List.mem_cons] at hp
      rcases hp with rfl | hp
      · exact NoiseSession.decrypt_refuses_self _ hlen
      · exact NoiseSession.decrypt_refuses _ _ (h.shut j r s hr hse pid hp)
    · have hne : ¬id = j := fun hc => hj hc.symm
      simp only [acceptedSince,hne,ite_false] at hp
      exact h.shut j r' s' hr₀ hs' pid hp
  · have hlog : (st.decryptFor env id s hdr payload).1.log = st.log := by rw [hd]; rfl
    refine ⟨hs,fun j r' s' hr' hs' pid hp => ?_,by rw [hlog]; exact h.delivered⟩
    rw [hlog] at hp
    rcases hfind j r' hr' with ⟨rfl,hj⟩ | ⟨hj,hr₀⟩
    · rw [hj] at hs'
      cases hs'
      exact NoiseSession.decrypt_refuses _ _ (h.shut j r s hr hse pid hp)
    · exact h.shut j r' s' hr₀ hs' pid hp

theorem Windowed.emit (h : Windowed env st) {e : Effect} (he : e.isReceipt = false) :
    Windowed env (st.emit e) :=
  h.keep (h.sound.emit e) (fun id r' s hr hs => ⟨r',hr,hs⟩) ⟨[e],rfl,by simpa using he⟩

theorem Windowed.opened {id : Nat} {r : ConnectionRecord} {hdr : Header} {payload : Bytes}
    {out : Option Bytes} (h : Windowed env st) (hr : st.find id = some r)
    (ho : st.openPayload env id r hdr payload = (st',out)) : Windowed env st' := by
  rcases Impl.openPayload_cases ho with
    ⟨rfl,_⟩ | ⟨rfl,_⟩ | ⟨s,hs,_,_,_,rfl⟩ | ⟨s,hs,_,_,_,rfl⟩
  · exact h
  · exact h.emit rfl
  · exact (h.decrypted hr hs).emit rfl
  · exact h.decrypted hr hs

/-- What is about to be delivered to a handler was decrypted, for the first time. -/
theorem Windowed.delivery {id : Nat} {r : ConnectionRecord} {hdr : Header}
    {payload plain : Bytes} (h : Windowed env st) (hr : st.find id = some r)
    (he : r.established = true) (ho : st.openPayload env id r hdr payload = (st',some plain))
    (sink : Sink) :
    Delivered env (.deliver r sink hdr { r.remote with peerId := id } payload plain) st'.log := by
  intro hl
  have hsound := h.sound.record id r hr
  rcases Impl.openPayload_cases ho with
    ⟨_,_,hclear⟩ | ⟨_,hn⟩ | ⟨s,_,_,_,hn,_⟩ | ⟨s,hs,hflags,hne,hout,rfl⟩
  · -- in clear: a local connection, or one that was never keyed
    rcases hclear with hp | hlo | hnone
    · exact absurd (hsound.localhost hp) (by simp [hl])
    · exact absurd hlo (by simp [hl])
    · obtain ⟨s,hs⟩ := hsound.session he
      rw [hnone] at hs
      cases hs
  · cases hn
  · cases hn
  · have hplain : (s.decrypt env.sodium env.zstd payload hdr.packetId).2 = plain := by
      have hd : (st.decryptFor env id s hdr payload).2 =
          (s.decrypt env.sodium env.zstd payload hdr.packetId).2 := by
        unfold Impl.decryptFor
        dsimp only
        split
        · rfl
        · rfl
      rw [← hd]
      exact (Option.some.inj hout).symm
    have hne' : plain ≠ [] := by
      rw [Option.some.inj hout]
      exact hne
    rw [← hplain] at hne'
    obtain ⟨body,hauth,hbody,hfresh,hlen⟩ := NoiseSession.decrypt_nonempty hne'
    refine ⟨hflags,⟨s,body,hs,hauth,hplain,hplain.symm.trans hbody,hplain ▸ hne'⟩,
      acceptedSince id st.log,?_,fun hmem => hfresh (h.shut id r s hr hs _ hmem)⟩
    have htaken := (NonceWindow.accept_result_true s.recvWindow hdr.packetId).mpr hfresh
    rcases st.decryptFor_cases env id s hdr payload with ⟨_,_,hd⟩ | ⟨hno,_⟩
    · rw [hd]
      exact if_pos rfl
    · exact absurd ⟨hlen,htaken⟩ hno

theorem Micro.windowed (h : Micro env st st') (hi : Windowed env st) : Windowed env st' := by
  have hs := h.sound hi.sound
  cases h with
  | silent h =>
    obtain ⟨new,hl,hn⟩ := h.log
    exact hi.keep hs (Impl.Keeps.session (h.agrees (fun r => rfl)).keeps)
      ⟨new,hl,fun e he => Effect.isReceipt_report (hn e he)⟩
  | @frame id msgType payload h =>
    have hq := st.sendFrame_outward env id msgType payload
    obtain ⟨new,hl,hn⟩ := hq.log
    exact hi.keep hs (Impl.Keeps.session (hq.agrees (fun r => rfl)).keeps)
      ⟨new,hl,fun e he => Effect.isReceipt_outward (hn e he)⟩
  | direct msgType h => exact hi.emit rfl
  | connect ep =>
    refine hi.keep hs (fun id r' s hr hse => ?_)
      ⟨_ ++ [_,_],by rw [Impl.openConnection_log,List.append_assoc]; rfl,fun e he => ?_⟩
    · rcases Impl.openConnection_find hr with ⟨_,hr⟩ | ⟨rfl,_,rfl⟩ | ⟨rfl,_,rfl⟩
      · exact ⟨r',hr,hse⟩
      · cases hse
      · cases hse
    · rcases List.mem_append.mp he with he | he
      · split at he
        · rw [List.mem_singleton.mp he]
          rfl
        · cases he
      · rcases List.mem_pair.mp he with rfl | rfl
        · rfl
        · rfl
  | attach ep scheme h he =>
    exact hi.keep hs (Impl.Keeps.session (Impl.attachTransport_agrees _ ep scheme
      (fun r paths => rfl)).keeps) ⟨[_,_],rfl,by simp [Effect.isReceipt]⟩
  | disconnect id =>
    obtain ⟨new,hl,hn⟩ := st.handleDisconnect_log id
    refine hi.keep hs (Impl.Keeps.session (st.handleDisconnect_keeps id (fun r => rfl)))
      ⟨new ++ [.disconnecting id st.toRegistry],by rw [hl,List.append_assoc]; rfl,fun e he => ?_⟩
    rcases List.mem_append.mp he with he | he
    · exact Effect.isReceipt_report (hn e he)
    · rw [List.mem_singleton.mp he]
      rfl
  | duplicate h =>
    exact hi.keep hs (Impl.Keeps.session (st.removeDuplicate_keeps _ _))
      ⟨[_],rfl,by simp [Effect.isReceipt]⟩
  | read msg h =>
    exact hi.keep hs (Impl.Keeps.session (Impl.readNoise_agrees _ _ _ _ _ (fun r hs => rfl)).keeps)
      ⟨[_],rfl,by simp [Effect.isReceipt]⟩
  | write payload h hl hok hk =>
    exact hi.keep hs (Impl.Keeps.session (Impl.writeNoise_agrees _ _ _ (fun r hs => rfl)).keeps)
      ⟨[_],rfl,by simp [Effect.isReceipt]⟩
  | @authenticate id hs' hp schemes h hrs =>
    exact hi.keep hs (Impl.Keeps.session (Impl.Agrees.modify id (fun r =>
      (st.authenticate_keeps hp schemes r).2.2.2.1)).keeps) ⟨[],rfl,by simp⟩
  | commit h hh ha hd hf =>
    exact hi.restart hs (fun j => rfl) rfl True.intro (if_pos rfl)
      (fun j hj => if_neg (fun hc => hj hc.symm))
  | rekey id =>
    rcases st.rekeySession_cases env id with h | ⟨r,s,_,_,_,h⟩
    · rw [h]
      exact hi
    · rw [h] at hs ⊢
      exact hi.restart hs (fun j => rfl) rfl True.intro (if_pos rfl)
        (fun j hj => if_neg (fun hc => hj hc.symm))
  | refuse h he ho => exact hi.opened h ho
  | @receive mid id r hdr payload plain sink h he ho =>
    have hopen := hi.opened h ho
    have hcounted : Windowed env (mid.emit (.stat .rxBytes payload.length id)) := hopen.emit rfl
    have hreports : Windowed env ((mid.emit (.stat .rxBytes payload.length id)).emit
        (.stat .rxPacket 1 id)) := hcounted.emit rfl
    exact ⟨hs,hreports.shut,hi.delivery h he ho sink,hreports.delivered⟩

end

/-- In every run, what is handed to the bus, the heartbeat or the relay handler for a remote
peer was decrypted under the connection's session with a packet id that this session had not
taken before. -/
theorem remote_deliveries_authentic (env : Env) (identity : NodeIdentity) (calls : List Call) :
    (∀ newer older e, ((Impl.start identity).run env calls).log = newer ++ e :: older →
      Delivered env e older) ∧
    ∀ id r, ((Impl.start identity).run env calls).find id = some r →
      (r.established = true → r.session ≠ none) ∧
      (r.localhostPassthrough = true → r.isLocalhost = true) := by
  have hstart : Windowed env (Impl.start identity) := by
    refine ⟨start_sound env identity,fun id r s hr => ?_,True.intro⟩
    simp [Impl.start,Impl.find] at hr
  have hrun : Windowed env ((Impl.start identity).run env calls) := by
    refine Impl.run_invariant hstart (fun _ _ h _ hi => h.windowed hi)
      (fun st id bytes hi => ?_) calls (fun _ _ => True.intro)
    exact hi.keep (hi.sound.buffer id bytes)
      (Impl.Keeps.session (st.setRecvBuf_agrees id bytes (fun _ _ => rfl)).keeps) ⟨[],rfl,by simp⟩
  refine ⟨fun newer older e hsplit => ?_,fun id r hr => ⟨fun he hn => ?_,?_⟩⟩
  · have hd := hrun.delivered
    rw [hsplit] at hd
    exact hd.split
  · obtain ⟨s,hs⟩ := (hrun.sound.record id r hr).session he
    rw [hn] at hs
    cases hs
  · exact (hrun.sound.record id r hr).localhost

/-- The initiator's chat message, taken in by the responder. -/
def bobHears : List Call := bobConfirms ++
  [.frame 1 msgTypeChat 2 ((Impl.start NodeIdentity.alice).run (Env.sample false)
    (aliceConfirms ++ [.event (.send 1 msgTypeChat [104,105])])).lastSent]

set_option maxRecDepth 10000 in
theorem remote_deliveries_authentic_chat :
    ∃ owner hdr remote wire newer older, ((Impl.start NodeIdentity.bob).run (Env.sample false)
        bobHears).log = newer ++ .deliver owner .bus hdr remote wire [104,105] :: older ∧
      owner.isLocalhost = false ∧ hdr.flags &&& gnetFlagTrusted = 0 ∧
      (∃ s body, owner.session = some s ∧
        s.authenticates Sodium.sample wire hdr.packetId = some body ∧
        openBody Zstd.sample body = [104,105]) ∧
      ∃ earlier, acceptedSince remote.peerId older = hdr.packetId :: earlier ∧
        hdr.packetId ∉ earlier := by
  have hany : ((Impl.start NodeIdentity.bob).run (Env.sample false) bobHears).log.any (fun e =>
      match e with
      | .deliver owner .bus _ _ _ plain => !owner.isLocalhost && plain == [104,105]
      | _ => false) = true := by decide +kernel
  obtain ⟨e,he,hp⟩ := List.any_eq_true.mp hany
  split at hp
  · rename_i owner hdr remote wire plain
    simp only [Bool.and_eq_true,Bool.not_eq_true',beq_iff_eq] at hp
    obtain ⟨hl,rfl⟩ := hp
    obtain ⟨newer,older,hsplit⟩ := List.append_of_mem he
    obtain ⟨hflags,⟨s,body,hs,hauth,_,hbody,_⟩,hfresh⟩ :=
      (remote_deliveries_authentic (Env.sample false) NodeIdentity.bob bobHears).1 newer older _
        hsplit hl
    exact ⟨owner,hdr,remote,wire,newer,older,hsplit,hl,hflags,⟨s,body,hs,hauth,hbody.symm⟩,hfresh⟩
  · cases hp

end GoodNet
