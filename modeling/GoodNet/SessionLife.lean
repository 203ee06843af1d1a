import GoodNet.SessionTrace
import GoodNet.Reassembly
set_option autoImplicit false

/-! The life of a connection over a run: one handshake ends in it at most, who the peer is does not
change afterwards, its keys change by rekeying alone, and its id is not given out again. -/

namespace GoodNet
open Codec Noise History

/-- A record without the fields that change while it is established. -/
def ConnectionRecord.bound (r : ConnectionRecord) : ConnectionRecord :=
  { r with
    peerTransportInfo := [], affinityPlugin := "", sendPacketId := 0, lastHeartbeatRecv := 0,
    heartbeatSeq := 0, missedHeartbeats := 0, session := none, recvBuf := [],
    transportPaths := [] }

def ConnectionRecord.keys (r : ConnectionRecord) : Option (Key × Key) :=
  r.session.map (fun s => (s.sendKey,s.recvKey))

/-- Both keys, moved on by `n` rekeyings. -/
def rekeyedTimes (S : Sodium) (n : Nat) (keys : Key × Key) : Key × Key :=
  ((nextKey S)^[n] keys.1,(nextKey S)^[n] keys.2)

/-- A rekeying or an establishment: the two events the keys of a connection depend on. -/
def Effect.isMark : Effect → Bool
  | .rekeyed .. => true
  | .established .. => true
  | _ => false

def rekeyings (id : Nat) : List Effect → Nat
  | [] => 0
  | .rekeyed j :: older => if j = id then rekeyings id older+1 else rekeyings id older
  | _ :: older => rekeyings id older

def establishments (id : Nat) : List Effect → Nat
  | [] => 0
  | .established j _ _ :: older =>
    if j = id then establishments id older+1 else establishments id older
  | _ :: older => establishments id older

/-- What a step that is neither a rekeying nor a commit does to a record. -/
structure ConnectionRecord.Stays (r r' : ConnectionRecord) : Prop where
  bound : r.established = true → r'.bound = r.bound ∧ r'.keys = r.keys
  pending : r'.handshake.isSome = true → r.handshake.isSome = true

/-- The three kinds of steps in the life of a connection. -/
inductive Stage (env : Env) (st st' : Impl) : Prop where
  | other (hlog : ∃ new, st'.log = new ++ st.log ∧ ∀ e ∈ new, e.isMark = false)
      (hkeep : ∀ id r', st'.find id = some r' →
        (∃ r, st.find id = some r ∧ r.Stays r') ∨ (id = st.nextId ∧ st.nextId < st'.nextId))
  | rekey (id : Nat) (r : ConnectionRecord) (s : NoiseSession) (hr : st.find id = some r)
      (hs : r.session = some s) (h : st' = (st.modify id (fun r =>
        { r with session := some (s.rekey env.sodium), sendPacketId := 1 })).emit (.rekeyed id))
  | commit (id : Nat) (r : ConnectionRecord) (hs : HandshakeState) (hr : st.find id = some r)
      (hh : r.handshake = some hs) (h : st' = st.commitSession env id r hs)

section
variable {env : Env} {st st' : Impl}

theorem Effect.isMark_report {e : Effect} (h : e.isReport = true) : e.isMark = false := by
  cases e <;> first | rfl | cases h

theorem Effect.isMark_outward {e : Effect} (h : e.Outward) : e.isMark = false := by
  cases e <;> first | rfl | (rcases h with h | h <;> cases h)

theorem rekeyings_append {new : List Effect} (h : ∀ e ∈ new, e.isMark = false) (id : Nat)
    (older : List Effect) : rekeyings id (new ++ older) = rekeyings id older := by
  induction new with
  | nil => rfl
  | cons e new ih =>
    have hrest := ih (fun x hx => h x (List.mem_cons_of_mem e hx))
    have hhead := h e List.mem_cons_self
    cases e <;> first | exact hrest | cases hhead

theorem establishments_append {new : List Effect} (h : ∀ e ∈ new, e.isMark = false) (id : Nat)
    (older : List Effect) : establishments id (new ++ older) = establishments id older := by
  induction new with
  | nil => rfl
  | cons e new ih =>
    have hrest := ih (fun x hx => h x (List.mem_cons_of_mem e hx))
    have hhead := h e List.mem_cons_self
    cases e <;> first | exact hrest | cases hhead

theorem ConnectionRecord.Stays.refl (r : ConnectionRecord) : r.Stays r :=
  ⟨fun _ => ⟨rfl,rfl⟩,fun h => h⟩

/-- The fields that no step but a rekeying or a commit changes on an established record. -/
def ConnectionRecord.firm (r : ConnectionRecord) : ConnectionRecord × Option (Key × Key) :=
  (r.bound,r.keys)

theorem ConnectionRecord.Stays.of_firm {r r' : ConnectionRecord} (h : r'.firm = r.firm) :
    r.Stays r' := by
  obtain ⟨hb,hk⟩ := Prod.mk.inj h
  refine ⟨fun _ => ⟨hb,hk⟩,fun hs => ?_⟩
  have hh : r'.bound.handshake = r.bound.handshake := by rw [hb]
  have hsame : r'.handshake = r.handshake := hh
  rwa [← hsame]

theorem Stage.of_keeps (hk : Impl.Keeps ConnectionRecord.firm st st')
    (hl : ∃ new, st'.log = new ++ st.log ∧ ∀ e ∈ new, e.isMark = false) : Stage env st st' := by
  refine .other hl (fun id r' hr' => ?_)
  obtain ⟨r,hr,hf⟩ := hk id r' hr'
  exact Or.inl ⟨r,hr,.of_firm hf⟩

/-- A step in the middle of a handshake: the record it is about is not established. -/
theorem Stage.of_pending {id : Nat} {r : ConnectionRecord} {hs : HandshakeState}
    {f : ConnectionRecord → ConnectionRecord} (h : st.SoundRecords env.sodium)
    (hr : st.find id = some r) (hh : r.handshake = some hs)
    (hfind : ∀ j, st'.find j = (st.modify id f).find j)
    (hl : ∃ new, st'.log = new ++ st.log ∧ ∀ e ∈ new, e.isMark = false) : Stage env st st' := by
  refine .other hl (fun j r' hr' => ?_)
  rw [hfind] at hr'
  obtain ⟨r₀,hr₀,⟨rfl,rfl⟩ | ⟨_,rfl⟩⟩ := Impl.find_modify_some hr'
  · cases hr.symm.trans hr₀
    refine Or.inl ⟨r,hr,fun he => ?_,fun _ => by simp [hh]⟩
    rw [(h.record j r hr).pending hh] at he
    cases he
  · exact Or.inl ⟨r',hr₀,.refl r'⟩

theorem ConnectionRecord.firm_core (r : ConnectionRecord) : r.core.firm = r.firm := rfl

theorem Impl.opened_firm {id : Nat} {r : ConnectionRecord} {hdr : Header} {payload : Bytes}
    {out : Option Bytes} (hr : st.find id = some r)
    (ho : st.openPayload env id r hdr payload = (st',out)) :
    Impl.Keeps ConnectionRecord.firm st st' := by
  have hdec : ∀ s, r.session = some s →
      Impl.Keeps ConnectionRecord.firm st (st.decryptFor env id s hdr payload).1 := by
    intro s hs j r' hr'
    rw [decryptFor_find] at hr'
    obtain ⟨r₀,hr₀,⟨rfl,rfl⟩ | ⟨_,rfl⟩⟩ := find_modify_some hr'
    · cases hr.symm.trans hr₀
      refine ⟨r,hr,?_⟩
      rw [NoiseSession.decrypt_session]
      simp [ConnectionRecord.firm,ConnectionRecord.bound,ConnectionRecord.keys,
        ConnectionRecord.withSession,hs]
    · exact ⟨r',hr₀,rfl⟩
  rcases openPayload_cases ho with
    ⟨rfl,_⟩ | ⟨rfl,_⟩ | ⟨s,hs,_,_,_,rfl⟩ | ⟨s,hs,_,_,_,rfl⟩
  · exact Keeps.refl _
  · exact Keeps.of_records rfl
  · exact (hdec s hs).trans (Keeps.of_records rfl)
  · exact hdec s hs

theorem Impl.opened_marks {id : Nat} {r : ConnectionRecord} {hdr : Header} {payload : Bytes}
    {out : Option Bytes} (ho : st.openPayload env id r hdr payload = (st',out)) :
    ∃ new, st'.log = new ++ st.log ∧ ∀ e ∈ new, e.isMark = false := by
  obtain ⟨new,hl,hnew⟩ := openPayload_log ho
  refine ⟨new,hl,fun e he => ?_⟩
  rcases hnew e he with he | rfl
  · exact Effect.isMark_report he
  · rfl

theorem Micro.stage (h : Micro env st st') (hs : st.SoundRecords env.sodium) :
    Stage env st st' := by
  cases h with
  | silent h =>
    obtain ⟨new,hl,hnew⟩ := h.log
    exact .of_keeps (h.agrees ConnectionRecord.firm_core).keeps
      ⟨new,hl,fun e he => Effect.isMark_report (hnew e he)⟩
  | @frame id msgType payload h =>
    have hq := st.sendFrame_outward env id msgType payload
    obtain ⟨new,hl,hnew⟩ := hq.log
    exact .of_keeps (hq.agrees ConnectionRecord.firm_core).keeps
      ⟨new,hl,fun e he => Effect.isMark_outward (hnew e he)⟩
  | direct msgType h =>
    exact .of_keeps (Impl.Keeps.of_records rfl) ⟨[_],rfl,by simp [Effect.isMark]⟩
  | connect ep =>
    have hnext := (st.openConnection_same env ep).1
    have hlog := st.openConnection_log env ep
    refine .other ⟨_ ++ [_,_],by rw [hlog,List.append_assoc]; rfl,fun e he => ?_⟩
      (fun id r' hr' => ?_)
    · simp only [List.mem_append,List.mem_cons,List.not_mem_nil,or_false] at he
      rcases he with he | rfl | rfl
      · split at he
        · rw [List.mem_singleton.mp he]
          rfl
        · cases he
      · rfl
      · rfl
    · by_cases hid : id = st.nextId
      · exact Or.inr ⟨hid,by omega⟩
      · rw [Impl.openConnection_find_ne hid] at hr'
        exact Or.inl ⟨r',hr',.refl r'⟩
  | attach ep scheme h he =>
    exact .of_keeps (Impl.attachTransport_agrees _ ep scheme (fun r paths => rfl)).keeps
      ⟨[_,_],rfl,by simp [Effect.isMark]⟩
  | disconnect id =>
    obtain ⟨new,hl,hnew⟩ := st.handleDisconnect_log id
    refine .of_keeps (st.handleDisconnect_keeps id (fun r => rfl))
      ⟨new ++ [.disconnecting id st.toRegistry],by rw [hl,List.append_assoc]; rfl,fun e he => ?_⟩
    rcases List.mem_append.mp he with he | he
    · exact Effect.isMark_report (hnew e he)
    · rw [List.mem_singleton.mp he]
      rfl
  | duplicate h =>
    exact .of_keeps (st.removeDuplicate_keeps _ _) ⟨[_],rfl,by simp [Effect.isMark]⟩
  | read msg h =>
    obtain ⟨r,hr,hh,_⟩ := Impl.handshakeAs_some h
    exact .of_pending hs hr hh (fun j => rfl) ⟨[_],rfl,by simp [Effect.isMark]⟩
  | write payload h hl hok hk =>
    obtain ⟨r,hr,hh⟩ := Option.bind_eq_some_iff.mp h
    exact .of_pending hs hr hh (fun j => rfl) ⟨[_],rfl,by simp [Effect.isMark]⟩
  | authenticate schemes h hrs =>
    obtain ⟨r,hr,hh⟩ := Option.bind_eq_some_iff.mp h
    exact .of_pending hs hr hh (fun j => rfl) ⟨[],rfl,by simp⟩
  | @commit id r hs₁ h hh ha hd hf => exact .commit id r hs₁ h hh rfl
  | rekey id =>
    rcases st.rekeySession_cases env id with h | ⟨r,s,hr,hs₁,_,h⟩
    · rw [h]
      exact .of_keeps (Impl.Keeps.refl st) ⟨[],rfl,by simp⟩
    · exact .rekey id r s hr hs₁ h
  | refuse h he ho => exact .of_keeps (Impl.opened_firm h ho) (Impl.opened_marks ho)
  | @receive mid id r hdr payload plain sink h he ho =>
    obtain ⟨new,hl,hnew⟩ := Impl.opened_marks ho
    refine .of_keeps ((Impl.opened_firm h ho).trans (Impl.Keeps.of_records rfl))
      ⟨[.deliver r sink hdr { r.remote with peerId := id } payload plain,.stat .rxPacket 1 id,
        .stat .rxBytes payload.length id] ++ new,?_,fun e he' => ?_⟩
    · rw [List.append_assoc,← hl]
      rfl
    · rcases List.mem_append.mp he' with he' | he'
      · simp only [List.mem_cons,List.not_mem_nil,or_false] at he'
        rcases he' with rfl | rfl | rfl <;> rfl
      · exact hnew e he'

theorem rekeyedTimes_succ (S : Sodium) (n : Nat) (k : Key × Key) :
    rekeyedTimes S (n+1) k =
      (nextKey S (rekeyedTimes S n k).1,nextKey S (rekeyedTimes S n k).2) := by
  simp [rekeyedTimes,Function.iterate_succ_apply']

theorem ConnectionRecord.keys_rekey {S : Sodium} {r : ConnectionRecord} {s : NoiseSession}
    {k : Key × Key} (hs : r.session = some s) (hk : r.keys = some k) :
    ({ r with session := some (s.rekey S), sendPacketId := 1 } : ConnectionRecord).keys =
      some (nextKey S k.1,nextKey S k.2) := by
  simp only [keys,hs,Option.map_some,Option.some.injEq] at hk ⊢
  rw [← hk]
  rfl

/-- A connection since it was seen established as `r`, with `n` rekeyings behind it. -/
structure Impl.Since (S : Sodium) (id n : Nat) (r : ConnectionRecord) (k : Key × Key)
    (st : Impl) : Prop where
  sound : st.SoundRecords S
  known : id < st.nextId
  counted : n ≤ rekeyings id st.log
  same : ∀ r', st.find id = some r' → r'.bound = r.bound ∧
    r'.keys = some (rekeyedTimes S (rekeyings id st.log-n) k)

/-- The counts and presences that make a connection unique. -/
structure Impl.Once (S : Sodium) (st : Impl) : Prop where
  sound : st.SoundRecords S
  once : ∀ id, establishments id st.log ≤ 1
  fresh : ∀ id, st.nextId ≤ id → establishments id st.log = 0
  pending : ∀ id r, st.find id = some r → r.handshake.isSome = true →
    establishments id st.log = 0

section
variable {id n : Nat} {r : ConnectionRecord} {k : Key × Key}

theorem Impl.Since.established (h : st.Since env.sodium id n r k) (he : r.established = true)
    {r' : ConnectionRecord} (hr' : st.find id = some r') : r'.established = true := by
  have hstate : r'.bound.state = r.bound.state := by rw [(h.same r' hr').1]
  have hsame : r'.state = r.state := hstate
  simpa [ConnectionRecord.established,hsame] using he

theorem Stage.since (h : Stage env st st') (hs : st'.SoundRecords env.sodium)
    (hn : st.nextId ≤ st'.nextId) (he : r.established = true)
    (hi : st.Since env.sodium id n r k) : st'.Since env.sodium id n r k := by
  have hknown : id < st'.nextId := Nat.lt_of_lt_of_le hi.known hn
  cases h with
  | other hlog hkeep =>
    obtain ⟨new,hl,hnew⟩ := hlog
    have hcount : rekeyings id st'.log = rekeyings id st.log := by
      rw [hl,rekeyings_append hnew]
    refine ⟨hs,hknown,by rw [hcount]; exact hi.counted,fun r' hr' => ?_⟩
    rcases hkeep id r' hr' with ⟨r₀,hr₀,hstay⟩ | ⟨hid,_⟩
    · obtain ⟨hb,hk⟩ := hi.same r₀ hr₀
      obtain ⟨hb',hk'⟩ := hstay.bound (hi.established he hr₀)
      exact ⟨hb'.trans hb,by rw [hk',hk,hcount]⟩
    · exact absurd hi.known (by omega)
  | rekey j r₁ s hr₁ hs₁ heq =>
    subst heq
    by_cases hj : j = id
    · subst hj
      have hcount : rekeyings j (((st.modify j (fun r =>
          { r with session := some (s.rekey env.sodium), sendPacketId := 1 })).emit
            (.rekeyed j)).log) = rekeyings j st.log+1 := if_pos rfl
      have hle := hi.counted
      refine ⟨hs,hknown,by omega,fun r' hr' => ?_⟩
      obtain ⟨r₀,hr₀,⟨_,rfl⟩ | ⟨hne,_⟩⟩ := Impl.find_modify_some hr'
      · cases hr₁.symm.trans hr₀
        obtain ⟨hb,hk⟩ := hi.same r₁ hr₁
        refine ⟨hb,?_⟩
        rw [hcount,Nat.succ_sub hle,rekeyedTimes_succ]
        exact ConnectionRecord.keys_rekey hs₁ hk
      · exact absurd rfl hne
    · have hcount : rekeyings id (((st.modify j (fun r =>
          { r with session := some (s.rekey env.sodium), sendPacketId := 1 })).emit
            (.rekeyed j)).log) = rekeyings id st.log := if_neg hj
      refine ⟨hs,hknown,by rw [hcount]; exact hi.counted,fun r' hr' => ?_⟩
      obtain ⟨r₀,hr₀,⟨heq,_⟩ | ⟨_,rfl⟩⟩ := Impl.find_modify_some hr'
      · exact absurd heq.symm hj
      · rw [hcount]
        exact hi.same r' hr₀
  | commit j r₁ hs₁ hr₁ hh heq =>
    subst heq
    have hj : id ≠ j := by
      rintro rfl
      have hpending := (hi.sound.record id r₁ hr₁).pending hh
      rw [hi.established he hr₁] at hpending
      cases hpending
    have hcount : rekeyings id (st.commitSession env j r₁ hs₁).log = rekeyings id st.log := rfl
    refine ⟨hs,hknown,by rw [hcount]; exact hi.counted,fun r' hr' => ?_⟩
    rw [Impl.commitSession_find_ne r₁ hs₁ hj] at hr'
    rw [hcount]
    exact hi.same r' hr'

theorem Stage.once (h : Stage env st st') (hs : st'.SoundRecords env.sodium)
    (hn : st.nextId ≤ st'.nextId) (hi : st.Once env.sodium) : st'.Once env.sodium := by
  cases h with
  | other hlog hkeep =>
    obtain ⟨new,hl,hnew⟩ := hlog
    have hcount : ∀ j, establishments j st'.log = establishments j st.log := fun j => by
      rw [hl,establishments_append hnew]
    refine ⟨hs,fun j => ?_,fun j hj => ?_,fun j r' hr' hsome => ?_⟩
    · rw [hcount]
      exact hi.once j
    · rw [hcount]
      exact hi.fresh j (hn.trans hj)
    · rw [hcount]
      rcases hkeep j r' hr' with ⟨r₀,hr₀,hstay⟩ | ⟨hj,_⟩
      · exact hi.pending j r₀ hr₀ (hstay.pending hsome)
      · exact hi.fresh j (Nat.le_of_eq hj.symm)
  | rekey i r₁ s hr₁ hs₁ heq =>
    subst heq
    refine ⟨hs,hi.once,hi.fresh,fun j r' hr' hsome => ?_⟩
    obtain ⟨r₀,hr₀,⟨rfl,rfl⟩ | ⟨_,rfl⟩⟩ := Impl.find_modify_some hr'
    · exact hi.pending j r₀ hr₀ hsome
    · exact hi.pending j r' hr₀ hsome
  | commit i r₁ hs₁ hr₁ hh heq =>
    subst heq
    have hcount : ∀ j, establishments j (st.commitSession env i r₁ hs₁).log =
        if i = j then establishments j st.log+1 else establishments j st.log := fun j => rfl
    have hnone : establishments i st.log = 0 := hi.pending i r₁ hr₁ (by simp [hh])
    have hlt := hi.sound.fresh i r₁ hr₁
    refine ⟨hs,fun j => ?_,fun j hj => ?_,fun j r' hr' hsome => ?_⟩
    · rw [hcount]
      split
      · rename_i hij
        rw [← hij,hnone]
      · exact hi.once j
    · have hij : ¬ i = j := by
        have hle := hn.trans hj
        omega
      rw [hcount,if_neg hij]
      exact hi.fresh j (hn.trans hj)
    · by_cases hij : i = j
      · subst hij
        rw [Impl.commitSession_find hr₁] at hr'
        cases hr'
        cases hsome
      · rw [Impl.commitSession_find_ne r₁ hs₁ (Ne.symm hij)] at hr'
        rw [hcount,if_neg hij]
        exact hi.pending j r' hr' hsome

theorem Impl.Once.buffer (h : st.Once env.sodium) (i : Nat) (bytes : Bytes) :
    (st.setRecvBuf i bytes).Once env.sodium := by
  refine ⟨h.sound.buffer i bytes,h.once,h.fresh,fun j r' hr' hsome => ?_⟩
  obtain ⟨r₀,hr₀,⟨rfl,rfl⟩ | ⟨_,rfl⟩⟩ := find_modify_some hr'
  · exact h.pending j r₀ hr₀ hsome
  · exact h.pending j r' hr₀ hsome

theorem Impl.Since.buffer (h : st.Since env.sodium id n r k) (i : Nat) (bytes : Bytes) :
    (st.setRecvBuf i bytes).Since env.sodium id n r k := by
  refine ⟨h.sound.buffer i bytes,h.known,h.counted,fun r' hr' => ?_⟩
  obtain ⟨r₀,hr₀,⟨rfl,rfl⟩ | ⟨_,rfl⟩⟩ := find_modify_some hr'
  · exact h.same r₀ hr₀
  · exact h.same r' hr₀

theorem run_once (env : Env) (identity : NodeIdentity) (calls : List Call) :
    ((Impl.start identity).run env calls).Once env.sodium := by
  refine Impl.run_invariant (C := fun _ => True) ?_
    (fun _ _ h _ hi => (h.stage hi.sound).once (h.sound hi.sound) h.nextId_le hi)
    (fun _ i bytes hi => hi.buffer i bytes) calls (fun _ _ => trivial)
  refine ⟨start_sound env identity,fun id => by simp [Impl.start,establishments],fun id _ => ?_,
    fun id r hr => ?_⟩
  · simp [Impl.start,establishments]
  · simp [Impl.start,Impl.find] at hr

end

end

/-- Between any two moments of a run: a connection that is established at the first and still there
at the second is the same connection with the same peer, in the same role and by the same rules,
and its keys have moved on by as many rekeyings as the trace has in between; an id whose
connection is gone stays unused, and no id has more than one handshake completed under it. -/
theorem connection_lives_once (env : Env) (identity : NodeIdentity) (before after : List Call)
    (id : Nat) :
    let st := (Impl.start identity).run env before
    let st' := st.run env after
    establishments id st'.log ≤ 1 ∧
    (id < st.nextId → st.find id = none → st'.find id = none) ∧
    ∀ r r', st.find id = some r → r.established = true → st'.find id = some r' →
      r'.bound = r.bound ∧ ∃ k n, r.keys = some k ∧
        r'.keys = some (rekeyedTimes env.sodium n k) ∧
        rekeyings id st'.log = rekeyings id st.log+n := by
  intro st st'
  have hsound : st.SoundRecords env.sodium := run_sound env identity before
  refine ⟨?_,fun hlt hnone => ?_,fun r r' hr he hr' => ?_⟩
  · have honce := (run_once env identity (before ++ after)).once id
    rwa [Impl.run,List.foldl_append] at honce
  · cases hf : st'.find id with
    | none => rfl
    | some r' =>
      obtain ⟨r,hr⟩ := ((Impl.run_ticks st after).present hlt).2 r' hf
      rw [hnone] at hr
      cases hr
  · obtain ⟨s,hs⟩ := (hsound.record id r hr).session he
    have hkeys : r.keys = some (s.sendKey,s.recvKey) := by simp [ConnectionRecord.keys,hs]
    have hstart : st.Since env.sodium id (rekeyings id st.log) r (s.sendKey,s.recvKey) := by
      refine ⟨hsound,hsound.fresh id r hr,Nat.le_refl _,fun r₁ hr₁ => ?_⟩
      cases hr.symm.trans hr₁
      simp [hkeys,rekeyedTimes]
    have hsince : st'.Since env.sodium id (rekeyings id st.log) r (s.sendKey,s.recvKey) :=
      Impl.run_invariant (C := fun _ => True) hstart
        (fun _ _ h _ hi => (h.stage hi.sound).since (h.sound hi.sound) h.nextId_le he hi)
        (fun _ i bytes hi => hi.buffer i bytes) after (fun _ _ => trivial)
    obtain ⟨hb,hk⟩ := hsince.same r' hr'
    have hle := hsince.counted
    exact ⟨hb,_,_,hkeys,hk,by omega⟩

end GoodNet
