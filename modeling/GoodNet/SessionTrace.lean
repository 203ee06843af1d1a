import GoodNet.ManagerSteps
set_option autoImplicit false

/-! Where sessions come from: a commit, then any number of rekeyings and decryptions. -/

namespace GoodNet
open Codec History Noise

/-- One rekeying of a single key. -/
def nextKey (S : Sodium) (k : Key) : Key := (hkdf2 S k []).1

/-- The keys of a session are those a handshake splits into, rekeyed `n` times. -/
def NoiseSession.DerivedFrom (S : Sodium) (hs : HandshakeState) (s : NoiseSession) : Prop :=
  ∃ n, s.sendKey = (nextKey S)^[n] (hs.split S).1.key ∧
    s.recvKey = (nextKey S)^[n] (hs.split S).2.key

/-- What the delivery and the framing of a connection rely on. -/
structure ConnectionRecord.Sound (S : Sodium) (log : List Effect) (id : Nat)
    (r : ConnectionRecord) : Prop where
  session : r.established = true → ∃ s, r.session = some s
  derived : ∀ s, r.session = some s → ∃ owner hs, Effect.established id owner hs ∈ log ∧
    s.DerivedFrom S hs
  localhost : r.localhostPassthrough = true → r.isLocalhost = true
  settled : r.established = true → r.peerAuthenticated = true ∧ r.handshake.isSome = false

/-- The fields that `Sound` is about, but for the session. -/
def ConnectionRecord.standing (r : ConnectionRecord) : ConnState × Bool × Bool × Bool × Bool :=
  (r.state,r.isLocalhost,r.localhostPassthrough,r.peerAuthenticated,r.handshake.isSome)

def ConnectionRecord.keyed (r : ConnectionRecord) :
    (ConnState × Bool × Bool × Bool × Bool) × Option NoiseSession := (r.standing,r.session)

structure Impl.SoundRecords (S : Sodium) (st : Impl) : Prop where
  record : ∀ id r, st.find id = some r → r.Sound S st.log id
  fresh : ∀ id r, st.find id = some r → id < st.nextId

section
variable {S : Sodium} {env : Env} {st st' : Impl}

theorem NoiseSession.DerivedFrom.decrypt {Z : Zstd} {hs : HandshakeState} {s : NoiseSession}
    (h : s.DerivedFrom S hs) (wire : Bytes) (nonce : UInt64) :
    (s.decrypt S Z wire nonce).1.DerivedFrom S hs := by
  rw [decrypt_session]
  exact h

theorem NoiseSession.DerivedFrom.rekey {hs : HandshakeState} {s : NoiseSession}
    (h : s.DerivedFrom S hs) : (s.rekey S).DerivedFrom S hs := by
  obtain ⟨n,h1,h2⟩ := h
  refine ⟨n+1,?_,?_⟩
  · rw [Function.iterate_succ_apply',← h1]
    rfl
  · rw [Function.iterate_succ_apply',← h2]
    rfl

theorem ConnectionRecord.standing_eq {r r' : ConnectionRecord} (h : r'.standing = r.standing) :
    r'.established = r.established ∧ r'.isLocalhost = r.isLocalhost ∧
      r'.localhostPassthrough = r.localhostPassthrough ∧
      r'.peerAuthenticated = r.peerAuthenticated ∧ r'.handshake.isSome = r.handshake.isSome := by
  simp only [standing,Prod.mk.injEq] at h
  obtain ⟨h1,h2,h3,h4,h5⟩ := h
  exact ⟨by rw [established,established,h1],h2,h3,h4,h5⟩

/-- A record of the same standing, with the same session or one from the same handshake. -/
theorem ConnectionRecord.Sound.renew {log log' : List Effect} {id : Nat}
    {r r' : ConnectionRecord} (h : r.Sound S log id) (hf : r'.standing = r.standing)
    (hl : ∀ e ∈ log, e ∈ log') (hsome : ∀ s, r.session = some s → ∃ s', r'.session = some s')
    (hd : ∀ s', r'.session = some s' → ∃ s, r.session = some s ∧
      ∀ hs, s.DerivedFrom S hs → s'.DerivedFrom S hs) : r'.Sound S log' id := by
  obtain ⟨hst,hlo,hpt,hau,hha⟩ := standing_eq hf
  refine ⟨fun he => ?_,fun s' hs' => ?_,fun hp => ?_,fun he => ?_⟩
  · obtain ⟨s,hs⟩ := h.session (hst.symm.trans he)
    exact hsome s hs
  · obtain ⟨s,hs,hfrom⟩ := hd s' hs'
    obtain ⟨owner,hsk,hm,hder⟩ := h.derived s hs
    exact ⟨owner,hsk,hl _ hm,hfrom hsk hder⟩
  · rw [hlo]
    exact h.localhost (hpt.symm.trans hp)
  · rw [hau,hha]
    exact h.settled (hst.symm.trans he)

theorem ConnectionRecord.Sound.keep {log log' : List Effect} {id : Nat}
    {r r' : ConnectionRecord} (h : r.Sound S log id) (hf : r'.keyed = r.keyed)
    (hl : ∀ e ∈ log, e ∈ log') : r'.Sound S log' id := by
  obtain ⟨hstanding,hsession⟩ := Prod.mk.inj hf
  refine h.renew hstanding hl (fun s hs => ⟨s,hsession.trans hs⟩) (fun s' hs' => ?_)
  exact ⟨s',hsession.symm.trans hs',fun _ hd => hd⟩

/-- A new session in the place of one from the same handshake. -/
theorem ConnectionRecord.Sound.rekeyed {log log' : List Effect} {id : Nat}
    {r r' : ConnectionRecord} {s s' : NoiseSession} (h : r.Sound S log id)
    (hs : r.session = some s) (hf : r'.standing = r.standing) (hr : r'.session = some s')
    (hd : ∀ hs, s.DerivedFrom S hs → s'.DerivedFrom S hs) (hl : ∀ e ∈ log, e ∈ log') :
    r'.Sound S log' id := by
  refine h.renew hf hl (fun _ _ => ⟨s',hr⟩) (fun s₁ hs₁ => ⟨s,hs,?_⟩)
  rw [hr] at hs₁
  cases hs₁
  exact hd

/-- A record with a handshake to finish is not established. -/
theorem ConnectionRecord.Sound.pending {log : List Effect} {id : Nat} {r : ConnectionRecord}
    {hs : HandshakeState} (h : r.Sound S log id) (hh : r.handshake = some hs) :
    r.established = false := by
  cases he : r.established with
  | false => rfl
  | true =>
    have hnone := (h.settled he).2
    rw [hh] at hnone
    cases hnone

theorem Impl.SoundRecords.keep (h : st.SoundRecords S)
    (hk : Impl.Keeps ConnectionRecord.keyed st st') (hl : ∀ e ∈ st.log, e ∈ st'.log)
    (hn : st.nextId ≤ st'.nextId) : st'.SoundRecords S := by
  refine ⟨fun id r hr => ?_,fun id r hr => ?_⟩
  · obtain ⟨r₀,hr₀,hf⟩ := hk id r hr
    exact (h.record id r₀ hr₀).keep hf hl
  · obtain ⟨r₀,hr₀,_⟩ := hk id r hr
    exact Nat.lt_of_lt_of_le (h.fresh id r₀ hr₀) hn

theorem ConnectionRecord.Sound.authenticate {log log' : List Effect} {id : Nat}
    {r : ConnectionRecord} {hp : HandshakePayload} {schemes : List String}
    (h : r.Sound S log id) (hl : ∀ e ∈ log, e ∈ log') :
    (st.authenticate hp schemes r).Sound S log' id := by
  obtain ⟨hha,hau,hst,hse,hlo,hpt,_⟩ := st.authenticate_keeps hp schemes r
  have hest : (st.authenticate hp schemes r).established = r.established := by
    rw [established,established,hst]
  refine ⟨fun he => ?_,fun s hs => ?_,fun hpass => ?_,fun he => ⟨hau,?_⟩⟩
  · rw [hse]
    exact h.session (hest.symm.trans he)
  · obtain ⟨owner,hsk,hm,hd⟩ := h.derived s (hse.symm.trans hs)
    exact ⟨owner,hsk,hl _ hm,hd⟩
  · rw [hlo]
    exact h.localhost (hpt.symm.trans hpass)
  · rw [hha]
    exact (h.settled (hest.symm.trans he)).2

theorem Impl.SoundRecords.decrypted {id : Nat} {r : ConnectionRecord} {s : NoiseSession}
    {hdr : Header} {payload : Bytes} (hi : st.SoundRecords env.sodium) (hr : st.find id = some r)
    (hs : r.session = some s) :
    (st.decryptFor env id s hdr payload).1.SoundRecords env.sodium := by
  have hsame : (st.decryptFor env id s hdr payload).1.nextId = st.nextId ∧
      ∀ e ∈ st.log, e ∈ (st.decryptFor env id s hdr payload).1.log := by
    rcases st.decryptFor_cases env id s hdr payload with ⟨_,_,hd⟩ | ⟨_,hd⟩
    · rw [hd]
      exact ⟨rfl,fun e he => List.mem_cons_of_mem _ he⟩
    · rw [hd]
      exact ⟨rfl,fun e he => he⟩
  refine ⟨fun j r' hr' => ?_,fun j r' hr' => ?_⟩
  · rw [decryptFor_find] at hr'
    obtain ⟨r₀,hr₀,⟨rfl,rfl⟩ | ⟨_,rfl⟩⟩ := find_modify_some hr'
    · rw [hr] at hr₀
      cases hr₀
      exact (hi.record j r hr).rekeyed hs rfl rfl (fun _ hd => hd.decrypt _ _) hsame.2
    · exact (hi.record j r' hr₀).keep rfl hsame.2
  · rw [hsame.1]
    rw [decryptFor_find] at hr'
    obtain ⟨r₀,hr₀,_⟩ := find_modify_some hr'
    exact hi.fresh j r₀ hr₀

/-- A report in the trace changes nothing about the records. -/
theorem Impl.SoundRecords.emit (hi : st.SoundRecords S) (e : Effect) :
    (st.emit e).SoundRecords S :=
  hi.keep (Keeps.of_records rfl) (fun _ he => List.mem_cons_of_mem _ he) (Nat.le_refl _)

theorem Impl.SoundRecords.opened {id : Nat} {r : ConnectionRecord} {hdr : Header}
    {payload : Bytes} {out : Option Bytes} (hi : st.SoundRecords env.sodium)
    (hr : st.find id = some r) (ho : st.openPayload env id r hdr payload = (st',out)) :
    st'.SoundRecords env.sodium := by
  rcases openPayload_cases ho with
    ⟨rfl,_⟩ | ⟨rfl,_⟩ | ⟨s,hs,_,_,_,rfl⟩ | ⟨s,hs,_,_,_,rfl⟩
  · exact hi
  · exact hi.emit _
  · exact (hi.decrypted hr hs).emit _
  · exact hi.decrypted hr hs

theorem Micro.sound (h : Micro env st st') (hi : st.SoundRecords env.sodium) :
    st'.SoundRecords env.sodium := by
  have hgrow := h.log_mono
  have hnext := h.nextId_le
  cases h with
  | silent h => exact hi.keep (h.agrees (fun r => rfl)).keeps hgrow hnext
  | @frame id msgType payload h =>
    exact hi.keep ((st.sendFrame_outward env id msgType payload).agrees (fun r => rfl)).keeps hgrow
      hnext
  | direct msgType h => exact hi.keep (Impl.Keeps.of_records rfl) hgrow hnext
  | connect ep =>
    have hnew := (st.openConnection_same env ep).1
    refine ⟨fun id r hr => ?_,fun id r hr => ?_⟩
    · rcases Impl.openConnection_find hr with ⟨_,hr⟩ | ⟨rfl,_,rfl⟩ | ⟨rfl,_,rfl⟩
      · exact (hi.record id r hr).keep rfl hgrow
      · exact ⟨fun he => (by cases he),fun s hs => (by cases hs),fun hp => (by cases hp),
          fun he => (by cases he)⟩
      · exact ⟨fun he => (by cases he),fun s hs => (by cases hs),fun hp => (by cases hp),
          fun he => (by cases he)⟩
    · rcases Impl.openConnection_find hr with ⟨_,hr⟩ | ⟨rfl,_⟩ | ⟨rfl,_⟩
      · exact Nat.lt_of_lt_of_le (hi.fresh id r hr) hnext
      · omega
      · omega
  | attach ep scheme h he =>
    exact hi.keep (Impl.attachTransport_agrees _ ep scheme (fun r paths => rfl)).keeps hgrow hnext
  | disconnect id => exact hi.keep (st.handleDisconnect_keeps id (fun r => rfl)) hgrow hnext
  | duplicate h => exact hi.keep (st.removeDuplicate_keeps _ _) hgrow hnext
  | read msg h =>
    obtain ⟨r,hr,hh,_⟩ := Impl.handshakeAs_some h
    exact hi.keep (Impl.readNoise_agrees_at hr hh rfl).keeps hgrow hnext
  | write payload h hl hok hk =>
    obtain ⟨r,hr,hh⟩ := Option.bind_eq_some_iff.mp h
    exact hi.keep (Impl.writeNoise_agrees_at hr hh rfl).keeps hgrow hnext
  | @authenticate id hs hp schemes h hrs =>
    refine ⟨fun j r' hr' => ?_,fun j r' hr' => ?_⟩
    · obtain ⟨r,hr,⟨rfl,rfl⟩ | ⟨_,rfl⟩⟩ := Impl.find_modify_some hr'
      · exact (hi.record j r hr).authenticate hgrow
      · exact (hi.record j r' hr).keep rfl hgrow
    · obtain ⟨r,hr,_⟩ := Impl.find_modify_some hr'
      exact hi.fresh j r hr
  | @commit id r hs h hh ha hd hf =>
    refine ⟨fun j r' hr' => ?_,fun j r' hr' => ?_⟩
    · obtain ⟨r₀,hr₀,⟨rfl,rfl⟩ | ⟨_,rfl⟩⟩ := Impl.find_modify_some hr'
      · rw [h] at hr₀
        cases hr₀
        refine ⟨fun _ => ⟨_,rfl⟩,fun s hs₁ => ?_,fun hp => ?_,fun _ => ⟨ha,rfl⟩⟩
        · cases hs₁
          exact ⟨r,hs,List.mem_cons_self,0,rfl,rfl⟩
        · cases hlo : r.isLocalhost with
          | true => exact hlo
          | false =>
            simp only [ConnectionRecord.committed,hlo,Bool.false_eq_true,ite_false] at hp
            exact absurd ((hi.record j r h).localhost hp) (by simp [hlo])
      · exact (hi.record j r' hr₀).keep rfl hgrow
    · obtain ⟨r₀,hr₀,_⟩ := Impl.find_modify_some hr'
      exact hi.fresh j r₀ hr₀
  | rekey id =>
    rcases st.rekeySession_cases env id with h | ⟨r,s,hr,hs,_,h⟩
    · rw [h]
      exact hi
    · rw [h] at hgrow ⊢
      refine ⟨fun j r' hr' => ?_,fun j r' hr' => ?_⟩
      · obtain ⟨r₀,hr₀,⟨rfl,rfl⟩ | ⟨_,rfl⟩⟩ := Impl.find_modify_some hr'
        · rw [hr] at hr₀
          cases hr₀
          exact (hi.record j r hr).rekeyed hs rfl rfl (fun _ hd => hd.rekey) hgrow
        · exact (hi.record j r' hr₀).keep rfl hgrow
      · obtain ⟨r₀,hr₀,_⟩ := Impl.find_modify_some hr'
        exact hi.fresh j r₀ hr₀
  | refuse h he ho => exact hi.opened h ho
  | receive sink h he ho => exact (((hi.opened h ho).emit _).emit _).emit _

theorem start_sound (env : Env) (identity : NodeIdentity) :
    (Impl.start identity).SoundRecords env.sodium :=
  ⟨fun id r hr => by simp [Impl.start,Impl.find] at hr,
    fun id r hr => by simp [Impl.start,Impl.find] at hr⟩

theorem Impl.SoundRecords.buffer (h : st.SoundRecords S) (id : Nat) (bytes : Bytes) :
    (st.setRecvBuf id bytes).SoundRecords S :=
  h.keep (st.setRecvBuf_agrees id bytes (fun _ _ => rfl)).keeps (fun _ he => he) (Nat.le_refl _)

theorem run_sound (env : Env) (identity : NodeIdentity) (calls : List Call) :
    ((Impl.start identity).run env calls).SoundRecords env.sodium :=
  Impl.run_invariant (start_sound env identity) (fun _ _ h _ hi => h.sound hi)
    (fun _ id bytes hi => hi.buffer id bytes) calls (fun _ _ => True.intro)

end

end GoodNet
