import GoodNet.SessionTrace
set_option autoImplicit false

/-! `pk_index_`: which connection stands for a peer. Entries are written when a handshake is
committed and erased by key, not by owner, when any authenticated connection ends. -/

namespace GoodNet
open Codec History

/-- An authenticated record goes while the entry under its key, if there is one, is its own. -/
def Effect.keepsPk : Effect → Bool
  | .disconnecting id found =>
    match found.transportIndex.lookup id, found.records.lookup id with
    | none, some r => !r.peerAuthenticated ||
        (match found.pkIndex.lookup r.pkHex with
         | none => true
         | some owner => owner == id)
    | _, _ => true
  | _ => true

/-- The established connections and the entries of `pk_index_` are the same thing. -/
structure Impl.PkSound (st : Impl) : Prop where
  owned : ∀ id r, st.find id = some r → r.established = true →
    st.pkIndex.lookup r.pkHex = some id
  live : ∀ key id, st.pkIndex.lookup key = some id →
    ∃ r, st.find id = some r ∧ r.established = true ∧ r.pkHex = key

/-- The half of it that says which connection stands for a peer. -/
def Impl.PkOwned (st : Impl) : Prop :=
  ∀ id r, st.find id = some r → r.established = true → st.pkIndex.lookup r.pkHex = some id

/-- A connection whose handshake is under way is not established. -/
def Impl.Unsettled (st : Impl) : Prop :=
  ∀ id r, st.find id = some r → r.handshake.isSome = true → r.established = false

def ConnectionRecord.indexKey (r : ConnectionRecord) : ConnState × Key := (r.state,r.peerUserPubkey)

section
variable {env : Env} {st st' : Impl}

theorem ConnectionRecord.indexKey_eq {r r' : ConnectionRecord} (h : r'.indexKey = r.indexKey) :
    r'.established = r.established ∧ r'.pkHex = r.pkHex := by
  obtain ⟨h1,h2⟩ := Prod.mk.inj h
  exact ⟨by rw [established,established,h1],by rw [pkHex,pkHex,h2]⟩

/-- Steps that leave the state and the key of every record and the index alone. -/
theorem Impl.PkOwned.keep (h : st.PkOwned) (hk : Impl.Keeps ConnectionRecord.indexKey st st')
    (hp : st'.pkIndex = st.pkIndex) : st'.PkOwned := by
  intro id r' hr' he
  obtain ⟨r,hr,hs⟩ := hk id r' hr'
  obtain ⟨k1,k2⟩ := ConnectionRecord.indexKey_eq hs
  rw [hp,k2]
  exact h id r hr (k1.symm.trans he)

theorem Impl.PkSound.keep (h : st.PkSound) (ha : Impl.Agrees ConnectionRecord.indexKey st st')
    (hp : st'.pkIndex = st.pkIndex) : st'.PkSound := by
  refine ⟨Impl.PkOwned.keep h.owned ha.keeps hp,fun key id hl => ?_⟩
  rw [hp] at hl
  obtain ⟨r,hr,he,hk⟩ := h.live key id hl
  obtain ⟨r',hr',hs⟩ := ha.find_some hr
  obtain ⟨k1,k2⟩ := ConnectionRecord.indexKey_eq hs
  exact ⟨r',hr',k1.trans he,k2.trans hk⟩

/-- A record can be made and changed freely, short of committing it. -/
theorem Impl.PkOwned.edit (h : st.PkOwned) (id : Nat) (hp : st'.pkIndex = st.pkIndex)
    (hother : ∀ j, j ≠ id → st'.find j = st.find j)
    (hafter : ∀ r, st'.find id = some r → r.established = false) : st'.PkOwned := by
  intro j r' hr' he
  have hj : j ≠ id := by
    intro hj
    subst hj
    rw [hafter r' hr'] at he
    cases he
  rw [hother j hj] at hr'
  rw [hp]
  exact h j r' hr' he

/-- A record that is not established can be dropped as well. -/
theorem Impl.PkSound.edit (h : st.PkSound) (id : Nat) (hp : st'.pkIndex = st.pkIndex)
    (hother : ∀ j, j ≠ id → st'.find j = st.find j)
    (hbefore : ∀ r, st.find id = some r → r.established = false)
    (hafter : ∀ r, st'.find id = some r → r.established = false) : st'.PkSound := by
  refine ⟨Impl.PkOwned.edit h.owned id hp hother hafter,fun key j hl => ?_⟩
  rw [hp] at hl
  obtain ⟨r,hr,he,hk⟩ := h.live key j hl
  have hj : j ≠ id := by
    intro hj
    subst hj
    rw [hbefore r hr] at he
    cases he
  exact ⟨r,(hother j hj).trans hr,he,hk⟩

theorem Impl.PkOwned.forget (h : st.PkOwned) {id : Nat} {r : ConnectionRecord}
    (hown : r.peerAuthenticated = true →
      ∀ owner, st.pkIndex.lookup r.pkHex = some owner → owner = id) :
    (st.forgetPeer id r).PkOwned := by
  intro j r' hr' he
  obtain ⟨hj,hr₀⟩ : j ≠ id ∧ st.find j = some r' := find_erase_some rfl hr'
  have hentry := h j r' hr₀ he
  unfold forgetPeer
  dsimp only
  split
  · rename_i ha
    have hk : r'.pkHex ≠ r.pkHex := by
      intro hk
      rw [hk] at hentry
      exact hj (hown ha j hentry)
    rw [AList.lookup_erase_ne hk]
    exact hentry
  · exact hentry

theorem Impl.PkSound.forget (h : st.PkSound) {id : Nat} {r : ConnectionRecord}
    (hr : st.find id = some r) (hauth : r.established = true → r.peerAuthenticated = true)
    (hown : r.peerAuthenticated = true →
      ∀ owner, st.pkIndex.lookup r.pkHex = some owner → owner = id) :
    (st.forgetPeer id r).PkSound := by
  refine ⟨Impl.PkOwned.forget h.owned hown,fun key j hl => ?_⟩
  obtain ⟨hl₀,hkey⟩ := forgetPeer_pk hl
  obtain ⟨r',hr',he,hk⟩ := h.live key j hl₀
  have hj : j ≠ id := by
    intro hj
    subst hj
    rw [hr] at hr'
    cases hr'
    exact hkey (hauth he) hk.symm
  exact ⟨r',(find_forgetPeer r hj).trans hr',he,hk⟩

/-- A disconnect leaves the keys and the index alone, or forgets a record whose entry, if there
is one, is its own. -/
theorem Impl.handleDisconnect_pk {P : Impl → Prop} (id : Nat)
    (hc : (Effect.disconnecting id st.toRegistry).keepsPk = true)
    (hkeep : ∀ st' : Impl, Impl.Agrees ConnectionRecord.indexKey st st' →
      st'.pkIndex = st.pkIndex → P st')
    (hforget : ∀ r, st.find id = some r →
      (r.peerAuthenticated = true → ∀ owner, st.pkIndex.lookup r.pkHex = some owner → owner = id) →
      P (st.forgetPeer id r))
    (hlog : ∀ st' st'' : Impl, P st' → st''.records = st'.records → st''.pkIndex = st'.pkIndex →
      P st'') : P (st.handleDisconnect id) := by
  rcases st.handleDisconnect_cases id with ⟨peer,_,hd⟩ | ⟨_,_,hd⟩ | ⟨ht,r,hr,hd⟩
  · rw [hd]
    have hagree := dropTransport_agrees (st.emit (.disconnecting id st.toRegistry)) id peer
      (f := ConnectionRecord.indexKey) (fun r => rfl)
    exact hkeep _ ((Agrees.of_records rfl).trans hagree)
      ((st.emit (.disconnecting id st.toRegistry)).dropTransport_same id peer).2.2
  · rw [hd]
    exact hkeep _ (Agrees.of_records rfl) rfl
  · rw [hd]
    refine hlog _ _ (hforget r hr (fun ha owner hl => ?_)) rfl rfl
    have hr' : st.find id = some r := hr
    unfold find at hr'
    simp only [Effect.keepsPk,ht,hr',ha,Bool.not_true,Bool.false_or,hl,beq_iff_eq] at hc
    exact hc

theorem Impl.PkOwned.disconnect (h : st.PkOwned) (id : Nat)
    (hc : (Effect.disconnecting id st.toRegistry).keepsPk = true) :
    (st.handleDisconnect id).PkOwned :=
  Impl.handleDisconnect_pk id hc (fun _ ha hp => h.keep ha.keeps hp)
    (fun _ _ hown => h.forget hown) (fun _ _ h hr hp => h.keep (Keeps.of_records hr) hp)

theorem Impl.PkSound.disconnect (h : st.PkSound) (id : Nat)
    (hauth : ∀ r, st.find id = some r → r.established = true → r.peerAuthenticated = true)
    (hc : (Effect.disconnecting id st.toRegistry).keepsPk = true) :
    (st.handleDisconnect id).PkSound :=
  Impl.handleDisconnect_pk id hc (fun _ ha hp => h.keep ha hp)
    (fun r hr hown => h.forget hr (hauth r hr) hown)
    (fun _ _ h hr hp => h.keep (Agrees.of_records hr) hp)

/-- A commit while no other connection is indexed under the key. The record may be gone. -/
theorem Impl.PkOwned.commit (h : st.PkOwned) {id : Nat} {r : ConnectionRecord}
    (hr : ∀ r', st.find id = some r' → r' = r) (hs : Noise.HandshakeState)
    (hd : st.isDuplicate id r = false) : (st.commitSession env id r hs).PkOwned := by
  have hfree : ∀ owner, st.pkIndex.lookup r.pkHex = some owner → owner = id := by
    intro owner hl
    simpa [isDuplicate,hl] using hd
  intro j r' hr' he
  rw [commitSession_pk]
  by_cases hj : j = id
  · subst hj
    obtain ⟨r₀,hr₀,⟨_,rfl⟩ | ⟨hne,_⟩⟩ := Impl.find_modify_some hr'
    · rw [hr r₀ hr₀]
      exact AList.lookup_insert _
    · exact absurd rfl hne
  · rw [commitSession_find_ne r hs hj] at hr'
    have hentry := h j r' hr' he
    have hk : r'.pkHex ≠ r.pkHex := by
      intro hk
      rw [hk] at hentry
      exact hj (hfree j hentry)
    rw [AList.lookup_insert_ne hk]
    exact hentry

theorem Impl.PkSound.commit (h : st.PkSound) {id : Nat} {r : ConnectionRecord}
    {hs : Noise.HandshakeState} (hr : st.find id = some r) (hpending : r.established = false)
    (hd : st.isDuplicate id r = false) : (st.commitSession env id r hs).PkSound := by
  have hsame : ∀ r', st.find id = some r' → r' = r := by
    intro r' hr'
    rw [hr] at hr'
    exact (Option.some.inj hr').symm
  refine ⟨Impl.PkOwned.commit h.owned hsame hs hd,fun key j hl => ?_⟩
  rw [commitSession_pk] at hl
  by_cases hk : key = r.pkHex
  · subst hk
    rw [AList.lookup_insert] at hl
    cases hl
    exact ⟨_,commitSession_find hr,rfl,rfl⟩
  · rw [AList.lookup_insert_ne hk] at hl
    obtain ⟨r',hr',he,hk'⟩ := h.live key j hl
    have hj : j ≠ id := by
      intro hj
      subst hj
      rw [hr] at hr'
      cases hr'
      rw [hpending] at he
      cases he
    exact ⟨r',(commitSession_find_ne r hs hj).trans hr',he,hk'⟩

theorem Micro.pkSound (h : Micro env st st') (hc : ∀ e ∈ st'.log, e.keepsPk = true)
    (hs : st.SoundRecords env.sodium) (hi : st.PkSound) : st'.PkSound := by
  cases h with
  | silent h => exact hi.keep (h.agrees (fun r => rfl)) h.pk
  | @frame id msgType payload h =>
    have hq := st.sendFrame_outward env id msgType payload
    exact hi.keep (hq.agrees (fun r => rfl)) hq.pk
  | direct msgType h => exact hi.keep (Impl.Agrees.of_records rfl) rfl
  | connect ep =>
    refine hi.edit st.nextId (st.openConnection_same env ep).2.2.1
      (fun j hj => Impl.openConnection_find_ne hj) (fun r hr => ?_) (fun r' hr' => ?_)
    · exact absurd (hs.fresh _ r hr) (Nat.lt_irrefl _)
    · rcases Impl.openConnection_find hr' with ⟨hj,_⟩ | ⟨_,_,rfl⟩ | ⟨_,_,rfl⟩
      · exact absurd rfl hj
      · rfl
      · rfl
  | attach ep scheme h he =>
    exact hi.keep (Impl.attachTransport_agrees _ ep scheme (fun r paths => rfl)) rfl
  | disconnect id =>
    obtain ⟨new,hl,_⟩ := st.handleDisconnect_log id
    refine hi.disconnect id (fun r hr he => ((hs.record id r hr).settled he).1) (hc _ ?_)
    rw [hl]
    exact List.mem_append_right new List.mem_cons_self
  | @duplicate id r h =>
    refine hi.edit id rfl (fun j hj => AList.lookup_erase_ne hj) (fun r' hr' => ?_)
      (fun r' hr' => absurd rfl (Impl.find_erase_some rfl hr').1)
    obtain ⟨hs₁,hh⟩ := Option.isSome_iff_exists.mp (h r' hr').1
    exact (hs.record id r' hr').pending hh
  | read msg h => exact hi.keep (Impl.readNoise_agrees _ _ _ _ _ (fun r hs => rfl)) rfl
  | write payload h hl hok hk =>
    exact hi.keep (Impl.writeNoise_agrees _ _ _ (fun r hs => rfl)) rfl
  | @authenticate id hs₁ hp schemes h hrs =>
    obtain ⟨r,hr,hh⟩ := Option.bind_eq_some_iff.mp h
    have hpending := (hs.record id r hr).pending hh
    refine hi.edit id rfl (fun j hj => ?_) (fun r₀ hr₀ => ?_) (fun r' hr' => ?_)
    · rw [Impl.find_modify,if_neg hj]
    · rw [hr] at hr₀
      cases hr₀
      exact hpending
    · obtain ⟨_,_,hst,_⟩ := st.authenticate_keeps hp schemes r
      rw [Impl.find_modify_self,hr,Option.map_some] at hr'
      cases hr'
      rw [ConnectionRecord.established,hst]
      exact hpending
  | @commit id r hs₁ h hh ha hd hf =>
    exact hi.commit h ((hs.record id r h).pending hh) hd
  | rekey id =>
    have hk : Impl.Agrees ConnectionRecord.indexKey st (st.rekeySession env id).1 :=
      Impl.rekeySession_agrees id (fun r s n => rfl)
    rcases st.rekeySession_cases env id with h | ⟨r,s,_,_,_,h⟩
    · exact hi.keep hk (congrArg (fun st => st.pkIndex) h)
    · exact hi.keep hk (congrArg (fun st => st.pkIndex) h)
  | refuse h he ho =>
    exact hi.keep (Impl.openPayload_agrees ho (fun r s => rfl)) (Impl.openPayload_same ho).2.2.1
  | receive sink h he ho =>
    have hopen := hi.keep (Impl.openPayload_agrees ho (fun r s => rfl))
      (Impl.openPayload_same ho).2.2.1
    exact hopen.keep (Impl.Agrees.of_records rfl) rfl

end

/-- In a run where no authenticated record takes another connection's entry with it, the
index and the established connections match throughout. -/
theorem pk_index_matches (env : Env) (identity : NodeIdentity) (calls : List Call)
    (hc : ∀ e ∈ ((Impl.start identity).run env calls).log, e.keepsPk = true) :
    ((Impl.start identity).run env calls).PkSound := by
  have hstart : (Impl.start identity).SoundRecords env.sodium ∧ (Impl.start identity).PkSound :=
    ⟨start_sound env identity,fun id r hr => by simp [Impl.start,Impl.find] at hr,
      fun key id hk => by simp [Impl.start] at hk⟩
  have hrun := Impl.run_invariant (I := fun st : Impl => st.SoundRecords env.sodium ∧ st.PkSound)
    hstart (fun _ _ h hc hi => ⟨h.sound hi.1,h.pkSound hc hi.1 hi.2⟩)
    (fun st id bytes hi => ⟨hi.1.buffer id bytes,
      hi.2.keep (st.setRecvBuf_agrees id bytes (fun _ _ => rfl)) rfl⟩) calls hc
  exact hrun.2

/-- A second connection comes and goes before it says anything. -/
def bobIsVisited : List Call := bobConfirms ++
  [.event (.connected (Endpoint.sample "c" 0)),.event (.disconnected 2)]

set_option maxRecDepth 10000 in
theorem pk_index_matches_visit :
    ∃ r, ((Impl.start NodeIdentity.bob).run (Env.sample false) bobIsVisited).find 1 = some r ∧
      r.established = true ∧ ((Impl.start NodeIdentity.bob).run (Env.sample false)
        bobIsVisited).pkIndex.lookup r.pkHex = some 1 := by
  have hest : (((Impl.start NodeIdentity.bob).run (Env.sample false) bobIsVisited).find 1).any
      ConnectionRecord.established = true := by decide +kernel
  obtain ⟨r,hr,he⟩ := (Option.any_eq_true _ _).mp hest
  exact ⟨r,hr,he,(pk_index_matches (Env.sample false) NodeIdentity.bob bobIsVisited
    (by decide +kernel)).owned 1 r hr he⟩

/-- The same peer connects once more and runs its handshake to the end, over a connector
that reports a close before `close_now` returns. -/
def bobMeetsAgain : List Call := bobConfirms ++
  [.event (.connected (Endpoint.sample "a2" 0)),
    .frame 2 msgTypeNoiseInit 0
      ((Impl.start NodeIdentity.alice).run (Env.sample true) aliceOpens).lastSent]

def bobRejects : List Call := bobMeetsAgain ++
  [.frame 2 msgTypeNoiseFin 0 ((Impl.start NodeIdentity.alice).run (Env.sample true)
    (aliceOpens ++ [.frame 1 msgTypeNoiseResp 0
      ((Impl.start NodeIdentity.bob).run (Env.sample true) bobMeetsAgain).lastSent])).lastSent]

set_option maxRecDepth 10000 in
/-- The duplicate is turned away and takes the entry of the first connection with it. -/
theorem duplicate_erases_entry :
    ∃ r, ((Impl.start NodeIdentity.bob).run (Env.sample true) bobRejects).find 1 = some r ∧
      r.established = true ∧
      ((Impl.start NodeIdentity.bob).run (Env.sample true) bobRejects).pkIndex.lookup r.pkHex =
        none ∧
      ¬((Impl.start NodeIdentity.bob).run (Env.sample true) bobRejects).PkSound := by
  have hbad : (((Impl.start NodeIdentity.bob).run (Env.sample true) bobRejects).find 1).any
      (fun r => r.established && (((Impl.start NodeIdentity.bob).run (Env.sample true)
        bobRejects).pkIndex.lookup r.pkHex).isNone) = true := by decide +kernel
  obtain ⟨r,hr,hp⟩ := (Option.any_eq_true _ _).mp hbad
  simp only [Bool.and_eq_true,Option.isNone_iff_eq_none] at hp
  obtain ⟨he,hnone⟩ := hp
  refine ⟨r,hr,he,hnone,fun hsound => ?_⟩
  have hentry := hsound.owned 1 r hr he
  rw [hnone] at hentry
  cases hentry

end GoodNet
