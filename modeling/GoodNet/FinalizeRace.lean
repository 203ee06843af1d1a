import GoodNet.PkIndex
import GoodNet.Lib.Interleaving
set_option autoImplicit false

/-! `finalize_handshake` on several connections at once. The check for a duplicate and the
commit are two critical sections under two locks, so other calls, among them the commits of
other handshakes, may come in between. -/

namespace GoodNet
open Codec Interleaving History

/-- `handle_noise_resp` up to its call of `finalize_handshake`; `true` when it gets there. -/
def Impl.respTaken (env : Env) (st : Impl) (id : Nat) (payload : Bytes) : Impl × Bool :=
  match st.handshakeAs id true with
  | none => (st,false)
  | some hs =>
    let d := st.readNoise env id .resp hs payload payload.length
    if !d.2.ok then ((d.1.emit (.drop id .authFail)).closeNow env id,false)
    else
      let p := d.1.processHandshakePayload env id d.2.payloadOut
      if !p.2 then (p.1.closeNow env id,false)
      else
        let w := p.1.writeNoise env id d.2.state (p.1.buildHandshakePayload env)
        if !w.2.ok then (w.1.closeNow env id,false)
        else (w.1.sendFrame env id msgTypeNoiseFin w.2.out,true)

/-- The same of `handle_noise_fin`. -/
def Impl.finTaken (env : Env) (st : Impl) (id : Nat) (payload : Bytes) : Impl × Bool :=
  match st.handshakeAs id false with
  | none => (st,false)
  | some hs =>
    let d := st.readNoise env id .fin hs payload payload.length
    if !d.2.ok then ((d.1.emit (.drop id .authFail)).closeNow env id,false)
    else
      let p := d.1.processHandshakePayload env id d.2.payloadOut
      if !p.2 then (p.1.closeNow env id,false) else (p.1,true)

/-- The manager and the calls of `finalize_handshake` in progress: `entering` those before the
check, `checked` those between check and commit, with the record they hold. -/
structure Finalizing where
  st : Impl
  entering : List Nat := []
  checked : List (Nat × ConnectionRecord) := []

inductive FinalizeStep where
  | call (c : Call)
  | resp (id : Nat) (payload : Bytes)
  | fin (id : Nat) (payload : Bytes)
  | check (id : Nat)
  | commit (id : Nat)

def Finalizing.taken (f : Finalizing) (id : Nat) (d : Impl × Bool) : Finalizing :=
  { f with st := d.1, entering := if d.2 then id :: f.entering else f.entering }

/-- The record a call holds is the one in the table as long as that is there. -/
def Impl.held (st : Impl) (id : Nat) (r : ConnectionRecord) : ConnectionRecord :=
  (st.find id).getD r

def Finalizing.act (env : Env) (f : Finalizing) : FinalizeStep → Finalizing
  | .call c => { f with st := c.step env f.st }
  | .resp id payload => f.taken id (f.st.respTaken env id payload)
  | .fin id payload => f.taken id (f.st.finTaken env id payload)
  | .check id =>
    if id ∈ f.entering then
      let f := { f with entering := f.entering.erase id }
      match f.st.find id with
      | none => f
      | some r =>
        if r.handshake.isNone then f
        else if f.st.isDuplicate id r then { f with st := f.st.rejectDuplicate env id r }
        else { f with checked := (id,r) :: f.checked }
    else f
  | .commit id =>
    match pick (fun c => c.1 == id) f.checked with
    | none => f
    | some (c,rest) =>
      match (f.st.held id c.2).handshake with
      -- a second call on one connection, which finds the handshake gone
      | none => { f with checked := rest }
      | some hs =>
        { f with st := f.st.completeHandshake env id (f.st.held id c.2) hs, checked := rest }

def Finalizing.run (env : Env) (f : Finalizing) (steps : List FinalizeStep) : Finalizing :=
  Interleaving.run (Finalizing.act env) f steps

/-- Each peer has at most one established connection, and it is the one indexed. -/
structure Impl.OnePerPeer (st : Impl) : Prop where
  named : ∀ id r, st.find id = some r → r.established = true → st.pkIndex.lookup r.pkHex = some id
  single : ∀ id r id' r', st.find id = some r → r.established = true → st.find id' = some r' →
    r'.established = true → r'.peerUserPubkey = r.peerUserPubkey → id' = id

/-- At a commit there is still no other connection of the peer in the index. -/
def Finalizing.StillNew (f : Finalizing) : FinalizeStep → Prop
  | .commit id => ∀ c ∈ f.checked, c.1 = id → f.st.isDuplicate id (f.st.held id c.2) = false
  | _ => True

/-- Nor does a disconnect take the entry of another connection with it. -/
def Finalizing.Unraced (env : Env) (f : Finalizing) (a : FinalizeStep) : Prop :=
  f.StillNew a ∧ ∀ e ∈ (f.act env a).st.log, e.keepsPk = true

instance (f : Finalizing) : (a : FinalizeStep) → Decidable (f.StillNew a)
  | .commit id => inferInstanceAs (Decidable (∀ c ∈ f.checked, c.1 = id →
      f.st.isDuplicate id (f.st.held id c.2) = false))
  | .call _ | .resp .. | .fin .. | .check _ => inferInstanceAs (Decidable True)

instance (env : Env) (f : Finalizing) (a : FinalizeStep) : Decidable (f.Unraced env a) :=
  inferInstanceAs (Decidable (f.StillNew a ∧ ∀ e ∈ (f.act env a).st.log, e.keepsPk = true))

def ConnectionRecord.settling (r : ConnectionRecord) : ConnState × Bool :=
  (r.state,r.handshake.isSome)

section
variable {env : Env} {st st' : Impl}

theorem Impl.Unsettled.keep (h : st.Unsettled) (hk : Impl.Keeps ConnectionRecord.settling st st') :
    st'.Unsettled := by
  intro id r' hr' hh
  obtain ⟨r,hr,hs⟩ := hk id r' hr'
  obtain ⟨h1,h2⟩ := Prod.mk.inj hs
  have hbefore := h id r hr (h2.symm.trans hh)
  rw [ConnectionRecord.established] at hbefore ⊢
  rw [h1]
  exact hbefore

theorem Impl.Unsettled.commit (h : st.Unsettled) (id : Nat) (r : ConnectionRecord)
    (hs : Noise.HandshakeState) : (st.commitSession env id r hs).Unsettled := by
  intro j r' hr' hh
  obtain ⟨r₀,hr₀,⟨_,rfl⟩ | ⟨_,rfl⟩⟩ := Impl.find_modify_some hr'
  · cases hh
  · exact h j r' hr₀ hh

theorem Micro.unsettled (h : Micro env st st') (hi : st.Unsettled) : st'.Unsettled := by
  cases h with
  | silent h => exact hi.keep (h.agrees (fun r => rfl)).keeps
  | @frame id msgType payload h =>
    exact hi.keep ((st.sendFrame_outward env id msgType payload).agrees (fun r => rfl)).keeps
  | direct msgType h => exact hi.keep (Impl.Keeps.of_records rfl)
  | connect ep =>
    intro id r hr hh
    rcases Impl.openConnection_find hr with ⟨_,hr⟩ | ⟨rfl,_,rfl⟩ | ⟨rfl,_,rfl⟩
    · exact hi id r hr hh
    · rfl
    · rfl
  | attach ep scheme h he =>
    exact hi.keep (Impl.attachTransport_agrees _ ep scheme (fun r paths => rfl)).keeps
  | disconnect id => exact hi.keep (st.handleDisconnect_keeps id (fun r => rfl))
  | duplicate h => exact hi.keep (st.removeDuplicate_keeps _ _)
  | read msg h =>
    obtain ⟨r,hr,hh,_⟩ := Impl.handshakeAs_some h
    exact hi.keep (Impl.readNoise_agrees_at hr hh rfl).keeps
  | write payload h hl hok hk =>
    obtain ⟨r,hr,hh⟩ := Option.bind_eq_some_iff.mp h
    exact hi.keep (Impl.writeNoise_agrees_at hr hh rfl).keeps
  | @authenticate id hs hp schemes h hrs =>
    intro j r' hr' hh
    obtain ⟨r,hr,⟨rfl,rfl⟩ | ⟨_,rfl⟩⟩ := Impl.find_modify_some hr'
    · obtain ⟨hkeep,_,hstate,_⟩ := st.authenticate_keeps hp schemes r
      rw [hkeep] at hh
      rw [ConnectionRecord.established,hstate]
      exact hi j r hr hh
    · exact hi j r' hr hh
  | @commit id r hs h hh ha hd hf => exact hi.commit id r hs
  | rekey id =>
    exact hi.keep (Impl.rekeySession_agrees id (fun r s n => rfl)).keeps
  | refuse h he ho => exact hi.keep (Impl.openPayload_agrees ho (fun r s => rfl)).keeps
  | receive sink h he ho =>
    exact (hi.keep (Impl.openPayload_agrees ho (fun r s => rfl)).keeps).keep
      (Impl.Keeps.of_records rfl)

theorem Micro.pkOwned (h : Micro env st st') (hc : ∀ e ∈ st'.log, e.keepsPk = true)
    (hu : st.Unsettled) (hi : st.PkOwned) : st'.PkOwned := by
  cases h with
  | silent h => exact hi.keep (h.agrees (fun r => rfl)).keeps h.pk
  | @frame id msgType payload h =>
    have hq := st.sendFrame_outward env id msgType payload
    exact hi.keep (hq.agrees (fun r => rfl)).keeps hq.pk
  | direct msgType h => exact hi.keep (Impl.Keeps.of_records rfl) rfl
  | connect ep =>
    refine hi.edit st.nextId (st.openConnection_same env ep).2.2.1
      (fun j hj => Impl.openConnection_find_ne hj) (fun r' hr' => ?_)
    rcases Impl.openConnection_find hr' with ⟨hj,_⟩ | ⟨_,_,rfl⟩ | ⟨_,_,rfl⟩
    · exact absurd rfl hj
    · rfl
    · rfl
  | attach ep scheme h he =>
    exact hi.keep (Impl.attachTransport_agrees _ ep scheme (fun r paths => rfl)).keeps rfl
  | disconnect id =>
    obtain ⟨new,hl,_⟩ := st.handleDisconnect_log id
    refine hi.disconnect id (hc _ ?_)
    rw [hl]
    exact List.mem_append_right new List.mem_cons_self
  | duplicate h => exact hi.keep (st.removeDuplicate_keeps _ _) rfl
  | read msg h => exact hi.keep (Impl.readNoise_agrees _ _ _ _ _ (fun r hs => rfl)).keeps rfl
  | write payload h hl hok hk =>
    exact hi.keep (Impl.writeNoise_agrees _ _ _ (fun r hs => rfl)).keeps rfl
  | @authenticate id hs₁ hp schemes h hrs =>
    obtain ⟨r,hr,hh⟩ := Option.bind_eq_some_iff.mp h
    have hpending := hu id r hr (by simp [hh])
    refine hi.edit id rfl (fun j hj => ?_) (fun r' hr' => ?_)
    · rw [Impl.find_modify,if_neg hj]
    · obtain ⟨_,_,hst,_⟩ := st.authenticate_keeps hp schemes r
      rw [Impl.find_modify_self,hr,Option.map_some] at hr'
      cases hr'
      rw [ConnectionRecord.established,hst]
      exact hpending
  | @commit id r hs₁ h hh ha hd hf =>
    refine hi.commit (fun r' hr' => ?_) hs₁ hd
    rw [h] at hr'
    exact (Option.some.inj hr').symm
  | rekey id =>
    have hk : Impl.Keeps ConnectionRecord.indexKey st (st.rekeySession env id).1 :=
      (Impl.rekeySession_agrees id (fun r s n => rfl)).keeps
    rcases st.rekeySession_cases env id with h | ⟨r,s,_,_,_,h⟩
    · exact hi.keep hk (congrArg (fun st => st.pkIndex) h)
    · exact hi.keep hk (congrArg (fun st => st.pkIndex) h)
  | refuse h he ho =>
    exact hi.keep (Impl.openPayload_agrees ho (fun r s => rfl)).keeps (Impl.openPayload_same ho).2.2.1
  | receive sink h he ho =>
    have hopen := hi.keep (Impl.openPayload_agrees ho (fun r s => rfl)).keeps
      (Impl.openPayload_same ho).2.2.1
    exact hopen.keep (Impl.Keeps.of_records rfl) rfl

theorem Impl.handleNoiseFin_taken (st : Impl) (id : Nat) (payload : Bytes) :
    st.handleNoiseFin env id payload = if (st.finTaken env id payload).2 then
      (st.finTaken env id payload).1.finalizeHandshake env id
    else (st.finTaken env id payload).1 := by
  unfold handleNoiseFin finTaken
  cases st.handshakeAs id false with
  | none => rfl
  | some hs =>
    dsimp only [afterFin]
    split
    · rfl
    · split
      · rfl
      · rfl

theorem Impl.handleNoiseResp_taken (st : Impl) (id : Nat) (payload : Bytes) :
    st.handleNoiseResp env id payload = if (st.respTaken env id payload).2 then
      (st.respTaken env id payload).1.finalizeHandshake env id
    else (st.respTaken env id payload).1 := by
  unfold handleNoiseResp respTaken
  cases st.handshakeAs id true with
  | none => rfl
  | some hs =>
    dsimp only [afterResp]
    split
    · rfl
    · split
      · rfl
      · split
        · rfl
        · rfl

/-- Check and commit with nothing in between are `finalize_handshake`. -/
theorem Finalizing.finalize_alone (st : Impl) (id : Nat) :
    Finalizing.run env { st := st, entering := [id] } [.check id,.commit id] =
      { st := st.finalizeHandshake env id } := by
  simp only [run,Interleaving.run,List.foldl_cons,List.foldl_nil,act,List.mem_singleton,ite_true,
    List.erase_cons_head,Impl.finalizeHandshake]
  cases hr : st.find id with
  | none => simp [pick]
  | some r =>
    cases hh : r.handshake with
    | none => simp [pick,hh]
    | some hs =>
      cases hd : st.isDuplicate id r with
      | true => simp [pick,hh,hd]
      | false => simp [pick,hh,hd,Impl.held,hr]

theorem Finalizing.fin_alone (st : Impl) (id : Nat) (payload : Bytes) :
    Finalizing.run env { st := st } [.fin id payload,.check id,.commit id] =
      { st := st.handleNoiseFin env id payload } := by
  rw [Impl.handleNoiseFin_taken]
  cases ht : (st.finTaken env id payload).2 with
  | true =>
    rw [if_pos rfl,← finalize_alone]
    simp only [run,Interleaving.run,List.foldl_cons,act,taken,ht,ite_true]
  | false => simp [run,Interleaving.run,act,taken,ht,pick]

theorem Finalizing.resp_alone (st : Impl) (id : Nat) (payload : Bytes) :
    Finalizing.run env { st := st } [.resp id payload,.check id,.commit id] =
      { st := st.handleNoiseResp env id payload } := by
  rw [Impl.handleNoiseResp_taken]
  cases ht : (st.respTaken env id payload).2 with
  | true =>
    rw [if_pos rfl,← finalize_alone]
    simp only [run,Interleaving.run,List.foldl_cons,act,taken,ht,ite_true]
  | false => simp [run,Interleaving.run,act,taken,ht,pick]

/-- What an undisturbed stretch of work preserves. -/
def Impl.Indexed (st : Impl) : Prop := st.Unsettled ∧ st.PkOwned

theorem Steps.indexed (h : Steps env st st') (hc : ∀ e ∈ st'.log, e.keepsPk = true)
    (hi : st.Indexed) : st'.Indexed :=
  invariant_under (fun _ _ h => h.log_mono)
    (fun _ _ h hc hi => ⟨h.unsettled hi.1,h.pkOwned hc hi.1 hi.2⟩) h hi hc

theorem Call.step_indexed (c : Call) (hc : ∀ e ∈ (c.step env st).log, e.keepsPk = true)
    (hi : st.Indexed) : (c.step env st).Indexed :=
  Impl.run_invariant hi (fun _ _ h hc hi => ⟨h.unsettled hi.1,h.pkOwned hc hi.1 hi.2⟩)
    (fun st id bytes hi =>
      have hk := fun {α : Type} {f : ConnectionRecord → α} => st.setRecvBuf_agrees (f := f) id bytes
      ⟨hi.1.keep (hk (fun _ _ => rfl)).keeps,hi.2.keep (hk (fun _ _ => rfl)).keeps rfl⟩) [c] hc

theorem Impl.finTaken_steps (st : Impl) (id : Nat) (payload : Bytes) :
    Steps env st (st.finTaken env id payload).1 := by
  unfold finTaken
  split
  · exact Relation.ReflTransGen.refl
  · rename_i hs hh
    obtain ⟨r,hr,_,_⟩ := handshakeAs_some hh
    have hread : Steps env st (st.readNoise env id .fin hs payload payload.length).1 :=
      Steps.one (Micro.read payload hh)
    dsimp only
    split
    · exact hread.trans ((Steps.report _ rfl).trans (closeNow_steps _ id))
    · split
      · rename_i hp
        exact hread.trans ((processHandshakePayload_failed (by simpa using hp)).trans
          (closeNow_steps _ id))
      · rename_i hp
        exact hread.trans (processHandshakePayload_ok (readNoise_find hr) rfl (by simpa using hp)).1

theorem Impl.respTaken_steps (st : Impl) (id : Nat) (payload : Bytes) :
    Steps env st (st.respTaken env id payload).1 := by
  unfold respTaken
  split
  · exact Relation.ReflTransGen.refl
  · rename_i hs hh
    obtain ⟨r,hr,_,_⟩ := handshakeAs_some hh
    have hread : Steps env st (st.readNoise env id .resp hs payload payload.length).1 :=
      Steps.one (Micro.read payload hh)
    dsimp only
    split
    · exact hread.trans ((Steps.report _ rfl).trans (closeNow_steps _ id))
    · rename_i hok
      split
      · rename_i hp
        exact hread.trans ((processHandshakePayload_failed (by simpa using hp)).trans
          (closeNow_steps _ id))
      · rename_i hp
        obtain ⟨hauth,hsame,r',hr',hh',_⟩ := processHandshakePayload_ok (readNoise_find hr) rfl
          (by simpa using hp)
        have hlog : _ ∈ (st.readNoise env id .resp hs payload payload.length).1.log :=
          readNoise_log st id .resp hs payload payload.length
        rw [← hsame] at hlog
        have hwrite := fun out => hauth.trans (Steps.one (Micro.write out (by rw [hr']; exact hh')
          hlog (by simpa using hok) (by decide)))
        split
        · exact hread.trans ((hwrite _).trans (closeNow_steps _ id))
        · exact hread.trans ((hwrite _).trans (Steps.one (Micro.frame _ (Or.inl rfl))))

/-- A commit with no other connection of the peer in the index, whatever came before it. -/
theorem Impl.Indexed.complete (h : st.Indexed) {id : Nat} {r : ConnectionRecord}
    (hr : ∀ r', st.find id = some r' → r' = r) (hs : Noise.HandshakeState)
    (hd : st.isDuplicate id r = false)
    (hc : ∀ e ∈ (st.completeHandshake env id r hs).log, e.keepsPk = true) :
    (st.completeHandshake env id r hs).Indexed := by
  have hup : ∀ r', (st.commitSession env id r hs).find id = some r' → r'.established = true := by
    intro r' hr'
    obtain ⟨r₀,_,⟨_,rfl⟩ | ⟨hne,_⟩⟩ := find_modify_some hr'
    · rfl
    · exact absurd rfl hne
  exact (afterCommit_steps hup).indexed hc ⟨h.1.commit id r hs,h.2.commit hr hs hd⟩

theorem Finalizing.act_indexed {f : Finalizing} {a : FinalizeStep} (ha : f.Unraced env a)
    (hi : f.st.Indexed) : (f.act env a).st.Indexed := by
  obtain ⟨hrace,hc⟩ := ha
  cases a with
  | call c => exact Call.step_indexed c hc hi
  | resp id payload => exact (f.st.respTaken_steps id payload).indexed hc hi
  | fin id payload => exact (f.st.finTaken_steps id payload).indexed hc hi
  | check id =>
    simp only [act] at hc ⊢
    split
    · rename_i hin
      rw [if_pos hin] at hc
      split
      · exact hi
      · rename_i r hr
        simp only [hr] at hc
        split
        · exact hi
        · rename_i hh
          rw [if_neg hh] at hc
          split
          · rename_i hd
            rw [if_pos hd] at hc
            have hsome : r.handshake.isSome = true := by
              rw [Option.isSome_iff_ne_none]
              simpa using hh
            exact (Impl.rejectDuplicate_steps hr hsome).indexed hc hi
          · exact hi
    · exact hi
  | commit id =>
    simp only [act] at hc ⊢
    split
    · exact hi
    · rename_i c rest hpick
      obtain ⟨hid,l₁,l₂,hl,rfl⟩ := pick_some hpick
      simp only [hpick] at hc
      split
      · exact hi
      · rename_i hs hh
        simp only [hh] at hc
        refine hi.complete (fun r' hr' => ?_) hs ?_ hc
        · simp [Impl.held,hr']
        · exact hrace c (by simp [hl]) (by simpa using hid)

theorem Impl.PkOwned.onePerPeer (h : st.PkOwned) : st.OnePerPeer := by
  refine ⟨h,fun id r id' r' hr he hr' he' hk => ?_⟩
  have hkey : r'.pkHex = r.pkHex := by rw [ConnectionRecord.pkHex,ConnectionRecord.pkHex,hk]
  have hentry := h id' r' hr' he'
  rw [hkey,h id r hr he] at hentry
  exact (Option.some.inj hentry).symm

end

/-- In every run in which no commit finds another connection of its peer in the index and no
disconnect takes the entry of another connection with it, each peer has at most one
established connection, the one indexed. -/
theorem one_connection_per_peer (env : Env) (identity : NodeIdentity) (steps : List FinalizeStep)
    (h : Along (Finalizing.act env) (Finalizing.Unraced env) { st := Impl.start identity } steps) :
    (Finalizing.run env { st := Impl.start identity } steps).st.OnePerPeer := by
  have hstart : (Impl.start identity).Indexed :=
    ⟨fun id r hr => by simp [Impl.start,Impl.find] at hr,
      fun id r hr => by simp [Impl.start,Impl.find] at hr⟩
  have hrun : (Finalizing.run env { st := Impl.start identity } steps).st.Indexed :=
    h.invariant (I := fun f => f.st.Indexed) (fun _ _ hi ha => Finalizing.act_indexed ha hi) hstart
  exact hrun.2.onePerPeer

/-- The same peer connects twice and both responses are on their way. -/
def bobAnswersTwice : List Call := bobAnswers ++
  [.event (.connected (Endpoint.sample "a2" 0)),
    .frame 2 msgTypeNoiseInit 0
      ((Impl.start NodeIdentity.alice).run (Env.sample false) aliceOpens).lastSent]

/-- The last message of the handshake on the first connection, and on the second. -/
def firstFin : Bytes := ((Impl.start NodeIdentity.alice).run (Env.sample false) aliceConfirms).lastSent

def secondFin : Bytes :=
  ((Impl.start NodeIdentity.alice).run (Env.sample false) (aliceOpens ++
    [.frame 1 msgTypeNoiseResp 0
      ((Impl.start NodeIdentity.bob).run (Env.sample false) bobAnswersTwice).lastSent])).lastSent

/-- One handshake after the other. -/
def finalizedInTurn : List FinalizeStep := bobAnswersTwice.map .call ++
  [.fin 1 firstFin,.check 1,.commit 1,.fin 2 secondFin,.check 2,.commit 2]

/-- Both have been checked before the first is committed. -/
def finalizedTogether : List FinalizeStep := bobAnswersTwice.map .call ++
  [.fin 1 firstFin,.fin 2 secondFin,.check 1,.check 2,.commit 1,.commit 2]

/-- The connections of a node that are up. -/
def Impl.upIds (st : Impl) : List Nat := st.ids.filter st.establishedIn

set_option maxRecDepth 10000 in
theorem one_connection_per_peer_in_turn :
    (Finalizing.run (Env.sample false) { st := Impl.start NodeIdentity.bob }
      finalizedInTurn).st.OnePerPeer ∧
    (Finalizing.run (Env.sample false) { st := Impl.start NodeIdentity.bob }
      finalizedInTurn).st.upIds = [1] := by
  obtain ⟨hunraced,hup⟩ : Along (Finalizing.act (Env.sample false))
        (Finalizing.Unraced (Env.sample false)) { st := Impl.start NodeIdentity.bob }
        finalizedInTurn ∧
      (Finalizing.run (Env.sample false) { st := Impl.start NodeIdentity.bob }
        finalizedInTurn).st.upIds = [1] := by
    decide +kernel
  exact ⟨one_connection_per_peer (Env.sample false) NodeIdentity.bob finalizedInTurn hunraced,hup⟩

set_option maxRecDepth 10000 in
/-- Both connections of one peer are established, and the index names only the second. -/
theorem raced_commits_both_established :
    ¬ (Finalizing.run (Env.sample false) { st := Impl.start NodeIdentity.bob }
      finalizedTogether).st.OnePerPeer := by
  intro h
  have hboth : ((Finalizing.run (Env.sample false) { st := Impl.start NodeIdentity.bob }
      finalizedTogether).st.find 1).any (fun r => r.established &&
        ((Finalizing.run (Env.sample false) { st := Impl.start NodeIdentity.bob }
          finalizedTogether).st.find 2).any (fun r' => r'.established &&
            decide (r'.peerUserPubkey = r.peerUserPubkey))) = true := by decide +kernel
  obtain ⟨r,hr,hp⟩ := (Option.any_eq_true _ _).mp hboth
  simp only [Bool.and_eq_true] at hp
  obtain ⟨r',hr',hp'⟩ := (Option.any_eq_true _ _).mp hp.2
  simp only [Bool.and_eq_true,decide_eq_true_eq] at hp'
  exact absurd (h.single 1 r 2 r' hr hp.1 hr' hp'.1 hp'.2) (by decide)

end GoodNet
