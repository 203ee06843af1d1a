import GoodNet.PendingTickets
set_option autoImplicit false

/-! What becomes of the messages that wait for a connection: what each step of the manager
needs so that no message is left behind, doubled or overtaken, and what follows for a run. -/

namespace GoodNet
open Codec Interleaving

namespace UriTraffic

/-- A message is queued only while no connection opened for its URI is up and past the point
where its queue is taken, and sent at once only when none for the URI waits or is being flushed.
A flush takes the messages for the URI of its connection and no others, and each of them fits.
A disconnect finds messages only for its own URI, which has no other connection. -/
def Punctual (env : Env) (s : UriTraffic) : UriStep → Prop
  | .append thread => ∀ c ∈ s.calls, c.thread = thread → ∀ e ∈ s.opened.entries, e.2 = c.uri →
      s.st.establishedIn e.1 = true → ∃ f ∈ s.flushes, f.id = e.1 ∧ f.taken = false
  | .direct thread => ∀ c ∈ s.calls, c.thread = thread → (∀ t ∈ s.waiting, t.uri ≠ c.uri) ∧
      ∀ f ∈ s.flushes, (s.st.find f.id).isSome = true → ∀ t ∈ f.tickets, t.uri ≠ c.uri
  | .take id => ∀ f ∈ s.flushes, f.id = id → ∀ t ∈ s.waiting,
      (t.key = f.key ↔ s.opened.lookup id = some t.uri)
  | .sendNext id => ∀ f ∈ s.flushes, f.id = id → ∀ m ∈ f.messages.take 1,
      (s.st.find id).isSome = true → s.st.Fits env {} id m.msgType m.payload
  | .disconnected id => ∀ t ∈ s.waiting,
      (s.st.find id).map (fun r => r.remote.key) = some t.key → s.soleFor id t.uri = true
  | _ => True

theorem fits_iff (env : Env) (m : Meddling) (st : Impl) (id : Nat) (msgType : UInt32)
    (part : Bytes) : ((m.before st).shuttingDown = false ∧ ((m.before st).find id).any (fun r =>
      decide (((m.between ((m.before st).buildFrame env id msgType part).1).getOrCreateQueue
        id).2.pendingBytes+
          (r.frame env.sodium env.zstd (m.before st).compression msgType part).length ≤
            perConnMaxBytes)) = true) ↔ st.Fits env m id msgType part := by
  simp [Impl.Fits,Option.any_eq_true]

instance (env : Env) (m : Meddling) (st : Impl) (id : Nat) (msgType : UInt32) (part : Bytes) :
    Decidable (st.Fits env m id msgType part) :=
  decidable_of_iff _ (fits_iff env m st id msgType part)

instance (env : Env) (s : UriTraffic) : (a : UriStep) → Decidable (s.Punctual env a)
  | .append thread => inferInstanceAs (Decidable (∀ c ∈ s.calls, c.thread = thread →
      ∀ e ∈ s.opened.entries, e.2 = c.uri → s.st.establishedIn e.1 = true →
        ∃ f ∈ s.flushes, f.id = e.1 ∧ f.taken = false))
  | .direct thread => inferInstanceAs (Decidable (∀ c ∈ s.calls, c.thread = thread →
      (∀ t ∈ s.waiting, t.uri ≠ c.uri) ∧ ∀ f ∈ s.flushes, (s.st.find f.id).isSome = true →
        ∀ t ∈ f.tickets, t.uri ≠ c.uri))
  | .take id => inferInstanceAs (Decidable (∀ f ∈ s.flushes, f.id = id → ∀ t ∈ s.waiting,
      (t.key = f.key ↔ s.opened.lookup id = some t.uri)))
  | .sendNext id => inferInstanceAs (Decidable (∀ f ∈ s.flushes, f.id = id →
      ∀ m ∈ f.messages.take 1, (s.st.find id).isSome = true →
        s.st.Fits env {} id m.msgType m.payload))
  | .disconnected id => inferInstanceAs (Decidable (∀ t ∈ s.waiting,
      (s.st.find id).map (fun r => r.remote.key) = some t.key → s.soleFor id t.uri = true))
  | .check .. | .connected .. | .frame .. | .noise .. | .authenticated .. | .finalize _
  | .remove _ | .expire .. => inferInstanceAs (Decidable True)

/-- The tickets that wait are those of the messages in `pending_messages_`. -/
def Shown (s : UriTraffic) : Prop :=
  ∀ key, s.st.pendingFor key = (s.waitingFor key).map Ticket.message

structure Kept (s : UriTraffic) : Prop where
  ranked : s.Ranked
  shown : s.Shown

section
variable {env : Env} {s : UriTraffic} {st' : Impl}

/-- A step that lets the pending messages alone too. -/
theorem Kept.calm (h : s.Kept) (hc : Impl.Calm s.st st') : Kept { s with st := st' } :=
  ⟨h.ranked.keep hc.keeps hc.nextId,fun key => (hc.pending key).trans (h.shown key)⟩

/-- The queue under a key is filtered with its tickets. -/
theorem shown_filter (p : Ticket → Bool)
    (hp : ∀ key, st'.pendingFor key = ((s.waitingFor key).filter p).map Ticket.message) :
    Shown { s with st := st', waiting := s.waiting.filter p } := by
  intro key
  rw [hp]
  simp only [waitingFor,List.filter_filter,Bool.and_comm]

theorem Kept.append (h : s.Kept) (c : UriCall) (hidle : ∀ id r, s.st.find id = some r →
      r.established = true → s.opened.lookup id = some c.uri →
        ∃ f ∈ s.flushes, f.id = id ∧ f.taken = false) : (s.appendCall env c).Kept := by
  have hpending := s.st.enqueuePending_pending env (uriKey c.uri) c.msgType c.payload
  obtain ⟨hkeeps,hnext⟩ := s.st.enqueuePending_keeps env (uriKey c.uri) c.msgType c.payload
  unfold appendCall
  dsimp only
  generalize s.st.enqueuePending env (uriKey c.uri) c.msgType c.payload = queued at *
  split
  · rename_i hok
    have hqueue := h.ranked.queue (t := s.issue c (env.steady s.st.asked) true) rfl rfl hidle
    refine Kept.calm (s := { s with
      st := queued.1, accepted := s.accepted ++ [s.issue c (env.steady s.st.asked) true],
      waiting := s.waiting ++ [s.issue c (env.steady s.st.asked) true] }) ⟨?_,fun key => ?_⟩
      (queued.1.requestUri_calm c.found c.uri)
    · exact hqueue.keep hkeeps hnext
    · rw [hpending,h.shown key,hok]
      simp only [waitingFor,List.filter_append,List.map_append,true_and]
      congr 1
      by_cases hk : uriKey c.uri = key
      · simp [hk,issue,Ticket.key]
      · simp [hk,issue,Ticket.key]
  · rename_i hno
    refine h.calm ⟨hkeeps,hnext,fun key => ?_⟩
    rw [hpending]
    simp [hno]

theorem Kept.direct (h : s.Kept) (c : UriCall) (id : Nat) (hw : ∀ t ∈ s.waiting, t.uri ≠ c.uri)
    (hf : ∀ f ∈ s.flushes, (s.st.find f.id).isSome = true → ∀ t ∈ f.tickets, t.uri ≠ c.uri) :
    (s.directCall env c id).Kept := by
  unfold directCall
  split
  · exact h.calm ⟨Impl.Keeps.of_records rfl,rfl,fun _ => rfl⟩
  · have hpass := h.ranked.pass id (t := s.issue c 0 false) rfl rfl hw hf
    exact Kept.calm (s := { s with accepted := _, sent := _ }) ⟨hpass _,h.shown⟩
      (s.st.sendParts_calm id c.msgType ((SendCall.byUri c.uri).parts c.payload))

theorem Kept.connect (h : s.Kept) (uri : String) (ep : Endpoint) :
    Kept { s with
      st := s.st.openConnection env ep, opened := s.opened.insert s.st.nextId uri } := by
  refine ⟨h.ranked.connect uri (s.st.openConnection_same env ep).1
    (fun id hid => Impl.openConnection_find_ne hid) (fun r hr => ?_),fun key => ?_⟩
  · rcases Impl.openConnection_find hr with ⟨hne,_⟩ | ⟨_,_,rfl⟩ | ⟨_,_,rfl⟩
    · exact absurd rfl hne
    · rfl
    · rfl
  · exact (Impl.pendingFor_congr (s.st.openConnection_pending ep) key).trans (h.shown key)

theorem Kept.commit (h : s.Kept) {id : Nat} {r : ConnectionRecord} {hs : Noise.HandshakeState}
    (hr : s.st.find id = some r) (hshake : r.handshake = some hs) :
    Kept { s with
      st := s.st.commitSession env id r hs,
      flushes := ⟨id,r.remote.key,false,[],[]⟩ :: s.flushes } := by
  refine ⟨h.ranked.commit r.remote.key hr (by rw [hshake]; rfl) rfl
    (fun j hj => Impl.commitSession_find_ne r hs hj) (Impl.commitSession_find hr) rfl rfl,h.shown⟩

theorem Kept.takeQueue (h : s.Kept) {f : PendingFlush} {rest : List PendingFlush}
    (hp : s.flushes.Perm (f :: rest)) (hearly : f.taken = false)
    (huri : ∀ t ∈ s.waiting, (t.key = f.key ↔ s.opened.lookup f.id = some t.uri)) :
    (s.takeQueue f rest).Kept := by
  have htake := (h.ranked.reorder hp).take rfl hearly huri
  have hfor : ∀ t ∈ s.waiting, t.key = f.key → t ∈ s.waitingFor f.key := by
    intro t ht hk
    exact List.mem_filter.mpr ⟨ht,by simpa using hk⟩
  have hnothing : s.st.pendingFor f.key = [] → Kept { s with flushes := rest } := by
    intro hnil
    have hnone : s.waitingFor f.key = [] := by
      rw [h.shown f.key] at hnil
      exact List.map_eq_nil_iff.mp hnil
    have hsame : s.waiting.filter (fun t => t.key != f.key) = s.waiting := by
      refine List.filter_eq_self.mpr (fun t ht => ?_)
      have hne : t.key ≠ f.key := by
        intro hk
        have hin := hfor t ht hk
        rw [hnone] at hin
        cases hin
      simpa using hne
    have hdone := htake.finish rfl rfl hnone
    rw [hsame] at hdone
    exact ⟨hdone,h.shown⟩
  unfold UriTraffic.takeQueue
  split
  · rename_i hnone
    exact hnothing (by simp [Impl.pendingFor,hnone])
  · rename_i hnil
    exact hnothing (by simp [Impl.pendingFor,hnil])
  · rename_i messages _ hsome
    have hmessages : messages = (s.waitingFor f.key).map Ticket.message := by
      rw [← h.shown f.key,Impl.pendingFor,hsome]
      rfl
    rw [hmessages]
    refine ⟨htake.keep (Impl.Keeps.of_records rfl) rfl,?_⟩
    refine shown_filter (s := { s with flushes := _ }) _ (fun key => ?_)
    rw [Impl.pendingFor_erase rfl,h.shown key]
    split
    · rename_i hk
      subst hk
      simp [waitingFor,List.filter_filter]
    · rename_i hk
      have hall : (s.waitingFor key).filter (fun t => t.key != f.key) = s.waitingFor key := by
        refine List.filter_eq_self.mpr (fun t ht => ?_)
        have hkey := (List.mem_filter.mp ht).2
        simp only [beq_iff_eq] at hkey
        simpa [hkey] using hk
      exact congrArg (List.map Ticket.message) hall.symm

theorem Kept.sendOne (h : s.Kept) {f : PendingFlush} {rest : List PendingFlush}
    (hp : s.flushes.Perm (f :: rest)) (htaken : f.taken = true)
    (hfits : ∀ m ∈ f.messages.take 1, (s.st.find f.id).isSome = true →
      s.st.Fits env {} f.id m.msgType m.payload) : (s.sendOne env f rest).Kept := by
  have hranked := h.ranked.reorder hp
  have hkept := h.ranked.flush f (hp.mem_iff.mpr List.mem_cons_self)
  have hcarried := hkept.carried
  unfold UriTraffic.sendOne
  split
  · rename_i hnil
    rw [hnil] at hcarried
    exact ⟨hranked.finish rfl htaken (List.map_eq_nil_iff.mp hcarried.symm),h.shown⟩
  · rename_i m messages hm
    rw [hm] at hcarried
    obtain ⟨t,tickets,ht,_,_⟩ := List.map_eq_cons_iff.mp hcarried.symm
    have hcalm : Impl.Calm s.st (s.st.sendPart env {} f.id m.msgType m.payload).1 := by
      rw [Impl.sendPart_alone]
      exact s.st.sendFrame_calm f.id m.msgType m.payload
    simp only [ht,List.head?_cons,List.tail_cons,Option.map_some,Option.toList_some]
    cases hr : s.st.find f.id with
    | none =>
      have hnone : (s.st.sendPart env {} f.id m.msgType m.payload).2.isSome = false := by
        simp [Impl.sendPart,hr]
      rw [hnone]
      have hdiscard := hranked.discard rfl htaken hm ht
      exact Kept.calm (s := { s with flushes := _, dropped := _ }) ⟨hdiscard,h.shown⟩ hcalm
    | some r =>
      have hsome : (s.st.sendPart env {} f.id m.msgType m.payload).2.isSome = true := by
        rcases s.st.sendPart_fits env {} f.id m.msgType m.payload with ⟨⟨p,hpushed,_⟩,_⟩ | ⟨_,hnot⟩
        · rw [hpushed]
          rfl
        · exact absurd (hfits m (by rw [hm]; simp) (by rw [hr]; rfl)) hnot
      rw [hsome]
      have hforward := hranked.forward rfl htaken hm ht hr
      exact Kept.calm (s := { s with flushes := _, sent := _ }) ⟨hforward,h.shown⟩ hcalm

/-- A ticket that waits has a queue. -/
theorem Kept.queue_there (h : s.Kept) {t : Ticket} (ht : t ∈ s.waiting) :
    (s.st.pendingMessages.lookup t.key).isSome = true := by
  have hshown := h.shown t.key
  cases hl : s.st.pendingMessages.lookup t.key with
  | some queue => rfl
  | none =>
    have hin : t ∈ s.waitingFor t.key := List.mem_filter.mpr ⟨ht,by simp⟩
    rw [Impl.pendingFor,hl] at hshown
    rw [List.map_eq_nil_iff.mp hshown.symm] at hin
    cases hin

/-- The queue that a disconnect takes is the one under the address of the connection. -/
theorem Kept.queue_gone (h : s.Kept) {id : Nat} {t : Ticket} (ht : t ∈ s.waiting)
    (hgone : (s.st.handleDisconnect id).pendingMessages.lookup t.key = none) :
    (s.st.find id).map (fun r => r.remote.key) = some t.key := by
  have hthere := h.queue_there ht
  rcases s.st.handleDisconnect_pending id with hp | ⟨r,hr,hp⟩
  · rw [hp] at hgone
    rw [hgone] at hthere
    cases hthere
  · by_cases hk : t.key = r.remote.key
    · rw [hr,Option.map_some,hk]
    · rw [hp,AList.lookup_erase_ne hk] at hgone
      rw [hgone] at hthere
      cases hthere

/-- Under every key either the whole queue is left or nothing. -/
theorem Kept.queue_left (h : s.Kept) (id : Nat) (key : String) :
    (s.st.handleDisconnect id).pendingFor key = ((s.waitingFor key).filter (fun t =>
      ((s.st.handleDisconnect id).pendingMessages.lookup t.key).isSome)).map Ticket.message := by
  have hkey : ∀ t ∈ s.waitingFor key, t.key = key :=
    fun t ht => beq_iff_eq.mp (List.mem_filter.mp ht).2
  cases hl : (s.st.handleDisconnect id).pendingMessages.lookup key with
  | none =>
    have hnil : (s.waitingFor key).filter (fun t =>
        ((s.st.handleDisconnect id).pendingMessages.lookup t.key).isSome) = [] := by
      refine List.filter_eq_nil_iff.mpr (fun t ht => ?_)
      rw [hkey t ht,hl]
      simp
    rw [hnil,Impl.pendingFor,hl]
    rfl
  | some queue =>
    have hall : (s.waitingFor key).filter (fun t =>
        ((s.st.handleDisconnect id).pendingMessages.lookup t.key).isSome) = s.waitingFor key := by
      refine List.filter_eq_self.mpr (fun t ht => ?_)
      rw [hkey t ht,hl]
      rfl
    rw [hall,← h.shown key]
    rcases s.st.handleDisconnect_pending id with hp | ⟨r,_,hp⟩
    · exact Impl.pendingFor_congr hp key
    · rw [Impl.pendingFor_erase hp]
      split
      · rename_i hk
        rw [hp,hk,AList.lookup_erase] at hl
        cases hl
      · rfl

theorem Kept.disconnect (h : s.Kept) (id : Nat) (hsole : ∀ t ∈ s.waiting,
      (s.st.find id).map (fun r => r.remote.key) = some t.key → s.soleFor id t.uri = true) :
    (s.act env (.disconnected id)).Kept := by
  have hkeeps := s.st.handleDisconnect_keeps (f := ConnectionRecord.settling) id (fun _ => rfl)
  unfold UriTraffic.act
  refine ⟨?_,?_⟩
  · refine (h.ranked.drop List.filter_sublist (fun t ht => List.mem_append_left _ ht)
      (fun t ht => ?_)).keep hkeeps (s.st.handleDisconnect_nextId id)
    cases hl : (s.st.handleDisconnect id).pendingMessages.lookup t.key with
    | some queue => exact Or.inl (List.mem_filter.mpr ⟨ht,by rw [hl]; rfl⟩)
    | none =>
      refine Or.inr (List.mem_append_right _ (List.mem_filter.mpr ⟨ht,?_⟩))
      simp only [hl,Option.isNone_none,Bool.true_and]
      exact hsole t ht (h.queue_gone ht hl)
  · exact shown_filter (s := { s with dropped := _ }) _ (fun key => h.queue_left id key)

theorem Kept.expire (h : s.Kept) (now : Nat) (key : String) :
    (s.act env (.expire now key)).Kept := by
  obtain ⟨hkeeps,hnext⟩ := s.st.expire_keeps now key
  unfold UriTraffic.act
  refine ⟨(h.ranked.drop List.filter_sublist (fun t ht => List.mem_append_left _ ht)
    (fun t ht => ?_)).keep hkeeps hnext,?_⟩
  · by_cases hgone : t.key = key ∧ ¬ now-t.message.queuedAt ≤ pendingTtl
    · refine Or.inr (List.mem_append_right _ (List.mem_filter.mpr ⟨ht,?_⟩))
      simp [hgone]
    · refine Or.inl (List.mem_filter.mpr ⟨ht,?_⟩)
      simp only [Bool.or_eq_true,bne_iff_ne,ne_eq,decide_eq_true_eq]
      tauto
  · refine shown_filter (s := { s with dropped := _ }) _ (fun k => ?_)
    rw [Impl.expire_pending]
    split
    · rename_i hk
      subst hk
      rw [h.shown k,List.filter_map]
      refine congrArg (List.map Ticket.message) (List.filter_congr (fun t ht => ?_))
      have hkey := (List.mem_filter.mp ht).2
      rw [beq_iff_eq.mp hkey]
      simp
    · rename_i hk
      rw [h.shown k]
      refine congrArg (List.map Ticket.message) (List.filter_eq_self.mpr (fun t ht => ?_)).symm
      have hkey := (List.mem_filter.mp ht).2
      rw [beq_iff_eq.mp hkey]
      simp [hk]

/-- The calls in progress are free to change. -/
theorem Kept.recall (h : s.Kept) (calls : List UriCall) (rejected : List (Nat × ConnectionRecord)) :
    Kept { s with calls := calls, rejected := rejected } :=
  ⟨⟨h.ranked.fresh,h.ranked.named,h.ranked.unsettled,
    fun f hf => (h.ranked.flush f hf).same rfl rfl rfl rfl,h.ranked.apart,h.ranked.sorted,
    h.ranked.issued,h.ranked.past,h.ranked.behind,h.ranked.idle,h.ranked.accounted,h.ranked.ordered,
    h.ranked.placed⟩,h.shown⟩

theorem Kept.act (h : s.Kept) (a : UriStep) (ha : s.Punctual env a) : (s.act env a).Kept := by
  cases a with
  | check thread uri msgType payload =>
    simp only [UriTraffic.act]
    split
    · exact h
    · split
      · exact h
      · exact h.recall _ _
  | append thread =>
    simp only [UriTraffic.act]
    split
    · exact h
    · rename_i c rest hpick
      obtain ⟨hc,hin,_⟩ := pick_perm hpick
      have hidle : ∀ id r, s.st.find id = some r → r.established = true →
          s.opened.lookup id = some c.uri → ∃ f ∈ s.flushes, f.id = id ∧ f.taken = false := by
        intro id r hr hup hopen
        refine ha c hin (by simpa using hc) ⟨id,c.uri⟩ (AList.mem_lookup_iff.mp hopen) rfl ?_
        simp [Impl.establishedIn,hr,hup]
      split
      · exact (h.recall rest s.rejected).append c hidle
      · exact (h.recall rest s.rejected).append c hidle
      · exact h
  | direct thread =>
    simp only [UriTraffic.act]
    split
    · exact h
    · rename_i c rest hpick
      obtain ⟨hc,hin,_⟩ := pick_perm hpick
      obtain ⟨hw,hf⟩ := ha c hin (by simpa using hc)
      split
      · exact h
      · exact h
      · exact (h.recall rest s.rejected).direct c _ hw hf
  | connected uri ep =>
    simp only [UriTraffic.act]
    split
    · exact h
    · exact h.connect uri ep
  | frame id msgType payload => exact h.calm (s.st.sendFrame_calm id msgType payload)
  | noise id hs => exact h.calm (s.st.withNoise_calm id hs)
  | authenticated id hp schemes => exact h.calm (s.st.authenticate_calm id hp schemes)
  | finalize id =>
    simp only [UriTraffic.act]
    split
    · exact h
    · rename_i r hr
      split
      · exact h
      · rename_i hs hshake
        split
        · exact h.recall _ _
        · exact h.commit hr hshake
  | remove id =>
    simp only [UriTraffic.act]
    split
    · exact h
    · rename_i c rest _
      exact (h.recall s.calls rest).calm (s.st.removeDuplicate_calm id c.2)
  | take id =>
    simp only [UriTraffic.act]
    split
    · exact h
    · rename_i f rest hpick
      obtain ⟨hf,hin,hperm⟩ := pick_perm hpick
      simp only [Bool.and_eq_true,beq_iff_eq,Bool.not_eq_true'] at hf
      obtain ⟨rfl,hearly⟩ := hf
      exact h.takeQueue hperm hearly (ha f hin rfl)
  | sendNext id =>
    simp only [UriTraffic.act]
    split
    · exact h
    · rename_i f rest hpick
      obtain ⟨hf,hin,hperm⟩ := pick_perm hpick
      simp only [Bool.and_eq_true,beq_iff_eq] at hf
      obtain ⟨rfl,htaken⟩ := hf
      exact h.sendOne hperm htaken (ha f hin rfl)
  | disconnected id => exact h.disconnect id ha
  | expire now key => exact h.expire now key

end

/-- A manager without connections and with nothing pending. -/
theorem Kept.start {st : Impl} (hr : st.records = ∅) (hp : st.pendingMessages = ∅) :
    Kept { st := st } := by
  have hfind : ∀ id, st.find id = none := by
    intro id
    rw [Impl.find,hr]
    rfl
  refine ⟨⟨fun id r hr => ?_,fun id r hr => ?_,fun id r hr => ?_,fun f hf => (by cases hf),.nil,.nil,
    fun t ht => (by cases ht),fun e he => (by cases he),fun e he => (by cases he),
    fun id r uri hr => ?_,fun t ht => (by cases ht),.nil,fun e he => (by cases he)⟩,fun key => ?_⟩
  · cases (hfind id).symm.trans hr
  · cases (hfind id).symm.trans hr
  · cases (hfind id).symm.trans hr
  · cases (hfind id).symm.trans hr
  · rw [Impl.pendingFor,hp]
    rfl

end UriTraffic

/-- In every run in which no message is queued or sent out of turn, every flush takes the
messages for the URI of its connection and each of them fits, and a disconnect finds messages
only for its own URI, the messages that wait for a connection are sent on it once and in
order. -/
theorem pending_delivered (env : Env) {st : Impl} (hr : st.records = ∅)
    (hp : st.pendingMessages = ∅) (steps : List UriStep)
    (h : Along (UriTraffic.act env) (UriTraffic.Punctual env) { st := st } steps) :
    (UriTraffic.run env { st := st } steps).Prompt :=
  (h.invariant (fun _ a hk ha => hk.act a ha) (UriTraffic.Kept.start hr hp)).ranked.prompt

/-- A manager that has a connector and nothing else. -/
def freshManager : Impl :=
  { Impl.start NodeIdentity.alice with connectors := AList.singleton "tcp" {} }

/-- The handshake once the answer has been read and the last message written. -/
def confirmedHandshake : Noise.HandshakeState :=
  (((((Impl.start NodeIdentity.alice).run (Env.sample false) aliceOpens).respTaken (Env.sample false)
    1 ((Impl.start NodeIdentity.bob).run (Env.sample false) bobAnswers).lastSent).1.find 1).bind
      ConnectionRecord.handshake).getD
    (Noise.HandshakeState.init Sodium.sample true (sampleKey 1) (sampleKey 2))

def peerPayload : HandshakePayload :=
  HandshakePayload.decode ((Impl.start NodeIdentity.bob).buildHandshakePayload (Env.sample false))

/-- A connection opened for the URI, up to the commit. -/
def comesUp (uri address : String) : List UriStep :=
  [.connected uri (Endpoint.sample address epFlagOutbound),.noise 1 confirmedHandshake,
    .authenticated 1 peerPayload ["tcp"],.finalize 1]

/-- Two messages wait for the connection, a third is sent once it is up. -/
def flushedInTurn : List UriStep :=
  [.check 1 "tcp://a:1" msgTypeChat [104],.append 1,.check 1 "tcp://a:1" msgTypeChat [105],
    .append 1] ++ comesUp "tcp://a:1" "a" ++
      [.check 2 "tcp://a:1" msgTypeChat [106],.take 1,.sendNext 1,.sendNext 1,.sendNext 1,.direct 2]

set_option maxRecDepth 10000 in
theorem pending_delivered_in_turn :
    (UriTraffic.run (Env.sample false) { st := freshManager } flushedInTurn).Prompt ∧
    (UriTraffic.run (Env.sample false) { st := freshManager } flushedInTurn).flushes = [] ∧
    (UriTraffic.run (Env.sample false) { st := freshManager } flushedInTurn).sent.map
      (fun e => (e.1,e.2.number,e.2.queued)) =
        [(1,0,true),(1,1,true),(1,2,false)] := by
  refine ⟨?_,by decide +kernel⟩
  exact pending_delivered (Env.sample false) rfl rfl flushedInTurn (by decide +kernel)

/-- A message that is left behind. -/
theorem UriTraffic.not_prompt {s : UriTraffic} (id : Nat) (uri : String)
    (h : s.st.establishedIn id = true ∧ s.opened.lookup id = some uri ∧ s.flushes = [] ∧
      ∃ t ∈ s.accepted, t.queued = true ∧ t.uri = uri ∧ t ∉ s.sent.map Prod.snd ∧ t ∉ s.dropped) :
    ¬ s.Prompt := by
  intro hprompt
  obtain ⟨hup,hopen,hidle,t,ht,hq,hu,hsent,hdropped⟩ := h
  obtain ⟨r,hr,hup⟩ : ∃ r, s.st.find id = some r ∧ r.established = true := by
    unfold Impl.establishedIn at hup
    split at hup
    · rename_i r hr
      exact ⟨r,hr,hup⟩
    · cases hup
  rcases hprompt.delivered id r uri hr hup hopen (by simp [hidle]) t ht hq hu with hdone | hdone
  · exact hsent hdone
  · exact hdropped hdone

/-- The connector reaches `localhost` under another name. -/
def flushedByAddress : List UriStep :=
  [.check 1 "tcp://localhost:1" msgTypeChat [104],.append 1] ++
    comesUp "tcp://localhost:1" "127.0.0.1" ++ [.take 1]

/-- The connection comes up between the check and the append. -/
def flushedTooEarly : List UriStep :=
  [.check 1 "tcp://a:1" msgTypeChat [104]] ++ comesUp "tcp://a:1" "a" ++ [.take 1,.append 1]

/-- A message is sent between the commit and the flush. -/
def flushedTooLate : List UriStep :=
  [.check 1 "tcp://a:1" msgTypeChat [104],.append 1] ++ comesUp "tcp://a:1" "a" ++
    [.check 2 "tcp://a:1" msgTypeChat [105],.direct 2,.take 1,.sendNext 1]

set_option maxRecDepth 10000 in
/-- A message stays behind because of its name or of the gap, or is overtaken. -/
theorem pending_left_behind :
    ¬ (UriTraffic.run (Env.sample false) { st := freshManager } flushedByAddress).Prompt ∧
    ¬ (UriTraffic.run (Env.sample false) { st := freshManager } flushedTooEarly).Prompt ∧
    ¬ (UriTraffic.run (Env.sample false) { st := freshManager } flushedTooLate).Prompt := by
  refine ⟨?_,?_,fun h => ?_⟩
  · exact UriTraffic.not_prompt 1 "tcp://localhost:1" (by decide +kernel)
  · exact UriTraffic.not_prompt 1 "tcp://a:1" (by decide +kernel)
  · exact absurd h.ordered (by decide +kernel)

end GoodNet
