import GoodNet.PendingQueue
set_option autoImplicit false

/-! The tickets of the messages that wait for a connection. An invariant says where each of
them is and in which order they go out; one lemma for each thing that can happen to a ticket or
a connection says what it needs so as to be kept. -/

namespace GoodNet
open Codec Interleaving

namespace UriTraffic

/-- A queued message is sent on a connection opened for its URI, once, after the messages
accepted before it and before those accepted later; when such a connection is up and no flush
for the URI is in progress, it has been sent unless it has been dropped. -/
structure Prompt (s : UriTraffic) : Prop where
  ordered : s.sent.Pairwise (fun a b =>
    a.2.uri = b.2.uri → b.2.queued = true → a.2.number < b.2.number)
  placed : ∀ e ∈ s.sent, e.2.queued = true → s.opened.lookup e.1 = some e.2.uri
  delivered : ∀ id r uri, s.st.find id = some r → r.established = true →
    s.opened.lookup id = some uri → (∀ f ∈ s.flushes, s.opened.lookup f.id ≠ some uri) →
      ∀ t ∈ s.accepted, t.queued = true → t.uri = uri → t ∈ s.sent.map Prod.snd ∨ t ∈ s.dropped

/-- A flush in progress: its connection is up or gone, its tickets are those of the messages
it has still to send, and while its connection is there they come after all that was sent. -/
structure FlushKept (s : UriTraffic) (f : PendingFlush) : Prop where
  old : f.id < s.st.nextId
  up : ∀ r, s.st.find f.id = some r → r.established = true
  named : ∃ uri, s.opened.lookup f.id = some uri ∧ ∀ t ∈ f.tickets, t.uri = uri
  carried : f.messages = f.tickets.map Ticket.message
  early : f.taken = false → f.tickets = []
  sorted : f.tickets.Pairwise (fun a b => a.number < b.number)
  issued : ∀ t ∈ f.tickets, t.queued = true ∧ t.number < s.accepted.length
  ahead : ∀ r, s.st.find f.id = some r → ∀ e ∈ s.sent, ∀ t ∈ f.tickets, e.2.uri = t.uri →
    e.2.number < t.number

/-- Two flushes whose connections are there are not for one URI, unless one has nothing to
send. -/
def Separate (s : UriTraffic) (f g : PendingFlush) : Prop :=
  f.id ≠ g.id ∧ ∀ r r', s.st.find f.id = some r → s.st.find g.id = some r' →
    ∀ t ∈ f.tickets, ∀ u ∈ g.tickets, t.uri ≠ u.uri

/-- The connections, the flushes and the tickets. -/
structure Ranked (s : UriTraffic) : Prop where
  fresh : ∀ id r, s.st.find id = some r → id < s.st.nextId
  named : ∀ id r, s.st.find id = some r → ∃ uri, s.opened.lookup id = some uri
  unsettled : s.st.Unsettled
  flush : ∀ f ∈ s.flushes, s.FlushKept f
  apart : s.flushes.Pairwise s.Separate
  sorted : s.waiting.Pairwise (fun a b => a.number < b.number)
  issued : ∀ t ∈ s.waiting, t.queued = true ∧ t.number < s.accepted.length
  past : ∀ e ∈ s.sent, e.2.number < s.accepted.length ∧ (e.2.queued = true → e.1 < s.st.nextId)
  behind : ∀ e ∈ s.sent, ∀ t ∈ s.waiting, e.2.uri = t.uri → e.2.number < t.number
  idle : ∀ id r uri, s.st.find id = some r → r.established = true →
    s.opened.lookup id = some uri →
      (∃ f ∈ s.flushes, f.id = id ∧ f.taken = false) ∨ ∀ t ∈ s.waiting, t.uri ≠ uri
  accounted : ∀ t ∈ s.accepted, t.queued = true → t ∈ s.waiting ∨
    (∃ f ∈ s.flushes, t ∈ f.tickets) ∨ t ∈ s.sent.map Prod.snd ∨ t ∈ s.dropped
  ordered : s.sent.Pairwise (fun a b =>
    a.2.uri = b.2.uri → b.2.queued = true → a.2.number < b.2.number)
  placed : ∀ e ∈ s.sent, e.2.queued = true → s.opened.lookup e.1 = some e.2.uri

section
variable {s : UriTraffic} {st' : Impl}

theorem Ranked.prompt (h : s.Ranked) : s.Prompt := by
  refine ⟨h.ordered,h.placed,fun id r uri hr hup hopen hnone t ht hq hu => ?_⟩
  rcases h.accounted t ht hq with hw | ⟨f,hf,htf⟩ | hdone
  · rcases h.idle id r uri hr hup hopen with ⟨f,hf,rfl,_⟩ | hidle
    · exact absurd hopen (hnone f hf)
    · exact absurd hu (hidle t hw)
  · obtain ⟨uri',hopen',hall⟩ := (h.flush f hf).named
    rw [← hu,hall t htf] at hnone
    exact absurd hopen' (hnone f hf)
  · exact hdone

theorem settling_same {r r' : ConnectionRecord} (h : r'.settling = r.settling) :
    r'.established = r.established :=
  congrArg (· == ConnState.established) (Prod.mk.inj h).1

theorem FlushKept.keep {f : PendingFlush} (h : s.FlushKept f)
    (hk : Impl.Keeps ConnectionRecord.settling s.st st') (hn : st'.nextId = s.st.nextId) :
    FlushKept { s with st := st' } f := by
  refine ⟨?_,fun r' hr' => ?_,h.named,h.carried,h.early,h.sorted,h.issued,fun r' hr' => ?_⟩
  · rw [hn]
    exact h.old
  · obtain ⟨r,hr,hp⟩ := hk f.id r' hr'
    rw [settling_same hp]
    exact h.up r hr
  · obtain ⟨r,hr,_⟩ := hk f.id r' hr'
    exact h.ahead r hr

theorem Separate.keep {f g : PendingFlush} (h : s.Separate f g)
    (hk : Impl.Keeps ConnectionRecord.settling s.st st') : Separate { s with st := st' } f g := by
  refine ⟨h.1,fun r r' hr hr' => ?_⟩
  obtain ⟨r₀,hr₀,_⟩ := hk f.id r hr
  obtain ⟨r₁,hr₁,_⟩ := hk g.id r' hr'
  exact h.2 r₀ r₁ hr₀ hr₁

/-- Records may go, those that stay have not moved on. -/
theorem Ranked.keep (h : s.Ranked) (hk : Impl.Keeps ConnectionRecord.settling s.st st')
    (hn : st'.nextId = s.st.nextId) : Ranked { s with st := st' } := by
  refine ⟨fun id r' hr' => ?_,fun id r' hr' => ?_,h.unsettled.keep hk,
    fun f hf => (h.flush f hf).keep hk hn,h.apart.imp (fun hd => hd.keep hk),h.sorted,h.issued,?_,
    h.behind,fun id r' uri hr' hup hopen => ?_,h.accounted,h.ordered,h.placed⟩
  · obtain ⟨r,hr,_⟩ := hk id r' hr'
    rw [hn]
    exact h.fresh id r hr
  · obtain ⟨r,hr,_⟩ := hk id r' hr'
    exact h.named id r hr
  · rw [hn]
    exact h.past
  · obtain ⟨r,hr,hp⟩ := hk id r' hr'
    exact h.idle id r uri hr ((settling_same hp).symm.trans hup) hopen

/-- A message that is queued comes after everything. -/
theorem Ranked.queue (h : s.Ranked) {t : Ticket} (hn : t.number = s.accepted.length)
    (hq : t.queued = true) (hidle : ∀ id r, s.st.find id = some r → r.established = true →
      s.opened.lookup id = some t.uri → ∃ f ∈ s.flushes, f.id = id ∧ f.taken = false) :
    Ranked { s with accepted := s.accepted ++ [t], waiting := s.waiting ++ [t] } := by
  have hlen : (s.accepted ++ [t]).length = s.accepted.length+1 := by simp
  refine ⟨h.fresh,h.named,h.unsettled,fun f hf => ?_,h.apart,?_,fun x hx => ?_,fun e he => ?_,
    fun e he x hx hu => ?_,fun id r uri hr hup hopen => ?_,fun x hx hxq => ?_,h.ordered,h.placed⟩
  · have hkept := h.flush f hf
    refine ⟨hkept.old,hkept.up,hkept.named,hkept.carried,hkept.early,hkept.sorted,fun x hx => ?_,
      hkept.ahead⟩
    obtain ⟨hxq,hlt⟩ := hkept.issued x hx
    exact ⟨hxq,by rw [hlen]; omega⟩
  · rw [List.pairwise_append]
    refine ⟨h.sorted,List.pairwise_singleton _ _,fun x hx y hy => ?_⟩
    rw [List.mem_singleton.mp hy,hn]
    exact (h.issued x hx).2
  · rw [hlen]
    rcases List.mem_append.mp hx with hx | hx
    · obtain ⟨hxq,hlt⟩ := h.issued x hx
      exact ⟨hxq,by omega⟩
    · rw [List.mem_singleton.mp hx]
      exact ⟨hq,by omega⟩
  · obtain ⟨hlt,hid⟩ := h.past e he
    rw [hlen]
    exact ⟨by omega,hid⟩
  · rcases List.mem_append.mp hx with hx | hx
    · exact h.behind e he x hx hu
    · rw [List.mem_singleton.mp hx,hn]
      exact (h.past e he).1
  · by_cases hu : t.uri = uri
    · subst hu
      exact Or.inl (hidle id r hr hup hopen)
    · rcases h.idle id r uri hr hup hopen with hearly | hnone
      · exact Or.inl hearly
      · refine Or.inr (fun x hx => ?_)
        rcases List.mem_append.mp hx with hx | hx
        · exact hnone x hx
        · rw [List.mem_singleton.mp hx]
          exact hu
  · rcases List.mem_append.mp hx with hx | hx
    · rcases h.accounted x hx hxq with hw | hrest
      · exact Or.inl (List.mem_append_left _ hw)
      · exact Or.inr hrest
    · exact Or.inl (List.mem_append_right _ hx)

/-- A message that is sent at once, when none for its URI is to be sent before. -/
theorem Ranked.pass (h : s.Ranked) (id : Nat) {t : Ticket} (hn : t.number = s.accepted.length)
    (hq : t.queued = false) (hw : ∀ x ∈ s.waiting, x.uri ≠ t.uri)
    (hf : ∀ f ∈ s.flushes, (s.st.find f.id).isSome = true → ∀ x ∈ f.tickets, x.uri ≠ t.uri)
    (passed : Bool) :
    Ranked { s with
      accepted := s.accepted ++ [t], sent := if passed then s.sent ++ [(id,t)] else s.sent } := by
  have hlen : (s.accepted ++ [t]).length = s.accepted.length+1 := by simp
  have hmem : ∀ e ∈ (if passed then s.sent ++ [(id,t)] else s.sent), e ∈ s.sent ∨ e = (id,t) := by
    intro e he
    split at he
    · simpa using he
    · exact Or.inl he
  refine ⟨h.fresh,h.named,h.unsettled,fun f hfin => ?_,h.apart,h.sorted,fun x hx => ?_,fun e he => ?_,
    fun e he x hx hu => ?_,h.idle,fun x hx hxq => ?_,?_,fun e he heq => ?_⟩
  · have hkept := h.flush f hfin
    refine ⟨hkept.old,hkept.up,hkept.named,hkept.carried,hkept.early,hkept.sorted,fun x hx => ?_,
      fun r hr e he x hx hu => ?_⟩
    · obtain ⟨hxq,hlt⟩ := hkept.issued x hx
      exact ⟨hxq,by rw [hlen]; omega⟩
    · rcases hmem e he with he | rfl
      · exact hkept.ahead r hr e he x hx hu
      · exact absurd hu.symm (hf f hfin (by rw [hr]; rfl) x hx)
  · obtain ⟨hxq,hlt⟩ := h.issued x hx
    exact ⟨hxq,by rw [hlen]; omega⟩
  · rw [hlen]
    rcases hmem e he with he | rfl
    · obtain ⟨hlt,hid⟩ := h.past e he
      exact ⟨by omega,hid⟩
    · refine ⟨by simp only; omega,fun hqq => ?_⟩
      exact absurd (hq.symm.trans hqq) (by decide)
  · rcases hmem e he with he | rfl
    · exact h.behind e he x hx hu
    · exact absurd hu.symm (hw x hx)
  · rcases List.mem_append.mp hx with hx | hx
    · rcases h.accounted x hx hxq with hdone | hdone | hdone | hdone
      · exact Or.inl hdone
      · exact Or.inr (Or.inl hdone)
      · refine Or.inr (Or.inr (Or.inl ?_))
        simp only
        split
        · rw [List.map_append]
          exact List.mem_append_left _ hdone
        · exact hdone
      · exact Or.inr (Or.inr (Or.inr hdone))
    · rw [List.mem_singleton.mp hx,hq] at hxq
      cases hxq
  · simp only
    split
    · rw [List.pairwise_append]
      refine ⟨h.ordered,List.pairwise_singleton _ _,fun e he e' he' hu hqq => ?_⟩
      rw [List.mem_singleton.mp he',hq] at hqq
      cases hqq
    · exact h.ordered
  · rcases hmem e he with he | rfl
    · exact h.placed e he heq
    · exact absurd (hq.symm.trans heq) (by decide)

/-- A flush depends on the connections and on what was accepted and sent. -/
theorem FlushKept.same {s' : UriTraffic} {f : PendingFlush} (h : s.FlushKept f) (hst : s'.st = s.st)
    (ho : s'.opened = s.opened) (ha : s'.accepted = s.accepted) (hs : s'.sent = s.sent) :
    s'.FlushKept f := by
  refine ⟨?_,?_,?_,h.carried,h.early,h.sorted,?_,?_⟩
  · rw [hst]
    exact h.old
  · rw [hst]
    exact h.up
  · rw [ho]
    exact h.named
  · rw [ha]
    exact h.issued
  · rw [hst,hs]
    exact h.ahead

/-- Messages leave the queue and are accounted for. -/
theorem Ranked.drop (h : s.Ranked) {waiting dropped : List Ticket}
    (hsub : waiting.Sublist s.waiting) (hd : ∀ t ∈ s.dropped, t ∈ dropped)
    (hgone : ∀ t ∈ s.waiting, t ∈ waiting ∨ t ∈ dropped) :
    Ranked { s with waiting := waiting, dropped := dropped } := by
  have hin : ∀ t ∈ waiting, t ∈ s.waiting := fun t ht => hsub.subset ht
  refine ⟨h.fresh,h.named,h.unsettled,fun f hf => (h.flush f hf).same rfl rfl rfl rfl,h.apart,
    h.sorted.sublist hsub,fun t ht => h.issued t (hin t ht),h.past,
    fun e he t ht => h.behind e he t (hin t ht),
    fun id r uri hr hup hopen => ?_,fun t ht hq => ?_,h.ordered,h.placed⟩
  · rcases h.idle id r uri hr hup hopen with hearly | hnone
    · exact Or.inl hearly
    · exact Or.inr (fun t ht => hnone t (hin t ht))
  · rcases h.accounted t ht hq with hw | hf | hs | hdone
    · rcases hgone t hw with hw | hdone
      · exact Or.inl hw
      · exact Or.inr (Or.inr (Or.inr hdone))
    · exact Or.inr (Or.inl hf)
    · exact Or.inr (Or.inr (Or.inl hs))
    · exact Or.inr (Or.inr (Or.inr (hd t hdone)))

/-- A connection is opened under the next id, and is not up. -/
theorem Ranked.connect (h : s.Ranked) (uri : String) (hn : st'.nextId = s.st.nextId+1)
    (hold : ∀ id, id ≠ s.st.nextId → st'.find id = s.st.find id)
    (hnew : ∀ r, st'.find s.st.nextId = some r → r.established = false) :
    Ranked { s with st := st', opened := s.opened.insert s.st.nextId uri } := by
  have hopened : ∀ id, id < s.st.nextId →
      (s.opened.insert s.st.nextId uri).lookup id = s.opened.lookup id := by
    intro id hlt
    exact AList.lookup_insert_ne (by omega)
  have hflush : ∀ f ∈ s.flushes, st'.find f.id = s.st.find f.id := by
    intro f hf
    have hlt := (h.flush f hf).old
    exact hold f.id (by omega)
  refine ⟨fun id r hr => ?_,fun id r hr => ?_,fun id r hr hshake => ?_,fun f hf => ?_,?_,h.sorted,
    h.issued,fun e he => ?_,h.behind,fun id r uri' hr hup hopen => ?_,h.accounted,h.ordered,
    fun e he hq => ?_⟩
  · rw [hn]
    by_cases hid : id = s.st.nextId
    · omega
    · have hlt := h.fresh id r ((hold id hid).symm.trans hr)
      omega
  · by_cases hid : id = s.st.nextId
    · subst hid
      exact ⟨uri,AList.lookup_insert _⟩
    · have hr := (hold id hid).symm.trans hr
      obtain ⟨uri',hopen⟩ := h.named id r hr
      exact ⟨uri',(hopened id (h.fresh id r hr)).trans hopen⟩
  · by_cases hid : id = s.st.nextId
    · subst hid
      exact hnew r hr
    · exact h.unsettled id r ((hold id hid).symm.trans hr) hshake
  · have hkept := h.flush f hf
    refine ⟨?_,fun r hr => ?_,?_,hkept.carried,hkept.early,hkept.sorted,hkept.issued,fun r hr => ?_⟩
    · have hlt := hkept.old
      rw [hn]
      omega
    · exact hkept.up r ((hflush f hf).symm.trans hr)
    · rw [hopened f.id hkept.old]
      exact hkept.named
    · exact hkept.ahead r ((hflush f hf).symm.trans hr)
  · refine h.apart.imp_of_mem (fun {f g} hf hg hd => ⟨hd.1,fun r r' hr hr' => ?_⟩)
    exact hd.2 r r' ((hflush f hf).symm.trans hr) ((hflush g hg).symm.trans hr')
  · obtain ⟨hlt,hid⟩ := h.past e he
    refine ⟨hlt,fun hq => ?_⟩
    have hlt := hid hq
    rw [hn]
    omega
  · by_cases hid : id = s.st.nextId
    · subst hid
      rw [hnew r hr] at hup
      cases hup
    · have hr := (hold id hid).symm.trans hr
      exact h.idle id r uri' hr hup ((hopened id (h.fresh id r hr)).symm.trans hopen)
  · rw [hopened e.1 ((h.past e he).2 hq)]
    exact h.placed e he hq

/-- A handshake is committed: its flush is to come. -/
theorem Ranked.commit (h : s.Ranked) {id : Nat} {r r' : ConnectionRecord} (key : String)
    (hr : s.st.find id = some r) (hshake : r.handshake.isSome = true) (hn : st'.nextId = s.st.nextId)
    (hold : ∀ j, j ≠ id → st'.find j = s.st.find j) (hnew : st'.find id = some r')
    (hup : r'.established = true) (hdone : r'.handshake.isSome = false) :
    Ranked { s with st := st', flushes := ⟨id,key,false,[],[]⟩ :: s.flushes } := by
  have hother : ∀ f ∈ s.flushes, f.id ≠ id := by
    intro f hf hid
    have hdown := h.unsettled id r hr hshake
    rw [(h.flush f hf).up r (hid ▸ hr)] at hdown
    cases hdown
  have hflush : ∀ f ∈ s.flushes, st'.find f.id = s.st.find f.id :=
    fun f hf => hold f.id (hother f hf)
  have hback : ∀ j r₁, st'.find j = some r₁ → ∃ r₀, s.st.find j = some r₀ := by
    intro j r₁ hr₁
    by_cases hj : j = id
    · subst hj
      exact ⟨r,hr⟩
    · exact ⟨r₁,(hold j hj).symm.trans hr₁⟩
  refine ⟨fun j r₁ hr₁ => ?_,fun j r₁ hr₁ => ?_,fun j r₁ hr₁ hsome => ?_,fun f hf => ?_,?_,h.sorted,
    h.issued,?_,h.behind,fun j r₁ uri hr₁ hup₁ hopen => ?_,fun t ht hq => ?_,h.ordered,h.placed⟩
  · obtain ⟨r₀,hr₀⟩ := hback j r₁ hr₁
    rw [hn]
    exact h.fresh j r₀ hr₀
  · obtain ⟨r₀,hr₀⟩ := hback j r₁ hr₁
    exact h.named j r₀ hr₀
  · by_cases hj : j = id
    · subst hj
      cases hnew.symm.trans hr₁
      rw [hdone] at hsome
      cases hsome
    · exact h.unsettled j r₁ ((hold j hj).symm.trans hr₁) hsome
  · rcases List.mem_cons.mp hf with rfl | hf
    · obtain ⟨uri,hopen⟩ := h.named id r hr
      refine ⟨?_,fun r₁ hr₁ => ?_,⟨uri,hopen,fun t ht => (by cases ht)⟩,rfl,fun _ => rfl,.nil,
        fun t ht => (by cases ht),fun r₁ hr₁ e he t ht => (by cases ht)⟩
      · rw [hn]
        exact h.fresh id r hr
      · cases hnew.symm.trans hr₁
        exact hup
    · have hkept := h.flush f hf
      refine ⟨?_,fun r₁ hr₁ => ?_,hkept.named,hkept.carried,hkept.early,hkept.sorted,hkept.issued,
        fun r₁ hr₁ => ?_⟩
      · rw [hn]
        exact hkept.old
      · exact hkept.up r₁ ((hflush f hf).symm.trans hr₁)
      · exact hkept.ahead r₁ ((hflush f hf).symm.trans hr₁)
  · rw [List.pairwise_cons]
    refine ⟨fun f hf => ⟨(hother f hf).symm,fun _ _ _ _ t ht => (by cases ht)⟩,?_⟩
    refine h.apart.imp_of_mem (fun {f g} hf hg hd => ⟨hd.1,fun r₁ r₂ hr₁ hr₂ => ?_⟩)
    exact hd.2 r₁ r₂ ((hflush f hf).symm.trans hr₁) ((hflush g hg).symm.trans hr₂)
  · rw [hn]
    exact h.past
  · by_cases hj : j = id
    · subst hj
      exact Or.inl ⟨_,List.mem_cons_self,rfl,rfl⟩
    · rcases h.idle j r₁ uri ((hold j hj).symm.trans hr₁) hup₁ hopen with ⟨f,hf,hearly⟩ | hnone
      · exact Or.inl ⟨f,List.mem_cons_of_mem _ hf,hearly⟩
      · exact Or.inr hnone
  · rcases h.accounted t ht hq with hw | ⟨f,hf,htf⟩ | hrest
    · exact Or.inl hw
    · exact Or.inr (Or.inl ⟨f,List.mem_cons_of_mem _ hf,htf⟩)
    · exact Or.inr (Or.inr hrest)

theorem Separate.symm {f g : PendingFlush} (h : s.Separate f g) : s.Separate g f :=
  ⟨h.1.symm,fun r r' hr hr' t ht u hu => (h.2 r' r hr' hr u hu t ht).symm⟩

instance (s : UriTraffic) : Std.Symm s.Separate := ⟨fun _ _ h => h.symm⟩

/-- The order of the flushes does not matter. -/
theorem Ranked.reorder (h : s.Ranked) {flushes : List PendingFlush} (hp : s.flushes.Perm flushes) :
    Ranked { s with flushes := flushes } := by
  refine ⟨h.fresh,h.named,h.unsettled,
    fun f hf => (h.flush f (hp.mem_iff.mpr hf)).same rfl rfl rfl rfl,?_,h.sorted,h.issued,h.past,
    h.behind,fun id r uri hr hup hopen => ?_,fun t ht hq => ?_,h.ordered,h.placed⟩
  · exact (hp.pairwise_iff (fun {f g} (hd : s.Separate f g) => hd.symm)).mp h.apart
  · rcases h.idle id r uri hr hup hopen with ⟨f,hf,hearly⟩ | hnone
    · exact Or.inl ⟨f,hp.mem_iff.mp hf,hearly⟩
    · exact Or.inr hnone
  · rcases h.accounted t ht hq with hw | ⟨f,hf,htf⟩ | hrest
    · exact Or.inl hw
    · exact Or.inr (Or.inl ⟨f,hp.mem_iff.mp hf,htf⟩)
    · exact Or.inr (Or.inr hrest)

/-- Nothing waits for the URI of a connection whose flush has taken the queue. -/
theorem Ranked.nothing_waits (h : s.Ranked) {g : PendingFlush} (hg : g ∈ s.flushes)
    (ht : g.taken = true) {r : ConnectionRecord} (hr : s.st.find g.id = some r) :
    ∀ t ∈ s.waiting, s.opened.lookup g.id ≠ some t.uri := by
  intro t hwait hopen
  rcases h.idle g.id r t.uri hr ((h.flush g hg).up r hr) hopen with ⟨f,hf,hid,hearly⟩ | hnone
  · by_cases he : f = g
    · subst he
      rw [ht] at hearly
      cases hearly
    · exact (h.apart.forall hf hg he).1 hid
  · exact hnone t hwait rfl

/-- The first flush has taken its queue: what was said of the flushes goes for the others. -/
theorem Ranked.idle_rest (h : s.Ranked) {f : PendingFlush} {rest : List PendingFlush}
    (hf : s.flushes = f :: rest) (ht : f.taken = true) {id : Nat} {r : ConnectionRecord}
    {uri : String} (hr : s.st.find id = some r) (hup : r.established = true)
    (hopen : s.opened.lookup id = some uri) :
    (∃ g ∈ rest, g.id = id ∧ g.taken = false) ∨ ∀ t ∈ s.waiting, t.uri ≠ uri := by
  rcases h.idle id r uri hr hup hopen with ⟨g,hg,hid,hearly⟩ | hnone
  · rw [hf] at hg
    rcases List.mem_cons.mp hg with rfl | hg
    · rw [ht] at hearly
      cases hearly
    · exact Or.inl ⟨g,hg,hid,hearly⟩
  · exact Or.inr hnone

/-- A ticket is with the first flush, with another, or elsewhere. -/
theorem Ranked.accounted_rest (h : s.Ranked) {f : PendingFlush} {rest : List PendingFlush}
    (hf : s.flushes = f :: rest) {t : Ticket} (ht : t ∈ s.accepted) (hq : t.queued = true) :
    t ∈ f.tickets ∨ t ∈ s.waiting ∨ (∃ g ∈ rest, t ∈ g.tickets) ∨ t ∈ s.sent.map Prod.snd ∨
      t ∈ s.dropped := by
  rcases h.accounted t ht hq with hw | ⟨g,hg,htg⟩ | hdone
  · exact Or.inr (Or.inl hw)
  · rw [hf] at hg
    rcases List.mem_cons.mp hg with rfl | hg
    · exact Or.inl htg
    · exact Or.inr (Or.inr (Or.inl ⟨g,hg,htg⟩))
  · exact Or.inr (Or.inr (Or.inr hdone))

/-- A flush takes the queue. -/
theorem Ranked.take (h : s.Ranked) {f : PendingFlush} {rest : List PendingFlush}
    (hf : s.flushes = f :: rest) (hearly : f.taken = false)
    (huri : ∀ t ∈ s.waiting, (t.key = f.key ↔ s.opened.lookup f.id = some t.uri)) :
    Ranked { s with
      waiting := s.waiting.filter (fun t => t.key != f.key),
      flushes := { f with
        taken := true, messages := (s.waitingFor f.key).map Ticket.message,
        tickets := s.waitingFor f.key } :: rest } := by
  have hfin : f ∈ s.flushes := by rw [hf]; exact List.mem_cons_self
  have hrest : ∀ g ∈ rest, g ∈ s.flushes := fun g hg => by rw [hf]; exact List.mem_cons_of_mem f hg
  have hkept := h.flush f hfin
  have hsub := List.filter_sublist (p := fun t => t.key != f.key) (l := s.waiting)
  have htaken : ∀ t ∈ s.waitingFor f.key, t ∈ s.waiting ∧ s.opened.lookup f.id = some t.uri := by
    intro t ht
    obtain ⟨hw,hk⟩ := List.mem_filter.mp ht
    exact ⟨hw,(huri t hw).mp (by simpa using hk)⟩
  have hleft : ∀ t ∈ s.waiting.filter (fun t => t.key != f.key),
      t ∈ s.waiting ∧ s.opened.lookup f.id ≠ some t.uri := by
    intro t ht
    obtain ⟨hw,hk⟩ := List.mem_filter.mp ht
    have hne : t.key ≠ f.key := by simpa using hk
    exact ⟨hw,fun hopen => hne ((huri t hw).mpr hopen)⟩
  have hapart := h.apart
  rw [hf,List.pairwise_cons] at hapart
  refine ⟨h.fresh,h.named,h.unsettled,fun g hg => ?_,?_,h.sorted.sublist hsub,
    fun t ht => h.issued t (hleft t ht).1,h.past,fun e he t ht => h.behind e he t (hleft t ht).1,
    fun id r uri hr hup hopen => ?_,fun t ht hq => ?_,h.ordered,h.placed⟩
  · rcases List.mem_cons.mp hg with rfl | hg
    · obtain ⟨uri,hopen,_⟩ := hkept.named
      refine ⟨hkept.old,hkept.up,⟨uri,hopen,fun t ht => ?_⟩,rfl,fun hno => (by cases hno),
        h.sorted.sublist List.filter_sublist,fun t ht => h.issued t (htaken t ht).1,
        fun r hr e he t ht => h.behind e he t (htaken t ht).1⟩
      exact Option.some.inj ((htaken t ht).2.symm.trans hopen)
    · exact (h.flush g (hrest g hg)).same rfl rfl rfl rfl
  · rw [List.pairwise_cons]
    refine ⟨fun g hg => ⟨(hapart.1 g hg).1,fun r r' hr hr' t ht u hu he => ?_⟩,hapart.2⟩
    -- a flush with messages for the same URI has left none in the queue
    have hg' := hrest g hg
    have hgtaken : g.taken = true := by
      by_contra hno
      rw [(h.flush g hg').early (by simpa using hno)] at hu
      cases hu
    obtain ⟨uri,hopen,hall⟩ := (h.flush g hg').named
    refine h.nothing_waits hg' hgtaken hr' t (htaken t ht).1 ?_
    rw [hopen,he,hall u hu]
  · rcases h.idle id r uri hr hup hopen with ⟨g,hg,hid,hgearly⟩ | hnone
    · rw [hf] at hg
      rcases List.mem_cons.mp hg with rfl | hg
      · refine Or.inr (fun t ht hu => (hleft t ht).2 ?_)
        rw [hid,hopen,hu]
      · exact Or.inl ⟨g,List.mem_cons_of_mem _ hg,hid,hgearly⟩
    · exact Or.inr (fun t ht => hnone t (hleft t ht).1)
  · rcases h.accounted_rest hf ht hq with htf | hw | ⟨g,hg,htg⟩ | hdone
    · rw [hkept.early hearly] at htf
      cases htf
    · by_cases hk : t.key = f.key
      · refine Or.inr (Or.inl ⟨_,List.mem_cons_self,?_⟩)
        exact List.mem_filter.mpr ⟨hw,by simpa using hk⟩
      · exact Or.inl (List.mem_filter.mpr ⟨hw,by simpa using hk⟩)
    · exact Or.inr (Or.inl ⟨g,List.mem_cons_of_mem _ hg,htg⟩)
    · exact Or.inr (Or.inr hdone)

/-- A flush that has nothing more to send is done. -/
theorem Ranked.finish (h : s.Ranked) {f : PendingFlush} {rest : List PendingFlush}
    (hf : s.flushes = f :: rest) (ht : f.taken = true) (hnil : f.tickets = []) :
    Ranked { s with flushes := rest } := by
  have hrest : ∀ g ∈ rest, g ∈ s.flushes := fun g hg => by rw [hf]; exact List.mem_cons_of_mem f hg
  have hapart := h.apart
  rw [hf,List.pairwise_cons] at hapart
  refine ⟨h.fresh,h.named,h.unsettled,fun g hg => (h.flush g (hrest g hg)).same rfl rfl rfl rfl,
    hapart.2,h.sorted,h.issued,h.past,h.behind,
    fun id r uri hr hup hopen => h.idle_rest hf ht hr hup hopen,fun t htin hq => ?_,h.ordered,
    h.placed⟩
  rcases h.accounted_rest hf htin hq with htf | hdone
  · rw [hnil] at htf
    cases htf
  · exact hdone

/-- What is left of a flush after one round. -/
theorem FlushKept.rest {f : PendingFlush} {m : PendingMessage} {messages : List PendingMessage}
    {t : Ticket} {tickets : List Ticket} (h : s.FlushKept f) (hm : f.messages = m :: messages)
    (ht : f.tickets = t :: tickets) :
    s.FlushKept { f with messages := messages, tickets := tickets } := by
  have hin : ∀ x ∈ tickets, x ∈ f.tickets := fun x hx => by rw [ht]; exact List.mem_cons_of_mem t hx
  have hcarried := h.carried
  have hsorted := h.sorted
  rw [hm,ht,List.map_cons] at hcarried
  rw [ht,List.pairwise_cons] at hsorted
  obtain ⟨uri,hopen,hall⟩ := h.named
  refine ⟨h.old,h.up,⟨uri,hopen,fun x hx => hall x (hin x hx)⟩,(List.cons.inj hcarried).2,
    fun hearly => ?_,hsorted.2,fun x hx => h.issued x (hin x hx),
    fun r hr e he x hx => h.ahead r hr e he x (hin x hx)⟩
  have hnil := h.early hearly
  rw [ht] at hnil
  cases hnil

section Next
variable {f : PendingFlush} {rest : List PendingFlush} {t : Ticket} {tickets : List Ticket}

/-! The first flush is done with its first message. -/

theorem Ranked.apart_next (h : s.Ranked) (hf : s.flushes = f :: rest) (ht : f.tickets = t :: tickets)
    (messages : List PendingMessage) :
    ({ f with messages := messages, tickets := tickets } :: rest).Pairwise s.Separate := by
  have hapart := h.apart
  rw [hf,List.pairwise_cons] at hapart
  rw [List.pairwise_cons]
  refine ⟨fun g hg => ⟨(hapart.1 g hg).1,fun r₁ r₂ hr₁ hr₂ x hx => ?_⟩,hapart.2⟩
  exact (hapart.1 g hg).2 r₁ r₂ hr₁ hr₂ x (by rw [ht]; exact List.mem_cons_of_mem t hx)

theorem Ranked.idle_next (h : s.Ranked) (hf : s.flushes = f :: rest) (htaken : f.taken = true)
    (messages : List PendingMessage) {id : Nat} {r : ConnectionRecord} {uri : String}
    (hr : s.st.find id = some r) (hup : r.established = true)
    (hopen : s.opened.lookup id = some uri) :
    (∃ g ∈ { f with messages := messages, tickets := tickets } :: rest,
      g.id = id ∧ g.taken = false) ∨ ∀ t ∈ s.waiting, t.uri ≠ uri := by
  rcases h.idle_rest hf htaken hr hup hopen with ⟨g,hg,hearly⟩ | hnone
  · exact Or.inl ⟨g,List.mem_cons_of_mem _ hg,hearly⟩
  · exact Or.inr hnone

theorem Ranked.accounted_next (h : s.Ranked) (hf : s.flushes = f :: rest)
    (ht : f.tickets = t :: tickets) (messages : List PendingMessage) {x : Ticket}
    (hx : x ∈ s.accepted) (hq : x.queued = true) :
    x = t ∨ x ∈ s.waiting ∨
      (∃ g ∈ { f with messages := messages, tickets := tickets } :: rest, x ∈ g.tickets) ∨
        x ∈ s.sent.map Prod.snd ∨ x ∈ s.dropped := by
  rcases h.accounted_rest hf hx hq with hxf | hw | ⟨g,hg,hxg⟩ | hdone
  · rw [ht] at hxf
    rcases List.mem_cons.mp hxf with rfl | hxf
    · exact Or.inl rfl
    · exact Or.inr (Or.inr (Or.inl ⟨_,List.mem_cons_self,hxf⟩))
  · exact Or.inr (Or.inl hw)
  · exact Or.inr (Or.inr (Or.inl ⟨g,List.mem_cons_of_mem _ hg,hxg⟩))
  · exact Or.inr (Or.inr (Or.inr hdone))

end Next

/-- The next message of a flush goes out. -/
theorem Ranked.forward (h : s.Ranked) {f : PendingFlush} {rest : List PendingFlush}
    {m : PendingMessage} {messages : List PendingMessage} {t : Ticket} {tickets : List Ticket}
    {r : ConnectionRecord} (hf : s.flushes = f :: rest) (htaken : f.taken = true)
    (hm : f.messages = m :: messages) (ht : f.tickets = t :: tickets)
    (hr : s.st.find f.id = some r) :
    Ranked { s with
      flushes := { f with messages := messages, tickets := tickets } :: rest,
      sent := s.sent ++ [(f.id,t)] } := by
  have hfin : f ∈ s.flushes := by rw [hf]; exact List.mem_cons_self
  have hrest : ∀ g ∈ rest, g ∈ s.flushes := fun g hg => by rw [hf]; exact List.mem_cons_of_mem f hg
  have htin : t ∈ f.tickets := by rw [ht]; exact List.mem_cons_self
  have hkept := h.flush f hfin
  have hleft := hkept.rest hm ht
  obtain ⟨uri,hopen,hall⟩ := hkept.named
  obtain ⟨htq,htlt⟩ := hkept.issued t htin
  have hopen : s.opened.lookup f.id = some t.uri := by rw [hopen,hall t htin]
  have hapart := h.apart
  rw [hf,List.pairwise_cons] at hapart
  have hmem : ∀ e ∈ s.sent ++ [(f.id,t)], e ∈ s.sent ∨ e = (f.id,t) := by simp
  refine ⟨h.fresh,h.named,h.unsettled,fun g hg => ?_,?_,h.sorted,h.issued,fun e he => ?_,
    fun e he x hx hu => ?_,fun id r' uri' hr' hup hopen' => ?_,fun x hx hxq => ?_,?_,
    fun e he heq => ?_⟩
  · rcases List.mem_cons.mp hg with rfl | hg
    · refine ⟨hleft.old,hleft.up,hleft.named,hleft.carried,hleft.early,hleft.sorted,hleft.issued,
        fun r' hr' e he x hx hu => ?_⟩
      rcases hmem e he with he | rfl
      · exact hleft.ahead r' hr' e he x hx hu
      · have hsorted := hkept.sorted
        rw [ht,List.pairwise_cons] at hsorted
        exact hsorted.1 x hx
    · have hg' := h.flush g (hrest g hg)
      refine ⟨hg'.old,hg'.up,hg'.named,hg'.carried,hg'.early,hg'.sorted,hg'.issued,
        fun r' hr' e he x hx hu => ?_⟩
      rcases hmem e he with he | rfl
      · exact hg'.ahead r' hr' e he x hx hu
      · exact absurd hu ((hapart.1 g hg).2 r r' hr hr' t htin x hx)
  · exact h.apart_next hf ht messages
  · rcases hmem e he with he | rfl
    · exact h.past e he
    · exact ⟨htlt,fun _ => hkept.old⟩
  · rcases hmem e he with he | rfl
    · exact h.behind e he x hx hu
    · exact absurd (hopen.trans (congrArg some hu)) (h.nothing_waits hfin htaken hr x hx)
  · exact h.idle_next hf htaken messages hr' hup hopen'
  · rcases h.accounted_next hf ht messages hx hxq with rfl | hw | hg | hdone | hdone
    · exact Or.inr (Or.inr (Or.inl (by simp)))
    · exact Or.inl hw
    · exact Or.inr (Or.inl hg)
    · refine Or.inr (Or.inr (Or.inl ?_))
      rw [List.map_append]
      exact List.mem_append_left _ hdone
    · exact Or.inr (Or.inr (Or.inr hdone))
  · rw [List.pairwise_append]
    refine ⟨h.ordered,List.pairwise_singleton _ _,fun e he e' he' hu _ => ?_⟩
    rw [List.mem_singleton.mp he'] at hu ⊢
    exact hkept.ahead r hr e he t htin hu
  · rcases hmem e he with he | rfl
    · exact h.placed e he heq
    · exact hopen

/-- The next message of a flush has lost its connection. -/
theorem Ranked.discard (h : s.Ranked) {f : PendingFlush} {rest : List PendingFlush}
    {m : PendingMessage} {messages : List PendingMessage} {t : Ticket} {tickets : List Ticket}
    (hf : s.flushes = f :: rest) (htaken : f.taken = true) (hm : f.messages = m :: messages)
    (ht : f.tickets = t :: tickets) :
    Ranked { s with
      flushes := { f with messages := messages, tickets := tickets } :: rest,
      dropped := s.dropped ++ [t] } := by
  have hfin : f ∈ s.flushes := by rw [hf]; exact List.mem_cons_self
  have hrest : ∀ g ∈ rest, g ∈ s.flushes := fun g hg => by rw [hf]; exact List.mem_cons_of_mem f hg
  refine ⟨h.fresh,h.named,h.unsettled,fun g hg => ?_,?_,h.sorted,h.issued,h.past,h.behind,
    fun id r' uri' hr' hup hopen' => ?_,fun x hx hxq => ?_,h.ordered,h.placed⟩
  · rcases List.mem_cons.mp hg with rfl | hg
    · exact ((h.flush f hfin).rest hm ht).same rfl rfl rfl rfl
    · exact (h.flush g (hrest g hg)).same rfl rfl rfl rfl
  · exact h.apart_next hf ht messages
  · exact h.idle_next hf htaken messages hr' hup hopen'
  · rcases h.accounted_next hf ht messages hx hxq with rfl | hw | hg | hdone | hdone
    · exact Or.inr (Or.inr (Or.inr (by simp)))
    · exact Or.inl hw
    · exact Or.inr (Or.inl hg)
    · exact Or.inr (Or.inr (Or.inl hdone))
    · exact Or.inr (Or.inr (Or.inr (List.mem_append_left _ hdone)))

end

end UriTraffic

end GoodNet
