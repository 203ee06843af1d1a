import GoodNet.PipelineSignal
import Mathlib.Data.List.Infix
set_option autoImplicit false

/-! Who is subscribed to what. The bus takes a subscription out by its type and name, so it keeps
the list of the subscriptions as long as nobody else of that type bears the name. -/

namespace GoodNet
open KeyOrder Interleaving

section
variable {F : Type} {b : SignalBus F} {l : BusLedger F}

/-- What the bus knows of the live subscriptions, whatever names they bear: the ids with their
types and names, and the wildcards. -/
structure SignalBus.Tracks (b : SignalBus F) (l : BusLedger F) : Prop where
  next : b.nextSubId = l.nextId
  wild : b.wildcards.handlers = l.ordered none
  known : ∀ id info, b.subMap.lookup id = some info ↔
    ∃ s ∈ l.live, s.id = some id ∧ s.msgType = some info.msgType ∧ s.entry.name = info.name
  fresh : ∀ s ∈ l.live, ∀ id, s.id = some id → id < l.nextId
  numbered : ∀ s ∈ l.live, s.msgType = none → s.id = none

/-- The chains hold the live subscriptions and no others. -/
structure SignalBus.Follows (b : SignalBus F) (l : BusLedger F) : Prop extends b.Tracks l where
  typed : ∀ t, b.chain t = l.ordered (some t)

/-- Nobody else of its type bears the name of the subscription with this id. -/
def BusLedger.Sole (l : BusLedger F) (subId : Nat) : Prop :=
  ∀ s ∈ l.live, ∀ s' ∈ l.live, s.id = some subId → s'.msgType = s.msgType →
    s'.entry.name = s.entry.name → s'.id = some subId

def BusLedger.Orderly (l : BusLedger F) : BusStep F → Prop
  | .unsubscribe subId => l.Sole subId
  | _ => True

theorem ChainEntry.rank_lt (e : ChainEntry F) : e.rank < 256 := UInt8.toNat_lt _

theorem BusLedger.of_append (l : BusLedger F) (s : Subscription F) (n : Nat)
    (c : Option UInt32) :
    BusLedger.of ⟨n,l.live ++ [s]⟩ c = l.of c ++ if s.msgType = c then [s.entry] else [] := by
  unfold of
  rw [List.filter_append,List.map_append]
  by_cases h : s.msgType = c <;> simp [h]

theorem BusLedger.ordered_append (l : BusLedger F) (s : Subscription F) (n : Nat)
    (c : Option UInt32) :
    BusLedger.ordered ⟨n,l.live ++ [s]⟩ c =
      if s.msgType = c then sortByKey ChainEntry.rank (l.ordered c ++ [s.entry])
      else l.ordered c := by
  unfold ordered
  rw [of_append]
  split
  · rw [sortByKey_append (fun e _ => e.rank_lt) s.entry.rank_lt]
  · rw [List.append_nil]

theorem SignalBus.Tracks.subscribe (h : b.Tracks l) (msgType : UInt32) (name : String) (cb : F)
    (prio : UInt8) :
    (b.subscribe msgType name cb prio).1.Tracks (l.act (.subscribe msgType name cb prio)) := by
  have hlive : ∀ s : Subscription F, s ∈ (l.act (.subscribe msgType name cb prio)).live ↔
      s ∈ l.live ∨ s = ⟨some msgType,some l.nextId,⟨prio,name,cb⟩⟩ := by
    simp [BusLedger.act]
  refine ⟨congrArg (· + 1) h.next,?_,fun id info => ?_,fun s hs id hid => ?_,
    fun s hs hnone => ?_⟩
  · rw [BusLedger.act,BusLedger.ordered_append]
    simpa [SignalBus.subscribe] using h.wild
  · simp only [SignalBus.subscribe,hlive]
    by_cases hid : id = b.nextSubId
    · subst hid
      rw [AList.lookup_insert]
      constructor
      · intro heq
        cases heq
        exact ⟨_,.inr rfl,by rw [h.next],rfl,rfl⟩
      · rintro ⟨s,hs | rfl,hsid,htype,hname⟩
        · have hlt := h.fresh s hs _ hsid
          rw [h.next] at hlt
          exact absurd hlt (Nat.lt_irrefl _)
        · cases info
          cases htype
          cases hname
          rfl
    · rw [AList.lookup_insert_ne hid,h.known]
      constructor
      · rintro ⟨s,hs,hrest⟩
        exact ⟨s,.inl hs,hrest⟩
      · rintro ⟨s,hs | rfl,hsid,hrest⟩
        · exact ⟨s,hs,hsid,hrest⟩
        · rw [h.next] at hid
          exact absurd (Option.some.inj hsid).symm hid
  · rcases (hlive s).1 hs with hs | rfl
    · have hlt := h.fresh s hs id hid
      exact Nat.lt_succ_of_lt hlt
    · cases hid
      exact Nat.lt_succ_self _
  · rcases (hlive s).1 hs with hs | rfl
    · exact h.numbered s hs hnone
    · cases hnone

theorem SignalBus.Tracks.subscribeWildcard (h : b.Tracks l) (name : String) (cb : F)
    (prio : UInt8) :
    (b.subscribeWildcard name cb prio).Tracks (l.act (.subscribeWildcard name cb prio)) := by
  have hlive : ∀ s : Subscription F, s ∈ (l.act (.subscribeWildcard name cb prio)).live ↔
      s ∈ l.live ∨ s = ⟨none,none,⟨prio,name,cb⟩⟩ := by
    simp [BusLedger.act]
  refine ⟨h.next,?_,fun id info => ?_,fun s hs id hid => ?_,fun s hs hnone => ?_⟩
  · rw [BusLedger.act,BusLedger.ordered_append]
    simp [SignalBus.subscribeWildcard,PipelineSignal.connect,h.wild]
  · simp only [hlive]
    refine (h.known id info).trans ⟨?_,?_⟩
    · rintro ⟨s,hs,hrest⟩
      exact ⟨s,.inl hs,hrest⟩
    · rintro ⟨s,hs | rfl,hsid,hrest⟩
      · exact ⟨s,hs,hsid,hrest⟩
      · cases hsid
  · rcases (hlive s).1 hs with hs | rfl
    · exact h.fresh s hs id hid
    · cases hid
  · rcases (hlive s).1 hs with hs | rfl
    · exact h.numbered s hs hnone
    · rfl

/-- What an id that is known stands for. -/
theorem SignalBus.Tracks.info (h : b.Tracks l) {s : Subscription F} (hs : s ∈ l.live)
    {subId : Nat} (hid : s.id = some subId) :
    ∃ t, s.msgType = some t ∧ b.subMap.lookup subId = some ⟨t,s.entry.name⟩ := by
  cases ht : s.msgType with
  | none =>
    rw [h.numbered s hs ht] at hid
    cases hid
  | some t => exact ⟨t,rfl,(h.known subId ⟨t,s.entry.name⟩).2 ⟨s,hs,hid,ht,rfl⟩⟩

theorem BusLedger.mem_unsubscribe {subId : Nat} {s : Subscription F} :
    s ∈ (l.act (.unsubscribe subId)).live ↔ s ∈ l.live ∧ s.id ≠ some subId := by
  simp [act]

theorem BusLedger.unsubscribe_of (subId : Nat) (c : Option UInt32) :
    (l.act (.unsubscribe subId)).of c = ((l.live.filter (fun s => s.msgType == c)).filter
      (fun s => s.id != some subId)).map Subscription.entry := by
  simp only [of,act,List.filter_filter,Bool.and_comm]

/-- Those that the id does not belong to keep their order. -/
theorem BusLedger.unsubscribe_ordered {subId : Nat} {c : Option UInt32}
    (h : ∀ s ∈ l.live, s.msgType = c → s.id ≠ some subId) :
    (l.act (.unsubscribe subId)).ordered c = l.ordered c := by
  unfold ordered
  rw [unsubscribe_of,List.filter_eq_self.2]
  · rfl
  · intro s hs
    rw [List.mem_filter,beq_iff_eq] at hs
    simpa using h s hs.1 hs.2

theorem SignalBus.Tracks.unsubscribe (h : b.Tracks l) (subId : Nat) :
    (b.unsubscribe subId).Tracks (l.act (.unsubscribe subId)) := by
  refine ⟨(b.unsubscribe_nextSubId subId).trans h.next,?_,fun id info => ?_,
    fun s hs => h.fresh s (BusLedger.mem_unsubscribe.1 hs).1,
    fun s hs => h.numbered s (BusLedger.mem_unsubscribe.1 hs).1⟩
  · rw [unsubscribe_wildcards,h.wild,BusLedger.unsubscribe_ordered]
    intro s hs hnone hid
    rw [h.numbered s hs hnone] at hid
    cases hid
  · rw [unsubscribe_subMap]
    by_cases hid : id = subId
    · subst hid
      rw [AList.lookup_erase]
      constructor
      · intro hno
        cases hno
      · rintro ⟨s,hs,hsid,_⟩
        exact absurd hsid (BusLedger.mem_unsubscribe.1 hs).2
    · rw [AList.lookup_erase_ne hid,h.known]
      constructor
      · rintro ⟨s,hs,hsid,hrest⟩
        refine ⟨s,BusLedger.mem_unsubscribe.2 ⟨hs,fun hsub => ?_⟩,hsid,hrest⟩
        rw [hsid] at hsub
        exact hid (Option.some.inj hsub)
      · rintro ⟨s,hs,hrest⟩
        exact ⟨s,(BusLedger.mem_unsubscribe.1 hs).1,hrest⟩

theorem SignalBus.Tracks.act (h : b.Tracks l) (step : BusStep F) :
    (b.act step).Tracks (l.act step) := by
  cases step with
  | subscribe msgType name cb prio => exact h.subscribe msgType name cb prio
  | subscribeWildcard name cb prio => exact h.subscribeWildcard name cb prio
  | unsubscribe subId => exact h.unsubscribe subId

theorem SignalBus.Tracks.run (h : b.Tracks l) (steps : List (BusStep F)) :
    (Interleaving.run SignalBus.act b steps).Tracks (Interleaving.run BusLedger.act l steps) := by
  induction steps generalizing b l with
  | nil => exact h
  | cons step steps ih => exact ih (h.act step)

/-- An id that belongs to no live subscription is not known. -/
theorem SignalBus.Tracks.unknown (h : b.Tracks l) {subId : Nat}
    (hno : ∀ s ∈ l.live, s.id ≠ some subId) : b.unsubscribe subId = b := by
  refine unsubscribe_unknown ?_
  cases hk : b.subMap.lookup subId with
  | none => rfl
  | some info =>
    obtain ⟨s,hs,hid,_⟩ := (h.known subId info).1 hk
    exact absurd hid (hno s hs)

theorem SignalBus.Follows.subscribe (h : b.Follows l) (msgType : UInt32) (name : String) (cb : F)
    (prio : UInt8) :
    (b.subscribe msgType name cb prio).1.Follows (l.act (.subscribe msgType name cb prio)) := by
  refine ⟨h.toTracks.subscribe msgType name cb prio,fun t => ?_⟩
  rw [subscribe_chain,BusLedger.act,BusLedger.ordered_append,h.typed]
  by_cases ht : t = msgType
  · simp [ht]
  · simp [ht,Ne.symm ht]

theorem SignalBus.Follows.subscribeWildcard (h : b.Follows l) (name : String) (cb : F)
    (prio : UInt8) :
    (b.subscribeWildcard name cb prio).Follows (l.act (.subscribeWildcard name cb prio)) := by
  refine ⟨h.toTracks.subscribeWildcard name cb prio,fun t => ?_⟩
  rw [BusLedger.act,BusLedger.ordered_append,if_neg (by simp)]
  exact h.typed t

theorem SignalBus.Follows.unsubscribe (h : b.Follows l) {subId : Nat} (hsole : l.Sole subId) :
    (b.unsubscribe subId).Follows (l.act (.unsubscribe subId)) := by
  refine ⟨h.toTracks.unsubscribe subId,fun t => ?_⟩
  cases hk : b.subMap.lookup subId with
  | none =>
    rw [unsubscribe_unknown hk,h.typed,BusLedger.unsubscribe_ordered]
    intro s hs _ hid
    obtain ⟨_,_,hinfo⟩ := h.info hs hid
    rw [hk] at hinfo
    cases hinfo
  | some info =>
    obtain ⟨s₀,hs₀,hid₀,htype₀,hname₀⟩ := (h.known subId info).1 hk
    rw [unsubscribe_chain hk,h.typed]
    split
    · rename_i ht
      unfold BusLedger.ordered
      rw [byKey_filter,BusLedger.unsubscribe_of,BusLedger.of,List.filter_map]
      congr 2
      refine List.filter_congr fun s hs => ?_
      rw [List.mem_filter,beq_iff_eq] at hs
      rw [Bool.eq_iff_iff]
      simp only [Function.comp_apply,bne_iff_ne,ne_eq,not_iff_not]
      constructor
      · intro hname
        exact hsole s₀ hs₀ s hs.1 hid₀ (by rw [hs.2,htype₀,ht]) (hname.trans hname₀.symm)
      · intro hid
        obtain ⟨_,_,hinfo⟩ := h.info hs.1 hid
        rw [hk] at hinfo
        cases hinfo
        rfl
    · rename_i ht
      refine (BusLedger.unsubscribe_ordered fun s hs htype hid => ht ?_).symm
      obtain ⟨t',htype',hinfo⟩ := h.info hs hid
      rw [hk] at hinfo
      cases hinfo
      exact Option.some.inj (htype.symm.trans htype')

/-- Where somebody else bears the name, the chain loses a subscription that is still live. -/
theorem SignalBus.Follows.sole_of_unsubscribe (h : b.Follows l) {subId : Nat}
    (heq : ∀ t, (b.unsubscribe subId).chain t =
      (l.act (.unsubscribe subId)).ordered (some t)) : l.Sole subId := by
  intro s hs s' hs' hid htype hname
  by_contra hother
  obtain ⟨t,ht,hk⟩ := h.info hs hid
  have hlive : s' ∈ (l.act (.unsubscribe subId)).live :=
    BusLedger.mem_unsubscribe.2 ⟨hs',hother⟩
  have hmem : s'.entry ∈ (l.act (.unsubscribe subId)).ordered (some t) := by
    refine mem_byKey.2 ⟨List.mem_map_of_mem (List.mem_filter.2 ⟨hlive,?_⟩),s'.entry.rank_lt⟩
    rw [htype,ht,beq_self_eq_true]
  rw [← heq t,unsubscribe_chain hk,if_pos rfl,List.mem_filter] at hmem
  simp [hname] at hmem

theorem SignalBus.Follows.act (h : b.Follows l) {step : BusStep F} (ho : l.Orderly step) :
    (b.act step).Follows (l.act step) := by
  cases step with
  | subscribe msgType name cb prio => exact h.subscribe msgType name cb prio
  | subscribeWildcard name cb prio => exact h.subscribeWildcard name cb prio
  | unsubscribe subId => exact h.unsubscribe ho

theorem SignalBus.Follows.run (h : b.Follows l) {steps : List (BusStep F)}
    (ho : Along BusLedger.act BusLedger.Orderly l steps) :
    (Interleaving.run SignalBus.act b steps).Follows (Interleaving.run BusLedger.act l steps) := by
  induction steps generalizing b l with
  | nil => exact h
  | cons step steps ih => exact ih (h.act ho.1) ho.2

/-- The chains stay right at every step of a run only where no unsubscribe meets a namesake. -/
theorem SignalBus.Follows.orderly (h : b.Follows l) {steps : List (BusStep F)}
    (hall : ∀ before, before <+: steps → ∀ t,
      (Interleaving.run SignalBus.act b before).chain t =
        (Interleaving.run BusLedger.act l before).ordered (some t)) :
    Along BusLedger.act BusLedger.Orderly l steps := by
  induction steps generalizing b l with
  | nil => trivial
  | cons step steps ih =>
    have ho : l.Orderly step := by
      cases step with
      | subscribe msgType name cb prio => trivial
      | subscribeWildcard name cb prio => trivial
      | unsubscribe subId =>
        exact h.sole_of_unsubscribe (hall [.unsubscribe subId] ⟨steps,rfl⟩)
    refine ⟨ho,ih (h.act ho) fun before hbefore => ?_⟩
    exact hall (step :: before) (List.prefix_cons_inj step |>.2 hbefore)

theorem SignalBus.follows_empty : (({} : SignalBus F)).Follows {} := by
  have hnil : ∀ c, ({} : BusLedger F).ordered c = [] := by
    intro c
    refine List.eq_nil_iff_forall_not_mem.2 fun e he => ?_
    have hm := (mem_byKey.1 he).1
    simp [BusLedger.of] at hm
  refine ⟨⟨rfl,?_,fun id info => ?_,by simp,by simp⟩,fun t => ?_⟩
  · rw [hnil]
  · simp
  · rw [hnil]
    rfl

/-- Who is called for a packet that every handler lets go on. -/
theorem SignalBus.receivers_eq (b : SignalBus F) (t : UInt32) :
    (b.dispatchPacket (fun _ _ => .carryOn) t).1 = b.chain t ++ b.wildcards.handlers := by
  have hall : ∀ (n : Nat) (order : List (ChainEntry F)),
      (emitFrom (fun _ _ => .carryOn) n order).1 = order := by
    intro n order
    induction order generalizing n with
    | nil => rfl
    | cons e order ih => simp [emitFrom,ih]
  rw [dispatchPacket_eq,hall]

/-- In every run: a packet reaches the subscriptions whose own id has not been unsubscribed, and no
others, as long as every id that is unsubscribed belongs to the only bearer of its name in its
type; and at no step later than that. An id without a live subscription changes nothing. -/
theorem unsubscribe_own_only (steps : List (BusStep F)) :
    ((∀ before, before <+: steps → ∀ t,
        ((Interleaving.run SignalBus.act {} before).dispatchPacket (fun _ _ => .carryOn) t).1 =
          (Interleaving.run BusLedger.act {} before).ordered (some t) ++
            (Interleaving.run BusLedger.act {} before).ordered none) ↔
      Along BusLedger.act BusLedger.Orderly {} steps) ∧
    (∀ t name cb prio, ((Interleaving.run SignalBus.act {} steps).subscribe t name cb prio).2 =
      (Interleaving.run (BusLedger.act (F := F)) {} steps).nextId) ∧
    (∀ subId, (∀ s ∈ (Interleaving.run BusLedger.act {} steps).live, s.id ≠ some subId) →
      (Interleaving.run SignalBus.act {} steps).unsubscribe subId =
        Interleaving.run SignalBus.act {} steps) ∧
    ∀ subId, ((Interleaving.run SignalBus.act {} steps).unsubscribe subId).unsubscribe subId =
      (Interleaving.run SignalBus.act {} steps).unsubscribe subId := by
  have htrack := SignalBus.follows_empty.toTracks.run steps
  refine ⟨⟨fun hall => ?_,fun ho before hbefore t => ?_⟩,fun _ _ _ _ => htrack.next,
    fun subId hno => htrack.unknown hno,fun subId => ?_⟩
  · refine SignalBus.follows_empty.orderly fun before hbefore t => ?_
    have hsent := hall before hbefore t
    rw [SignalBus.receivers_eq,(SignalBus.follows_empty.toTracks.run before).wild] at hsent
    exact List.append_cancel_right hsent
  · obtain ⟨rest,rfl⟩ := hbefore
    have hfollows := SignalBus.follows_empty.run (Along.front ho)
    rw [SignalBus.receivers_eq,hfollows.typed,hfollows.wild]
  · refine (htrack.unsubscribe subId).unknown fun s hs => ?_
    exact (BusLedger.mem_unsubscribe.1 hs).2

/-- Two subscriptions of one type under one name: taking the first one out takes both. -/
theorem namesake_unsubscribed :
    ¬ ∀ (steps : List (BusStep Nat)) (t : UInt32),
      ((Interleaving.run SignalBus.act {} steps).dispatchPacket (fun _ _ => .carryOn) t).1 =
        (Interleaving.run BusLedger.act {} steps).ordered (some t) ++
          (Interleaving.run BusLedger.act {} steps).ordered none := by
  intro hall
  have hlost : ((Interleaving.run SignalBus.act {} [.subscribe 100 "store" 1 128,
      .subscribe 100 "store" 2 128,.unsubscribe 1]).dispatchPacket
        (fun _ (_ : ChainEntry Nat) => .carryOn) 100).1 = [] ∧
      (Interleaving.run BusLedger.act {} [.subscribe 100 "store" 1 128,
        .subscribe 100 "store" 2 128,.unsubscribe 1]).ordered (some 100) ++
        (Interleaving.run BusLedger.act {} [.subscribe 100 "store" 1 128,
          .subscribe 100 "store" 2 128,.unsubscribe 1]).ordered none = [⟨128,"store",2⟩] := by
    decide +kernel
  have heq := hall [.subscribe 100 "store" 1 128,.subscribe 100 "store" 2 128,.unsubscribe 1] 100
  rw [hlost.1,hlost.2] at heq
  cases heq

/-- Live subscriptions with names of their own: no unsubscribe meets a namesake. -/
theorem BusLedger.orderly_of_names (steps : List (BusStep F))
    (hnames : ∀ before ∈ steps.inits,
      ((Interleaving.run BusLedger.act l before).live.map (fun s => s.entry.name)).Nodup) :
    Along BusLedger.act BusLedger.Orderly l steps := by
  induction steps generalizing l with
  | nil => trivial
  | cons step steps ih =>
    refine ⟨?_,ih fun before hbefore => ?_⟩
    · cases step with
      | subscribe msgType name cb prio => trivial
      | subscribeWildcard name cb prio => trivial
      | unsubscribe subId =>
        intro s hs s' hs' hid _ hname
        have hnow := hnames [] (by simp)
        rw [List.inj_on_of_nodup_map hnow hs' hs hname]
        exact hid
    · refine hnames (step :: before) ?_
      rw [List.mem_inits] at hbefore ⊢
      exact (List.prefix_cons_inj step).2 hbefore

/-- While no two live subscriptions share a name, a packet is handed to the live subscriptions of
its type in the order of their priorities, equal priorities as they were made, and then to the
wildcards in the same way, up to the first that does not let it go on. -/
theorem dispatch_in_order (steps : List (BusStep F))
    (hnames : ∀ before ∈ steps.inits,
      ((Interleaving.run BusLedger.act {} before).live.map (fun s => s.entry.name)).Nodup)
    (answer : Nat → ChainEntry F → Propagation) (t : UInt32) :
    ∃ rest,
      (Interleaving.run BusLedger.act {} steps).ordered (some t) ++
          (Interleaving.run BusLedger.act {} steps).ordered none =
        ((Interleaving.run SignalBus.act {} steps).dispatchPacket answer t).1 ++ rest ∧
      ((rest = [] ∧ ((Interleaving.run SignalBus.act {} steps).dispatchPacket answer t).2 = {} ∧
          ∀ i e, ((Interleaving.run SignalBus.act {} steps).dispatchPacket answer t).1[i]? =
            some e → answer i e = .carryOn) ∨
        ∃ before e,
          ((Interleaving.run SignalBus.act {} steps).dispatchPacket answer t).1 = before ++ [e] ∧
          (∀ i e', before[i]? = some e' → answer i e' = .carryOn) ∧
          answer before.length e ≠ .carryOn ∧
          ((Interleaving.run SignalBus.act {} steps).dispatchPacket answer t).2 =
            ⟨answer before.length e,e.name⟩) := by
  have hfollows := SignalBus.follows_empty.run (BusLedger.orderly_of_names steps hnames)
  have hspec := emitFrom_spec answer 0 ((Interleaving.run BusLedger.act {} steps).ordered (some t) ++
    (Interleaving.run BusLedger.act {} steps).ordered none)
  rw [SignalBus.dispatchPacket_eq,hfollows.typed,hfollows.wild]
  simpa only [Nat.zero_add] using hspec

end

/-- Handlers of equal priority, one that is taken out again, and a wildcard. -/
def someSubscribers : List (BusStep Nat) :=
  [.subscribe 100 "low" 1 0,.subscribe 100 "first" 2 128,.subscribeWildcard "any" 3 255,
    .subscribe 100 "second" 4 128,.subscribe 100 "high" 5 255,.unsubscribe 4]

/-- The wildcard consumes the packet after all the others. -/
theorem dispatch_in_order_runs :
    ((Interleaving.run SignalBus.act {} someSubscribers).dispatchPacket
      (fun _ e => if e.fn = 3 then .consumed else .carryOn) 100).1 =
        [⟨128,"first",2⟩,⟨128,"second",4⟩,⟨0,"low",1⟩,⟨255,"any",3⟩] := by
  obtain ⟨hnames,horder,hstop⟩ :
      (∀ before ∈ someSubscribers.inits,
        ((Interleaving.run BusLedger.act {} before).live.map (fun s => s.entry.name)).Nodup) ∧
      (Interleaving.run BusLedger.act {} someSubscribers).ordered (some 100) ++
        (Interleaving.run BusLedger.act {} someSubscribers).ordered none =
          [⟨128,"first",2⟩,⟨128,"second",4⟩,⟨0,"low",1⟩,⟨255,"any",3⟩] ∧
      ((Interleaving.run SignalBus.act {} someSubscribers).dispatchPacket
        (fun _ e => if e.fn = 3 then .consumed else .carryOn) 100).1.length = 4 := by
    decide +kernel
  obtain ⟨rest,hsplit,_⟩ := dispatch_in_order someSubscribers hnames
    (fun _ e => if e.fn = 3 then .consumed else .carryOn) 100
  rw [horder] at hsplit
  have hlen := congrArg List.length hsplit
  rw [List.length_append,hstop] at hlen
  have hrest : rest = [] := List.eq_nil_of_length_eq_zero (by simpa using hlen.symm)
  rw [hrest,List.append_nil] at hsplit
  exact hsplit.symm

end GoodNet
