import GoodNet.PipelineSignal
set_option autoImplicit false

/-! Subscriptions through the C interface of `src/capi.cpp`. The bus gets a handler that knows a
token, and the callback is looked up under `g_csub_mu`, and called under it, whenever a packet
comes; `gn_core_unsubscribe` takes the callback away and leaves the handler in its chain. -/

namespace GoodNet
open Interleaving

/-- A handler in a chain: the one of a token, or one that some C++ code has subscribed. -/
inductive BusHandler (F : Type) where
  | token (n : Nat)
  | other (fn : F)
  deriving DecidableEq, Repr

/-- A packet on its way through the handlers a thread has loaded, the chain of its type first and
the wildcards after it. -/
structure Dispatching (F : Type) where
  thread : Nat
  msgType : UInt32
  left : List (ChainEntry (BusHandler F))
  wild : Bool
  deriving DecidableEq, Repr

/-- What happens to a token. It is `issued` when `gn_core_subscribe` draws it; the call returns
later, and the callback may have been called by then. -/
inductive CNote where
  | issued (n : Nat) (msgType : UInt32)
  | called (n thread : Nat) (msgType : UInt32)
  | returned (n : Nat)
  | gone (n : Nat)
  deriving DecidableEq, Repr

/-- `half` are the subscriptions that are in the map and have not got to the bus, and `holder` is
the thread inside a callback, and its token: it holds `g_csub_mu`. The history has its newest
entry first. -/
structure CApi (F C : Type) where
  bus : SignalBus (BusHandler F) := {}
  csubMap : Table Nat C := ∅
  csubToken : Nat := 1
  half : List (Nat × UInt32) := []
  holder : Option (Nat × Nat) := none
  dispatches : List (Dispatching F) := []
  log : List CNote := []

inductive CStep (F C : Type) where
  | subscribe (msgType : UInt32) (cb : C)
  | enlist (n : Nat) (msgType : UInt32)
  | unsubscribe (n : Nat)
  | otherSubscribes (msgType : UInt32) (name : String) (fn : F) (prio : UInt8)
  | otherWildcard (name : String) (fn : F) (prio : UInt8)
  | otherUnsubscribes (subId : Nat)
  | dispatch (thread : Nat) (msgType : UInt32)
  | handle (thread : Nat) (answer : Propagation)
  | returns (answer : Propagation)

section
variable {F C : Type}

/-- The first half of `gn_core_subscribe`: a token, and the callback under it. -/
def CApi.subscribe (s : CApi F C) (msgType : UInt32) (cb : C) : CApi F C :=
  if s.holder.isSome then s
  else
    { s with
      csubToken := s.csubToken+1,
      csubMap := s.csubMap.insert s.csubToken cb,
      half := (s.csubToken,msgType) :: s.half,
      log := .issued s.csubToken msgType :: s.log }

/-- The second half: the handler goes to the bus under the token's digits. -/
def CApi.enlist (s : CApi F C) (n : Nat) (msgType : UInt32) : CApi F C :=
  if (n,msgType) ∈ s.half then
    { s with
      half := s.half.erase (n,msgType),
      bus := (s.bus.subscribe msgType (toString n) (.token n) 128).1 }
  else s

/-- `gn_core_unsubscribe`. It waits for the lock. -/
def CApi.unsubscribe (s : CApi F C) (n : Nat) : CApi F C :=
  if s.holder.isSome then s
  else { s with csubMap := s.csubMap.erase n, log := .gone n :: s.log }

def CApi.dispatch (s : CApi F C) (thread : Nat) (msgType : UInt32) : CApi F C :=
  if s.dispatches.any (fun d => d.thread == thread) then s
  else { s with dispatches := ⟨thread,msgType,s.bus.chain msgType,false⟩ :: s.dispatches }

/-- A handler has answered: the packet goes on, or its way ends here. -/
def Dispatching.carryOn (d : Dispatching F) (others : List (Dispatching F))
    (answer : Propagation) (rest : List (ChainEntry (BusHandler F))) : List (Dispatching F) :=
  if answer = .carryOn then { d with left := rest } :: others else others

/-- A thread turns to its next handler: one that it has loaded, or the wildcards, or none. The
handler of a token waits for the lock, and without a callback it lets the packet go on. -/
def CApi.handle (s : CApi F C) (thread : Nat) (answer : Propagation) : CApi F C :=
  match pick (fun d => d.thread == thread) s.dispatches with
  | none => s
  | some (d,others) =>
    match d.left with
    | [] =>
      if d.wild then { s with dispatches := others }
      else
        { s with
          dispatches := { d with left := s.bus.wildcards.handlers, wild := true } :: others }
    | ⟨_,_,.other _⟩ :: rest => { s with dispatches := d.carryOn others answer rest }
    | ⟨_,_,.token n⟩ :: rest =>
      if s.holder.isSome then s
      else if (s.csubMap.lookup n).isSome then
        { s with holder := some (thread,n), log := .called n thread d.msgType :: s.log }
      else { s with dispatches := d.carryOn others .carryOn rest }

/-- The callback comes back with an answer, and its thread lets go of the lock. -/
def CApi.returns (s : CApi F C) (answer : Propagation) : CApi F C :=
  match s.holder with
  | none => s
  | some (thread,n) =>
    match pick (fun d => d.thread == thread) s.dispatches with
    | none => { s with holder := none, log := .returned n :: s.log }
    | some (d,others) =>
      { s with
        holder := none,
        dispatches := d.carryOn others answer d.left.tail,
        log := .returned n :: s.log }

def CApi.act (s : CApi F C) : CStep F C → CApi F C
  | .subscribe msgType cb => s.subscribe msgType cb
  | .enlist n msgType => s.enlist n msgType
  | .unsubscribe n => s.unsubscribe n
  | .otherSubscribes msgType name fn prio =>
    { s with bus := (s.bus.subscribe msgType name (.other fn) prio).1 }
  | .otherWildcard name fn prio =>
    { s with bus := s.bus.subscribeWildcard name (.other fn) prio }
  | .otherUnsubscribes subId => { s with bus := s.bus.unsubscribe subId }
  | .dispatch thread msgType => s.dispatch thread msgType
  | .handle thread answer => s.handle thread answer
  | .returns answer => s.returns answer

end

/-- How many calls of a token have begun and not come back. -/
def running (n : Nat) : List CNote → Nat
  | [] => 0
  | .called m _ _ :: log => if m = n then running n log+1 else running n log
  | .returned m :: log => if m = n then running n log-1 else running n log
  | _ :: log => running n log

/-- The token has been drawn, and unsubscribed after that. -/
def ended (n : Nat) : List CNote → Prop
  | [] => False
  | .gone m :: log => (m = n ∧ ∃ t, .issued n t ∈ log) ∨ ended n log
  | _ :: log => ended n log

/-- A callback is called for the type it was subscribed for and not after its end, and an
unsubscribe does not overtake a call. -/
def Fair : List CNote → Prop
  | [] => True
  | .called n _ t :: log => .issued n t ∈ log ∧ ¬ ended n log ∧ Fair log
  | .gone n :: log => running n log = 0 ∧ Fair log
  | _ :: log => Fair log

/-- The handlers of tokens in a list are those of `msgType`. -/
def Typed {F : Type} (log : List CNote) (msgType : UInt32)
    (handlers : List (ChainEntry (BusHandler F))) : Prop :=
  ∀ e ∈ handlers, ∀ n, e.fn = .token n → .issued n msgType ∈ log

structure CApi.Guarded {F C : Type} (s : CApi F C) : Prop where
  fair : Fair s.log
  lock : ∀ n, running n s.log = if s.holder.any (fun h => h.2 == n) then 1 else 0
  ended : ∀ n, ended n s.log → s.csubMap.lookup n = none
  fresh : ∀ n, (∃ t, .issued n t ∈ s.log) → n < s.csubToken
  half : ∀ p ∈ s.half, .issued p.1 p.2 ∈ s.log
  chains : ∀ t, Typed s.log t (s.bus.chain t)
  wildcards : ∀ t, Typed s.log t s.bus.wildcards.handlers
  dispatches : ∀ d ∈ s.dispatches, Typed s.log d.msgType d.left

section
variable {F C : Type} {s : CApi F C}

theorem Typed.mono {log log' : List CNote} {t : UInt32} {es es' : List (ChainEntry (BusHandler F))}
    (h : Typed log t es) (hlog : ∀ x ∈ log, x ∈ log') (hes : ∀ e ∈ es', e ∈ es) :
    Typed log' t es' := fun e he n hn => hlog _ (h e (hes e he) n hn)

theorem ended_issued {n : Nat} {log : List CNote} (h : ended n log) : ∃ t, .issued n t ∈ log := by
  induction log with
  | nil => exact h.elim
  | cons x log ih =>
    have hrest : ended n log → ∃ t, .issued n t ∈ x :: log := fun h =>
      (ih h).imp (fun t ht => List.mem_cons_of_mem x ht)
    cases x with
    | gone m =>
      rcases h with ⟨_,t,ht⟩ | h
      · exact ⟨t,List.mem_cons_of_mem _ ht⟩
      · exact hrest h
    | _ => exact hrest h

/-- A step that writes nothing and leaves the map and the lock alone. -/
theorem CApi.Guarded.silent (h : s.Guarded) {s' : CApi F C} (hlog : s'.log = s.log)
    (hmap : s'.csubMap = s.csubMap) (htoken : s'.csubToken = s.csubToken)
    (hholder : s'.holder = s.holder) (hhalf : ∀ p ∈ s'.half, p ∈ s.half)
    (hchains : ∀ t, Typed s.log t (s'.bus.chain t))
    (hwild : ∀ t, Typed s.log t s'.bus.wildcards.handlers)
    (hdisp : ∀ d ∈ s'.dispatches, Typed s.log d.msgType d.left) : s'.Guarded := by
  refine ⟨hlog ▸ h.fair,?_,?_,?_,?_,?_,?_,?_⟩
  · rw [hlog,hholder]
    exact h.lock
  · rw [hlog,hmap]
    exact h.ended
  · rw [hlog,htoken]
    exact h.fresh
  · rw [hlog]
    exact fun p hp => h.half p (hhalf p hp)
  · rw [hlog]
    exact hchains
  · rw [hlog]
    exact hwild
  · rw [hlog]
    exact hdisp

theorem SignalBus.mem_chain_subscribe {b : SignalBus (BusHandler F)} {t msgType : UInt32}
    {name : String} {cb : BusHandler F} {prio : UInt8} {e : ChainEntry (BusHandler F)}
    (h : e ∈ (b.subscribe msgType name cb prio).1.chain t) :
    e ∈ b.chain t ∨ (t = msgType ∧ e.fn = cb) := by
  rw [SignalBus.subscribe_chain] at h
  split at h
  · rename_i ht
    rcases List.mem_append.mp ((List.perm_insertionSort _ _).mem_iff.mp h) with he | he
    · exact Or.inl he
    · simp only [List.mem_singleton] at he
      exact Or.inr ⟨ht,by rw [he]⟩
  · exact Or.inl h

theorem CApi.Guarded.subscribe (h : s.Guarded) (msgType : UInt32) (cb : C) :
    (s.subscribe msgType cb).Guarded := by
  unfold CApi.subscribe
  split
  · exact h
  · have hgrow : ∀ x ∈ s.log, x ∈ CNote.issued s.csubToken msgType :: s.log :=
      fun x hx => List.mem_cons_of_mem _ hx
    refine ⟨h.fair,h.lock,fun n hn => ?_,fun n hn => ?_,fun p hp => ?_,
      fun t => (h.chains t).mono hgrow (fun e he => he),
      fun t => (h.wildcards t).mono hgrow (fun e he => he),
      fun d hd => (h.dispatches d hd).mono hgrow (fun e he => he)⟩
    · have hold : GoodNet.ended n s.log := hn
      have hne : n ≠ s.csubToken := Nat.ne_of_lt (h.fresh n (ended_issued hold))
      rw [AList.lookup_insert_ne hne]
      exact h.ended n hold
    · obtain ⟨t,ht⟩ := hn
      rcases List.mem_cons.mp ht with heq | ht
      · cases heq
        exact Nat.lt_succ_self _
      · exact Nat.lt_succ_of_lt (h.fresh n ⟨t,ht⟩)
    · rcases List.mem_cons.mp hp with rfl | hp
      · exact List.mem_cons_self
      · exact hgrow _ (h.half p hp)

theorem CApi.Guarded.enlist (h : s.Guarded) (n : Nat) (msgType : UInt32) :
    (s.enlist n msgType).Guarded := by
  unfold CApi.enlist
  split
  · rename_i hmem
    refine h.silent rfl rfl rfl rfl (fun p hp => List.mem_of_mem_erase hp) (fun t e he k hk => ?_)
      h.wildcards h.dispatches
    rcases SignalBus.mem_chain_subscribe he with he | ⟨rfl,hfn⟩
    · exact h.chains t e he k hk
    · rw [hfn] at hk
      cases hk
      exact h.half _ hmem
  · exact h

theorem CApi.Guarded.unsubscribe (h : s.Guarded) (n : Nat) : (s.unsubscribe n).Guarded := by
  unfold CApi.unsubscribe
  split
  · exact h
  · rename_i hfree
    have hgrow : ∀ x ∈ s.log, x ∈ CNote.gone n :: s.log := fun x hx => List.mem_cons_of_mem _ hx
    have hidle : running n s.log = 0 := by
      rw [h.lock,Option.not_isSome_iff_eq_none.mp hfree]
      rfl
    refine ⟨⟨hidle,h.fair⟩,h.lock,fun k hk => ?_,fun k hk => ?_,fun p hp => hgrow _ (h.half p hp),
      fun t => (h.chains t).mono hgrow (fun e he => he),
      fun t => (h.wildcards t).mono hgrow (fun e he => he),
      fun d hd => (h.dispatches d hd).mono hgrow (fun e he => he)⟩
    · by_cases hkn : k = n
      · rw [hkn]
        exact AList.lookup_erase _ _
      · rw [AList.lookup_erase_ne hkn]
        rcases hk with ⟨hnk,_⟩ | hk
        · exact absurd hnk.symm hkn
        · exact h.ended k hk
    · obtain ⟨t,ht⟩ := hk
      exact h.fresh k ⟨t,by simpa using ht⟩

/-- Some C++ code subscribes or unsubscribes. -/
theorem CApi.Guarded.other (h : s.Guarded) {bus : SignalBus (BusHandler F)}
    (hchains : ∀ t, ∀ e ∈ bus.chain t, e ∈ s.bus.chain t ∨ ∃ fn, e.fn = .other fn)
    (hwild : ∀ e ∈ bus.wildcards.handlers, e ∈ s.bus.wildcards.handlers ∨ ∃ fn, e.fn = .other fn) :
    ({ s with bus := bus } : CApi F C).Guarded := by
  refine h.silent rfl rfl rfl rfl (fun p hp => hp) (fun t e he n hn => ?_) (fun t e he n hn => ?_)
    h.dispatches
  · rcases hchains t e he with he | ⟨fn,hfn⟩
    · exact h.chains t e he n hn
    · simp [hfn] at hn
  · rcases hwild e he with he | ⟨fn,hfn⟩
    · exact h.wildcards t e he n hn
    · simp [hfn] at hn

theorem CApi.Guarded.dispatch (h : s.Guarded) (thread : Nat) (msgType : UInt32) :
    (s.dispatch thread msgType).Guarded := by
  unfold CApi.dispatch
  split
  · exact h
  · refine h.silent rfl rfl rfl rfl (fun p hp => hp) h.chains h.wildcards (fun d hd => ?_)
    rcases List.mem_cons.mp hd with rfl | hd
    · exact h.chains msgType
    · exact h.dispatches d hd

theorem carryOn_typed {log : List CNote} {d : Dispatching F} {others : List (Dispatching F)}
    {rest : List (ChainEntry (BusHandler F))} (answer : Propagation)
    (hrest : Typed log d.msgType rest) (ho : ∀ x ∈ others, Typed log x.msgType x.left) :
    ∀ x ∈ d.carryOn others answer rest, Typed log x.msgType x.left := by
  intro x hx
  unfold Dispatching.carryOn at hx
  split at hx
  · rcases List.mem_cons.mp hx with rfl | hx
    · exact hrest
    · exact ho x hx
  · exact ho x hx

theorem CApi.Guarded.handle (h : s.Guarded) (thread : Nat) (answer : Propagation) :
    (s.handle thread answer).Guarded := by
  unfold CApi.handle
  split
  · exact h
  · rename_i d others hpick
    obtain ⟨_,l₁,l₂,hsplit,rfl⟩ := pick_some hpick
    have hd : Typed s.log d.msgType d.left := h.dispatches d (by simp [hsplit])
    have ho : ∀ x ∈ l₁ ++ l₂, Typed s.log x.msgType x.left :=
      fun x hx => h.dispatches x (hsplit ▸ mem_of_mem_rest hx)
    split
    · split
      · exact h.silent rfl rfl rfl rfl (fun p hp => hp) h.chains h.wildcards ho
      · refine h.silent rfl rfl rfl rfl (fun p hp => hp) h.chains h.wildcards (fun x hx => ?_)
        rcases List.mem_cons.mp hx with rfl | hx
        · exact h.wildcards d.msgType
        · exact ho x hx
    · rename_i rest hleft
      refine h.silent rfl rfl rfl rfl (fun p hp => hp) h.chains h.wildcards
        (carryOn_typed answer ?_ ho)
      exact hd.mono (fun x hx => hx) (fun e he => hleft ▸ List.mem_cons_of_mem _ he)
    · rename_i name prio n rest hleft
      split
      · exact h
      · rename_i hfree
        have hrest : Typed s.log d.msgType rest :=
          hd.mono (fun x hx => hx) (fun e he => hleft ▸ List.mem_cons_of_mem _ he)
        split
        · rename_i hcb
          have hgrow : ∀ x ∈ s.log, x ∈ CNote.called n thread d.msgType :: s.log :=
            fun x hx => List.mem_cons_of_mem _ hx
          have hissued : CNote.issued n d.msgType ∈ s.log :=
            hd _ (hleft ▸ List.mem_cons_self) n rfl
          have hlive : ¬ GoodNet.ended n s.log := fun he => by
            simp [h.ended n he] at hcb
          refine ⟨⟨hissued,hlive,h.fair⟩,fun k => ?_,h.ended,fun k hk => ?_,
            fun p hp => hgrow _ (h.half p hp),
            fun t => (h.chains t).mono hgrow (fun e he => he),
            fun t => (h.wildcards t).mono hgrow (fun e he => he),
            fun x hx => (h.dispatches x hx).mono hgrow (fun e he => he)⟩
          · have hlock := h.lock k
            rw [Option.not_isSome_iff_eq_none.mp hfree] at hlock
            by_cases hk : n = k
            · simpa [running,hk] using hlock
            · simpa [running,hk] using hlock
          · obtain ⟨t,ht⟩ := hk
            exact h.fresh k ⟨t,by simpa using ht⟩
        · exact h.silent rfl rfl rfl rfl (fun p hp => hp) h.chains h.wildcards
            (carryOn_typed .carryOn hrest ho)

theorem CApi.Guarded.returns (h : s.Guarded) (answer : Propagation) :
    (s.returns answer).Guarded := by
  unfold CApi.returns
  split
  · exact h
  · rename_i thread n hholder
    have hgrow : ∀ x ∈ s.log, x ∈ CNote.returned n :: s.log :=
      fun x hx => List.mem_cons_of_mem _ hx
    have hback : ∀ dispatches : List (Dispatching F),
        (∀ x ∈ dispatches, Typed s.log x.msgType x.left) →
        ({ s with holder := none, dispatches := dispatches, log := .returned n :: s.log } :
          CApi F C).Guarded := by
      intro dispatches hdisp
      refine ⟨h.fair,fun k => ?_,h.ended,fun k hk => ?_,fun p hp => hgrow _ (h.half p hp),
        fun t => (h.chains t).mono hgrow (fun e he => he),
        fun t => (h.wildcards t).mono hgrow (fun e he => he),
        fun x hx => (hdisp x hx).mono hgrow (fun e he => he)⟩
      · have hlock := h.lock k
        rw [hholder] at hlock
        by_cases hk : n = k
        · simp only [hk,Option.any_some,beq_self_eq_true,ite_true] at hlock
          simp [running,hk,hlock]
        · simpa [running,hk] using hlock
      · obtain ⟨t,ht⟩ := hk
        exact h.fresh k ⟨t,by simpa using ht⟩
    split
    · exact hback s.dispatches h.dispatches
    · rename_i d others hpick
      obtain ⟨_,l₁,l₂,hsplit,rfl⟩ := pick_some hpick
      refine hback _ (carryOn_typed answer ?_ (fun x hx => h.dispatches x
        (hsplit ▸ mem_of_mem_rest hx)))
      exact (h.dispatches d (by simp [hsplit])).mono (fun x hx => hx)
        (fun e he => List.mem_of_mem_tail he)

theorem CApi.Guarded.act (h : s.Guarded) (a : CStep F C) : (s.act a).Guarded := by
  cases a with
  | subscribe msgType cb => exact h.subscribe msgType cb
  | enlist n msgType => exact h.enlist n msgType
  | unsubscribe n => exact h.unsubscribe n
  | otherSubscribes msgType name fn prio =>
    refine h.other (fun t e he => ?_) (fun e he => Or.inl he)
    exact (SignalBus.mem_chain_subscribe he).imp id (fun hfn => ⟨fn,hfn.2⟩)
  | otherWildcard name fn prio =>
    refine h.other (fun t e he => Or.inl he) (fun e he => ?_)
    rcases List.mem_append.mp ((List.perm_insertionSort _ _).mem_iff.mp he) with he | he
    · exact Or.inl he
    · simp only [List.mem_singleton] at he
      exact Or.inr ⟨fn,by rw [he]⟩
  | otherUnsubscribes subId =>
    refine h.other (fun t e he => Or.inl ?_) (fun e he => Or.inl ?_)
    · cases hinfo : s.bus.subMap.lookup subId with
      | none => rwa [SignalBus.unsubscribe_unknown hinfo] at he
      | some info =>
        rw [SignalBus.unsubscribe_chain hinfo] at he
        split at he
        · exact (List.mem_filter.mp he).1
        · exact he
    · rwa [SignalBus.unsubscribe_wildcards] at he
  | dispatch thread msgType => exact h.dispatch thread msgType
  | handle thread answer => exact h.handle thread answer
  | returns answer => exact h.returns answer

theorem CApi.guarded_new : ({} : CApi F C).Guarded where
  fair := trivial
  lock _ := rfl
  ended _ h := h.elim
  fresh n h := by simp at h
  half p hp := by simp at hp
  chains t e he := by simp [SignalBus.chain] at he
  wildcards t e he := by simp at he
  dispatches d hd := by simp at hd

theorem Fair.tail {x : CNote} {log : List CNote} (h : Fair (x :: log)) : Fair log := by
  cases x with
  | issued n t => exact h
  | called n thread t => exact h.2.2
  | returned n => exact h
  | gone n => exact h.2

theorem Fair.suffix {after before : List CNote} (h : Fair (after ++ before)) : Fair before := by
  induction after with
  | nil => exact h
  | cons x after ih => exact ih h.tail

/-- An end is for good. -/
theorem ended_append {n : Nat} {before : List CNote} (h : ended n before) (after : List CNote) :
    ended n (after ++ before) := by
  induction after with
  | nil => exact h
  | cons x after ih =>
    cases x with
    | gone m => exact Or.inr ih
    | _ => exact ih

theorem Fair.not_called {n : Nat} {after before : List CNote} (h : Fair (after ++ before))
    (he : ended n before) (thread : Nat) (t : UInt32) : .called n thread t ∉ after := by
  induction after with
  | nil => simp
  | cons x after ih =>
    intro hmem
    rcases List.mem_cons.mp hmem with rfl | hmem
    · exact h.2.1 (ended_append he after)
    · exact ih h.tail hmem

end

/-- Threads subscribe, unsubscribe and dispatch packets in any order, and C++ code changes the bus
as it likes: a callback is called only for packets of the type it was subscribed for; and once
`gn_core_unsubscribe` has returned for a token that had been drawn, no call of its callback is under
way and none begins, though its handler stays in the chain. -/
theorem unsubscribed_callback_silent {F C : Type} (steps : List (CStep F C)) :
    let log := (Interleaving.run CApi.act ({} : CApi F C) steps).log
    (∀ after before n thread t, log = after ++ .called n thread t :: before →
      .issued n t ∈ before) ∧
    ∀ after before n t, log = after ++ .gone n :: before → .issued n t ∈ before →
      running n before = 0 ∧ ∀ thread t', .called n thread t' ∉ after := by
  dsimp only
  have hinv := run_invariant (fun s a (hs : CApi.Guarded s) => hs.act a)
    (CApi.guarded_new (F := F) (C := C)) steps
  have hfair := hinv.fair
  constructor
  · intro after before n thread t hlog
    rw [hlog] at hfair
    exact hfair.suffix.1
  · intro after before n t hlog hissued
    rw [hlog] at hfair
    exact ⟨hfair.suffix.1,hfair.not_called (Or.inl ⟨rfl,t,hissued⟩)⟩

end GoodNet
