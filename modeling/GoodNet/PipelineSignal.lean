import GoodNet.ManagerState
import GoodNet.Lib.Interleaving
import GoodNet.Lib.KeyOrder
set_option autoImplicit false

/-! `src/signals.cpp`: the chains of packet handlers. A chain is sorted anew with every handler
that comes in, `unsubscribe` knows a type and a name for an id, and a chain takes handlers out by
name. Ids are drawn from a 64-bit counter that never wraps, here a `Nat`. -/

namespace GoodNet
open KeyOrder Interleaving

/-- A handler in a chain. Nothing is known of what it calls. -/
structure ChainEntry (F : Type) where
  priority : UInt8
  name : String
  fn : F
  deriving DecidableEq, Repr

def ChainEntry.rank {F : Type} (e : ChainEntry F) : Nat := e.priority.toNat

structure PipelineSignal (F : Type) where
  handlers : List (ChainEntry F) := []

section
variable {F : Type}

def PipelineSignal.connect (p : PipelineSignal F) (priority : UInt8) (name : String) (fn : F) :
    PipelineSignal F where
  handlers := sortByKey ChainEntry.rank (p.handlers ++ [⟨priority,name,fn⟩])

def PipelineSignal.disconnect (p : PipelineSignal F) (name : String) : PipelineSignal F where
  handlers := p.handlers.filter (fun e => e.name != name)

/-- `emit`: the handlers it calls and its result. `answer n` is what the call with that number
returns; a handler may return something else each time. -/
def emitFrom (answer : Nat → ChainEntry F → Propagation) :
    Nat → List (ChainEntry F) → List (ChainEntry F) × EmitResult
  | _, [] => ([],{})
  | n, e :: rest =>
    match answer n e with
    | .carryOn => let r := emitFrom answer (n+1) rest; (e :: r.1,r.2)
    | .consumed => ([e],⟨.consumed,e.name⟩)
    | .reject => ([e],⟨.reject,e.name⟩)

end

structure SubInfo where
  msgType : UInt32
  name : String
  deriving DecidableEq, Repr

structure SignalBus (F : Type) where
  channels : Table UInt32 (PipelineSignal F) := ∅
  wildcards : PipelineSignal F := {}
  subMap : Table Nat SubInfo := ∅
  nextSubId : Nat := 1

section
variable {F : Type}

def SignalBus.subscribe (b : SignalBus F) (msgType : UInt32) (name : String) (cb : F)
    (prio : UInt8) : SignalBus F × Nat :=
  let ch := ((b.channels.lookup msgType).getD {}).connect prio name cb
  ({ b with
      nextSubId := b.nextSubId+1,
      subMap := b.subMap.insert b.nextSubId ⟨msgType,name⟩,
      channels := b.channels.insert msgType ch },b.nextSubId)

def SignalBus.subscribeWildcard (b : SignalBus F) (name : String) (cb : F) (prio : UInt8) :
    SignalBus F :=
  { b with wildcards := b.wildcards.connect prio name cb }

def SignalBus.unsubscribe (b : SignalBus F) (subId : Nat) : SignalBus F :=
  match b.subMap.lookup subId with
  | none => b
  | some info =>
    { b with
      channels :=
        match b.channels.lookup info.msgType with
        | none => b.channels
        | some ch => b.channels.insert info.msgType (ch.disconnect info.name),
      subMap := b.subMap.erase subId }

/-- The handlers that are called for a packet, and the result. -/
def SignalBus.dispatchPacket (b : SignalBus F) (answer : Nat → ChainEntry F → Propagation)
    (msgType : UInt32) : List (ChainEntry F) × EmitResult :=
  match b.channels.lookup msgType with
  | none => emitFrom answer 0 b.wildcards.handlers
  | some ch =>
    let r := emitFrom answer 0 ch.handlers
    if r.2.result ≠ .carryOn then r
    else
      let w := emitFrom answer r.1.length b.wildcards.handlers
      (r.1 ++ w.1,w.2)

/-- The handlers of one type. -/
def SignalBus.chain (b : SignalBus F) (msgType : UInt32) : List (ChainEntry F) :=
  ((b.channels.lookup msgType).getD {}).handlers

end

/-- A call to the bus that changes who is subscribed. -/
inductive BusStep (F : Type) where
  | subscribe (msgType : UInt32) (name : String) (cb : F) (prio : UInt8)
  | subscribeWildcard (name : String) (cb : F) (prio : UInt8)
  | unsubscribe (subId : Nat)

def SignalBus.act {F : Type} (b : SignalBus F) : BusStep F → SignalBus F
  | .subscribe msgType name cb prio => (b.subscribe msgType name cb prio).1
  | .subscribeWildcard name cb prio => b.subscribeWildcard name cb prio
  | .unsubscribe subId => b.unsubscribe subId

/-! What the bus is for: a list of subscriptions, in the order in which they were made. -/

/-- A wildcard has neither a type nor an id. -/
structure Subscription (F : Type) where
  msgType : Option UInt32
  id : Option Nat
  entry : ChainEntry F
  deriving DecidableEq, Repr

structure BusLedger (F : Type) where
  nextId : Nat := 1
  live : List (Subscription F) := []

section
variable {F : Type}

/-- A subscription ends when its own id is unsubscribed, and in no other way. -/
def BusLedger.act (l : BusLedger F) : BusStep F → BusLedger F
  | .subscribe msgType name cb prio =>
    ⟨l.nextId+1,l.live ++ [⟨some msgType,some l.nextId,⟨prio,name,cb⟩⟩]⟩
  | .subscribeWildcard name cb prio =>
    { l with live := l.live ++ [⟨none,none,⟨prio,name,cb⟩⟩] }
  | .unsubscribe subId => { l with live := l.live.filter (fun s => s.id != some subId) }

/-- The live subscriptions of a type, or the wildcards, as they were made. -/
def BusLedger.of (l : BusLedger F) (msgType : Option UInt32) : List (ChainEntry F) :=
  (l.live.filter (fun s => s.msgType == msgType)).map Subscription.entry

/-- By descending priority, and equal priorities as they were made. -/
def BusLedger.ordered (l : BusLedger F) (msgType : Option UInt32) : List (ChainEntry F) :=
  byKey ChainEntry.rank 256 (l.of msgType)

theorem SignalBus.subscribe_chain (b : SignalBus F) (msgType : UInt32) (name : String) (cb : F)
    (prio : UInt8) (t : UInt32) :
    (b.subscribe msgType name cb prio).1.chain t =
      if t = msgType then sortByKey ChainEntry.rank (b.chain t ++ [⟨prio,name,cb⟩])
      else b.chain t := by
  unfold chain subscribe
  split
  · rename_i ht
    rw [ht,AList.lookup_insert]
    rfl
  · rename_i ht
    rw [AList.lookup_insert_ne ht]

theorem SignalBus.unsubscribe_unknown {b : SignalBus F} {subId : Nat}
    (h : b.subMap.lookup subId = none) : b.unsubscribe subId = b := by
  simp [unsubscribe,h]

theorem SignalBus.unsubscribe_chain {b : SignalBus F} {subId : Nat} {info : SubInfo}
    (h : b.subMap.lookup subId = some info) (t : UInt32) :
    (b.unsubscribe subId).chain t =
      if t = info.msgType then (b.chain t).filter (fun e => e.name != info.name)
      else b.chain t := by
  simp only [unsubscribe,h,chain]
  cases hch : b.channels.lookup info.msgType with
  | none =>
    by_cases ht : t = info.msgType
    · subst ht
      simp [hch]
    · simp [ht]
  | some ch =>
    by_cases ht : t = info.msgType
    · subst ht
      simp [hch,PipelineSignal.disconnect]
    · simp [ht,AList.lookup_insert_ne ht]

theorem SignalBus.unsubscribe_subMap (b : SignalBus F) (subId : Nat) :
    (b.unsubscribe subId).subMap = b.subMap.erase subId := by
  cases h : b.subMap.lookup subId with
  | none =>
    rw [unsubscribe_unknown h]
    refine (AList.ext ?_).symm
    exact List.kerase_of_notMem_keys (AList.lookup_eq_none.1 h)
  | some info => simp [unsubscribe,h]

theorem SignalBus.unsubscribe_wildcards (b : SignalBus F) (subId : Nat) :
    (b.unsubscribe subId).wildcards = b.wildcards := by
  unfold unsubscribe
  split <;> rfl

theorem SignalBus.unsubscribe_nextSubId (b : SignalBus F) (subId : Nat) :
    (b.unsubscribe subId).nextSubId = b.nextSubId := by
  unfold unsubscribe
  split <;> rfl

/-- Handlers are called until one does not let the packet go on. -/
theorem emitFrom_append (answer : Nat → ChainEntry F → Propagation) (n : Nat)
    (first second : List (ChainEntry F)) :
    emitFrom answer n (first ++ second) =
      let r := emitFrom answer n first
      if r.2.result ≠ .carryOn then r
      else
        let w := emitFrom answer (n+r.1.length) second
        (r.1 ++ w.1,w.2) := by
  induction first generalizing n with
  | nil => simp [emitFrom]
  | cons e first ih =>
    cases ha : answer n e with
    | carryOn =>
      have hnext : n+((emitFrom answer (n+1) first).1.length+1) =
          n+1+(emitFrom answer (n+1) first).1.length := by omega
      simp only [List.cons_append,emitFrom,ha,ih,List.length_cons,hnext]
      split <;> rfl
    | consumed => simp [emitFrom,ha]
    | reject => simp [emitFrom,ha]

theorem SignalBus.dispatchPacket_eq (b : SignalBus F)
    (answer : Nat → ChainEntry F → Propagation) (msgType : UInt32) :
    b.dispatchPacket answer msgType =
      emitFrom answer 0 (b.chain msgType ++ b.wildcards.handlers) := by
  unfold dispatchPacket chain
  cases b.channels.lookup msgType with
  | none => rfl
  | some ch =>
    rw [emitFrom_append]
    simp

/-- The calls are the beginning of the list; they end with it, or with the first handler that
consumes or rejects the packet. -/
theorem emitFrom_spec (answer : Nat → ChainEntry F → Propagation) (n : Nat)
    (order : List (ChainEntry F)) :
    ∃ rest, order = (emitFrom answer n order).1 ++ rest ∧
      ((rest = [] ∧ (emitFrom answer n order).2 = {} ∧
          ∀ i e, (emitFrom answer n order).1[i]? = some e → answer (n+i) e = .carryOn) ∨
        ∃ before e, (emitFrom answer n order).1 = before ++ [e] ∧
          (∀ i e', before[i]? = some e' → answer (n+i) e' = .carryOn) ∧
          answer (n+before.length) e ≠ .carryOn ∧
          (emitFrom answer n order).2 = ⟨answer (n+before.length) e,e.name⟩) := by
  induction order generalizing n with
  | nil => exact ⟨[],rfl,.inl ⟨rfl,rfl,by simp [emitFrom]⟩⟩
  | cons e order ih =>
    cases ha : answer n e with
    | carryOn =>
      have hn : ∀ i, n+1+i = n+(i+1) := by omega
      -- the first call shifts all the others by one
      have hshift : ∀ called : List (ChainEntry F),
          (∀ i e', called[i]? = some e' → answer (n+1+i) e' = .carryOn) →
            ∀ i e', (e :: called)[i]? = some e' → answer (n+i) e' = .carryOn := by
        intro called hcalled i e' hi
        cases i with
        | zero =>
          simp only [List.getElem?_cons_zero,Option.some.injEq] at hi
          rw [← hi]
          exact ha
        | succ i =>
          rw [← hn]
          exact hcalled i e' (by simpa using hi)
      obtain ⟨rest,hsplit,hcases⟩ := ih (n+1)
      simp only [emitFrom,ha]
      refine ⟨rest,congrArg (List.cons e) hsplit,?_⟩
      rcases hcases with ⟨hrest,hres,hall⟩ | ⟨before,last,hcalled,hall,hstop,hres⟩
      · exact .inl ⟨hrest,hres,hshift _ hall⟩
      · refine .inr ⟨e :: before,last,by rw [hcalled]; rfl,hshift _ hall,?_⟩
        rw [List.length_cons,← hn]
        exact ⟨hstop,hres⟩
    | consumed =>
      refine ⟨order,by simp [emitFrom,ha],.inr ⟨[],e,by simp [emitFrom,ha],by simp,?_⟩⟩
      simp [emitFrom,ha]
    | reject =>
      refine ⟨order,by simp [emitFrom,ha],.inr ⟨[],e,by simp [emitFrom,ha],by simp,?_⟩⟩
      simp [emitFrom,ha]

end

end GoodNet
