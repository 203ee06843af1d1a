import GoodNet.SendPipeline
set_option autoImplicit false

/-! `send_queues_` while records come and go. A call of `send_frame` looks its record up when
it builds the frame and its queue afterwards; `handle_disconnect` and the removal of a
duplicate erase the record first and the queue afterwards. Queues are shared objects: a thread
keeps the one it has got, whatever becomes of its entry. -/

namespace GoodNet
open Codec Interleaving

/-- How far a call of `send_frame` has come. -/
inductive SendPhase where
  | built (frame : Bytes)
  | holds (object : Nat) (frame : Bytes)
  | pushed (object : Nat)
  deriving DecidableEq, Repr

structure SendFrameCall where
  thread : Nat
  id : Nat
  phase : SendPhase
  deriving DecidableEq, Repr

/-- A removal that has found its record; `recordGone` once it has erased it. -/
structure Removal where
  thread : Nat
  id : Nat
  recordGone : Bool := false
  deriving DecidableEq, Repr

/-- `sendQueues` names the queue objects, which live on in `objects`. -/
structure QueueTable where
  records : Table Nat ConnectionRecord := ∅
  sendQueues : Table Nat Nat := ∅
  objects : Table Nat PerConnQueue := ∅
  nextId : Nat := 1
  nextObject : Nat := 0
  shuttingDown : Bool := false
  sending : List SendFrameCall := []
  removing : List Removal := []

inductive TableStep where
  | connect (record : ConnectionRecord)
  | shutDown
  | build (thread id : Nat) (msgType : UInt32) (payload : Bytes)
  | getQueue (thread : Nat)
  | push (thread : Nat)
  | flush (thread : Nat)
  | remove (thread id : Nat)
  | eraseRecord (thread : Nat)
  | eraseQueue (thread : Nat)
  deriving DecidableEq, Repr

/-- A thread that is inside no call of `send_frame`. -/
def QueueTable.idle (t : QueueTable) (thread : Nat) : Bool :=
  t.sending.all (fun s => s.thread != thread)

def QueueTable.object (t : QueueTable) (object : Nat) : PerConnQueue :=
  (t.objects.lookup object).getD {}

/-- A new queue object under an id. -/
def QueueTable.newQueue (t : QueueTable) (id : Nat) : QueueTable :=
  { t with
    sendQueues := t.sendQueues.insert id t.nextObject,
    objects := t.objects.insert t.nextObject {},
    nextObject := t.nextObject+1 }

/-- `get_or_create_queue`. -/
def QueueTable.getOrCreateQueue (t : QueueTable) (id : Nat) : QueueTable × Nat :=
  match t.sendQueues.lookup id with
  | some object => (t,object)
  | none => (t.newQueue id,t.nextObject)

/-- A step that its thread cannot take leaves everything as it is. -/
def QueueTable.act (S : Sodium) (Z : Zstd) (c : Compression) (t : QueueTable) :
    TableStep → QueueTable
  | .connect r =>
    ({ t with records := t.records.insert t.nextId r, nextId := t.nextId+1 } : QueueTable).newQueue
      t.nextId
  | .shutDown => { t with shuttingDown := true }
  | .build thread id msgType payload =>
    match t.records.lookup id with
    | none => t
    | some r =>
      if !t.shuttingDown && t.idle thread then
        { t with
          records := t.records.insert id r.takePacketId,
          sending := ⟨thread,id,.built (r.frame S Z c msgType payload)⟩ :: t.sending }
      else t
  | .getQueue thread =>
    match pick (fun s => s.thread == thread) t.sending with
    | some (⟨_,id,.built frame⟩,rest) =>
      let got := t.getOrCreateQueue id
      { got.1 with sending := ⟨thread,id,.holds got.2 frame⟩ :: rest }
    | _ => t
  | .push thread =>
    match pick (fun s => s.thread == thread) t.sending with
    | some (⟨_,id,.holds object frame⟩,rest) =>
      let pushed := (t.object object).tryPush frame
      { t with
        objects := t.objects.insert object pushed.1,
        sending := if pushed.2 then ⟨thread,id,.pushed object⟩ :: rest else rest }
    | _ => t
  | .flush thread =>
    match pick (fun s => s.thread == thread) t.sending with
    | some (⟨_,id,.pushed object⟩,rest) =>
      match t.shuttingDown, t.records.lookup id with
      | false, some _ =>
        { t with
          objects := t.objects.insert object ((t.object object).drainBatch flushBatch).1,
          sending := rest }
      | _, _ => { t with sending := rest }
    | _ => t
  | .remove thread id =>
    match t.records.lookup id with
    | none => t
    | some _ => { t with removing := ⟨thread,id,false⟩ :: t.removing }
  | .eraseRecord thread =>
    match pick (fun r => r.thread == thread && !r.recordGone) t.removing with
    | none => t
    | some (r,rest) =>
      { t with records := t.records.erase r.id, removing := ⟨thread,r.id,true⟩ :: rest }
  | .eraseQueue thread =>
    match pick (fun r => r.thread == thread && r.recordGone) t.removing with
    | none => t
    | some (r,rest) => { t with sendQueues := t.sendQueues.erase r.id, removing := rest }

def QueueTable.run (S : Sodium) (Z : Zstd) (c : Compression) (t : QueueTable)
    (steps : List TableStep) : QueueTable :=
  Interleaving.run (QueueTable.act S Z c) t steps

/-- No operation is in progress. -/
def QueueTable.atRest (t : QueueTable) : Bool := t.sending.isEmpty && t.removing.isEmpty

/-- `get_pending_bytes()`: the total that `send` holds against the global limit. -/
def QueueTable.getPendingBytes (t : QueueTable) : Nat :=
  (t.sendQueues.entries.map (fun e => (t.object e.2).pendingBytes)).sum

/-- Every queue that is counted belongs to a live record. -/
structure QueueTable.Clean (t : QueueTable) : Prop where
  live : ∀ id ∈ t.sendQueues, id ∈ t.records
  none : t.records = ∅ → t.getPendingBytes = 0

/-- A queue is made only for a record that is there, or that is being removed by somebody who
has yet to erase its queue. -/
def QueueTable.Timely (t : QueueTable) : TableStep → Prop
  | .getQueue thread =>
    ∀ s ∈ t.sending, s.thread = thread →
      s.id ∈ t.sendQueues ∨ s.id ∈ t.records ∨ s.id ∈ t.removing.map Removal.id
  | _ => True

instance (t : QueueTable) : (a : TableStep) → Decidable (t.Timely a)
  | .getQueue thread =>
    inferInstanceAs (Decidable (∀ s ∈ t.sending, s.thread = thread →
      s.id ∈ t.sendQueues ∨ s.id ∈ t.records ∨ s.id ∈ t.removing.map Removal.id))
  | .connect _ | .shutDown | .build .. | .push _ | .flush _ | .remove .. | .eraseRecord _
  | .eraseQueue _ => inferInstanceAs (Decidable True)

/-- A queue whose record is gone is about to go as well. -/
def QueueTable.Kept (t : QueueTable) : Prop :=
  ∀ id ∈ t.sendQueues, id ∈ t.records ∨ id ∈ t.removing.map Removal.id

section
variable {S : Sodium} {Z : Zstd} {c : Compression} {t : QueueTable}

theorem QueueTable.Kept.newQueue (h : t.Kept) {id : Nat}
    (hid : id ∈ t.records ∨ id ∈ t.removing.map Removal.id) : (t.newQueue id).Kept := by
  intro j hj
  rcases (AList.mem_insert _).mp hj with rfl | hj
  · exact hid
  · exact h j hj

theorem QueueTable.Kept.act (h : t.Kept) (a : TableStep) (ha : t.Timely a) :
    (t.act S Z c a).Kept := by
  cases a with
  | connect r =>
    refine Kept.newQueue (fun j hj => ?_) (Or.inl ((AList.mem_insert _).mpr (Or.inl rfl)))
    exact (h j hj).imp_left (fun hr => (AList.mem_insert _).mpr (Or.inr hr))
  | shutDown => exact h
  | build thread id msgType payload =>
    simp only [QueueTable.act]
    split
    · exact h
    · split
      · exact fun j hj => (h j hj).imp_left (fun hr => (AList.mem_insert _).mpr (Or.inr hr))
      · exact h
  | getQueue thread =>
    simp only [QueueTable.act]
    split
    · rename_i s id frame rest hpick
      obtain ⟨hs,l₁,l₂,hl,_⟩ := pick_some hpick
      have hin : ⟨s,id,.built frame⟩ ∈ t.sending := by simp [hl]
      have hid := ha ⟨s,id,.built frame⟩ hin (by simpa using hs)
      simp only [getOrCreateQueue]
      split
      · exact h
      · rename_i hnone
        have hnot : id ∉ t.sendQueues := AList.lookup_eq_none.mp hnone
        exact h.newQueue (hid.resolve_left hnot)
    · exact h
  | push thread =>
    simp only [QueueTable.act]
    split
    · exact h
    · exact h
  | flush thread =>
    simp only [QueueTable.act]
    split
    · split
      · exact h
      · exact h
    · exact h
  | remove thread id =>
    simp only [QueueTable.act]
    split
    · exact h
    · exact fun j hj => (h j hj).imp_right (List.mem_cons_of_mem id)
  | eraseRecord thread =>
    simp only [QueueTable.act]
    split
    · exact h
    · rename_i r rest hpick
      obtain ⟨_,l₁,l₂,hl,rfl⟩ := pick_some hpick
      intro j hj
      show j ∈ t.records.erase r.id ∨ j ∈ r.id :: (l₁ ++ l₂).map Removal.id
      by_cases he : j = r.id
      · exact Or.inr (he ▸ List.mem_cons_self)
      · rcases h j hj with hr | hr
        · exact Or.inl (AList.mem_erase.mpr ⟨he,hr⟩)
        · rw [hl] at hr
          simp only [List.map_append,List.map_cons,List.mem_append,List.mem_cons] at hr ⊢
          tauto
  | eraseQueue thread =>
    simp only [QueueTable.act]
    split
    · exact h
    · rename_i r rest hpick
      obtain ⟨_,l₁,l₂,hl,rfl⟩ := pick_some hpick
      intro j hj
      obtain ⟨he,hj⟩ := AList.mem_erase.mp hj
      rcases h j hj with hr | hr
      · exact Or.inl hr
      · rw [hl] at hr
        simp only [List.map_append,List.map_cons,List.mem_append,List.mem_cons] at hr ⊢
        tauto

end

/-- The table as the manager's state holds it, with the queues in place of their names. -/
structure QueueTable.Shows (t : QueueTable) (st : Impl) : Prop where
  records : t.records = st.records
  down : t.shuttingDown = st.shuttingDown
  queues : ∀ id, st.sendQueues.lookup id = (t.sendQueues.lookup id).map t.object
  named : ∀ id object, t.sendQueues.lookup id = some object → object < t.nextObject
  apart : ∀ i j object, t.sendQueues.lookup i = some object → t.sendQueues.lookup j = some object →
    i = j

section
variable {S : Sodium} {Z : Zstd} {c : Compression} {t : QueueTable} {st : Impl}

theorem QueueTable.Shows.object_eq (h : t.Shows st) {id object : Nat} {q : PerConnQueue}
    (hname : t.sendQueues.lookup id = some object) (hq : st.sendQueues.lookup id = some q) :
    t.object object = q := by
  have hshown := h.queues id
  rw [hq,hname] at hshown
  exact (Option.some.inj hshown).symm

/-- One queue gets new contents. -/
theorem QueueTable.Shows.setQueue (h : t.Shows st) {id object : Nat}
    (hid : t.sendQueues.lookup id = some object) (q : PerConnQueue) :
    ({ t with objects := t.objects.insert object q } : QueueTable).Shows (st.setQueue id q) := by
  refine ⟨h.records,h.down,fun j => ?_,h.named,h.apart⟩
  show (st.sendQueues.insert id q).lookup j = (t.sendQueues.lookup j).map
    (fun o => ((t.objects.insert object q).lookup o).getD {})
  by_cases hj : j = id
  · subst hj
    simp [hid]
  · rw [AList.lookup_insert_ne hj,h.queues j]
    cases ho : t.sendQueues.lookup j with
    | none => rfl
    | some o =>
      have hne : o ≠ object := fun he => hj (h.apart j id o ho (he ▸ hid))
      simp [QueueTable.object,AList.lookup_insert_ne hne]

theorem QueueTable.Shows.newQueue (h : t.Shows st) {id : Nat} (hid : t.sendQueues.lookup id = none) :
    (t.newQueue id).Shows (st.setQueue id {}) := by
  refine ⟨h.records,h.down,fun j => ?_,fun j o hj => ?_,fun i j o hi hj => ?_⟩
  · show (st.sendQueues.insert id {}).lookup j =
      ((t.sendQueues.insert id t.nextObject).lookup j).map
        (fun o => ((t.objects.insert t.nextObject {}).lookup o).getD {})
    by_cases hj : j = id
    · subst hj
      simp
    · rw [AList.lookup_insert_ne hj,AList.lookup_insert_ne hj,h.queues j]
      cases ho : t.sendQueues.lookup j with
      | none => rfl
      | some o =>
        have hne : o ≠ t.nextObject := Nat.ne_of_lt (h.named j o ho)
        simp [object,AList.lookup_insert_ne hne]
  · show o < t.nextObject+1
    simp only [QueueTable.newQueue] at hj
    by_cases he : j = id
    · subst he
      simp only [AList.lookup_insert,Option.some.injEq] at hj
      omega
    · rw [AList.lookup_insert_ne he] at hj
      exact Nat.lt_succ_of_lt (h.named j o hj)
  · simp only [QueueTable.newQueue] at hi hj
    by_cases hei : i = id
    · by_cases hej : j = id
      · rw [hei,hej]
      · subst hei
        rw [AList.lookup_insert_ne hej] at hj
        simp only [AList.lookup_insert,Option.some.injEq] at hi
        have hlt := h.named j o hj
        omega
    · rw [AList.lookup_insert_ne hei] at hi
      by_cases hej : j = id
      · subst hej
        simp only [AList.lookup_insert,Option.some.injEq] at hj
        have hlt := h.named i o hi
        omega
      · rw [AList.lookup_insert_ne hej] at hj
        exact h.apart i j o hi hj

/-- `get_or_create_queue` names the queue that the manager returns. -/
theorem QueueTable.Shows.getOrCreateQueue (h : t.Shows st) (id : Nat) :
    (t.getOrCreateQueue id).1.Shows (st.getOrCreateQueue id).1 ∧
      (t.getOrCreateQueue id).1.sendQueues.lookup id = some (t.getOrCreateQueue id).2 ∧
      (t.getOrCreateQueue id).1.object (t.getOrCreateQueue id).2 = (st.getOrCreateQueue id).2 := by
  simp only [QueueTable.getOrCreateQueue,Impl.getOrCreateQueue,h.queues id]
  cases ho : t.sendQueues.lookup id with
  | some object => exact ⟨h,ho,rfl⟩
  | none =>
    refine ⟨h.newQueue ho,?_,?_⟩
    · simp [QueueTable.newQueue]
    · simp [QueueTable.newQueue,object]

/-- A removal with nothing in between forgets the record and its queue as the manager does. -/
theorem QueueTable.Shows.remove_alone (h : t.Shows st) (hrest : t.atRest = true) (thread : Nat)
    {id : Nat} {r : ConnectionRecord} (hr : st.find id = some r) :
    (t.run S Z c [.remove thread id,.eraseRecord thread,.eraseQueue thread]).Shows
      (st.forgetPeer id r) := by
  simp only [QueueTable.atRest,Bool.and_eq_true,List.isEmpty_iff] at hrest
  have hfound : t.records.lookup id = some r := by
    rw [h.records]
    exact hr
  have hrun : t.run S Z c [.remove thread id,.eraseRecord thread,.eraseQueue thread] =
      { t with records := t.records.erase id, sendQueues := t.sendQueues.erase id } := by
    simp [run,Interleaving.run,act,hfound,hrest.2,pick]
  rw [hrun]
  have hlookup : ∀ j o, (t.sendQueues.erase id).lookup j = some o →
      t.sendQueues.lookup j = some o := by
    intro j o hj
    by_cases he : j = id
    · subst he
      rw [AList.lookup_erase] at hj
      cases hj
    · rwa [AList.lookup_erase_ne he] at hj
  refine ⟨by rw [h.records]; rfl,h.down,fun j => ?_,fun j o hj => h.named j o (hlookup j o hj),
    fun i j o hi hj => h.apart i j o (hlookup i o hi) (hlookup j o hj)⟩
  show (st.sendQueues.erase id).lookup j = ((t.sendQueues.erase id).lookup j).map t.object
  by_cases hj : j = id
  · subst hj
    simp
  · rw [AList.lookup_erase_ne hj,AList.lookup_erase_ne hj,h.queues j]

/-- `build_frame` takes a packet id of the record. -/
theorem QueueTable.Shows.build (h : t.Shows st) (env : Env) {thread id : Nat} {r : ConnectionRecord}
    (hr : st.find id = some r) (hdown : st.shuttingDown = false) (hidle : t.idle thread = true)
    (msgType : UInt32) (payload : Bytes) :
    (t.act env.sodium env.zstd st.compression (.build thread id msgType payload)).Shows
        (st.buildFrame env id msgType payload).1 ∧
      (t.act env.sodium env.zstd st.compression (.build thread id msgType payload)).sending =
        ⟨thread,id,.built (st.buildFrame env id msgType payload).2⟩ :: t.sending := by
  have hfound : t.records.lookup id = some r := by
    rw [h.records]
    exact hr
  have hup : t.shuttingDown = false := by rw [h.down,hdown]
  simp only [act,hfound,hup,hidle,Bool.not_false,Bool.and_self,ite_true,Impl.buildFrame,hr]
  refine ⟨⟨?_,hdown.symm,h.queues,h.named,h.apart⟩,trivial⟩
  simp only [Impl.modify,hr,h.records]

theorem QueueTable.Shows.getQueue (h : t.Shows st) {thread id : Nat} {frame : Bytes}
    {rest : List SendFrameCall}
    (hpick : pick (fun s => s.thread == thread) t.sending = some (⟨thread,id,.built frame⟩,rest)) :
    (t.act S Z c (.getQueue thread)).Shows (st.getOrCreateQueue id).1 ∧
      ∃ object, (t.act S Z c (.getQueue thread)).sending = ⟨thread,id,.holds object frame⟩ :: rest ∧
        (t.act S Z c (.getQueue thread)).sendQueues.lookup id = some object := by
  obtain ⟨hgot,hname,_⟩ := h.getOrCreateQueue id
  simp only [act,hpick]
  exact ⟨⟨hgot.records,hgot.down,hgot.queues,hgot.named,hgot.apart⟩,_,rfl,hname⟩

/-- A push onto the queue that the connection still has is a push of the manager. -/
theorem QueueTable.Shows.push (h : t.Shows st) {thread id object : Nat} {frame : Bytes}
    {rest : List SendFrameCall} {q : PerConnQueue}
    (hpick : pick (fun s => s.thread == thread) t.sending =
      some (⟨thread,id,.holds object frame⟩,rest))
    (hname : t.sendQueues.lookup id = some object) (hq : st.sendQueues.lookup id = some q) :
    (t.act S Z c (.push thread)).Shows (st.setQueue id (q.tryPush frame).1) ∧
      (t.act S Z c (.push thread)).sending =
        if (q.tryPush frame).2 then ⟨thread,id,.pushed object⟩ :: rest else rest := by
  have hobject := h.object_eq hname hq
  have hset := h.setQueue hname (q.tryPush frame).1
  simp only [act,hpick,hobject]
  exact ⟨⟨hset.records,hset.down,hset.queues,hset.named,hset.apart⟩,trivial⟩

/-- A flush of the queue that the connection still has drains what `flush_queue` drains. -/
theorem QueueTable.Shows.flush (h : t.Shows st) {thread id object : Nat}
    {rest : List SendFrameCall} {q : PerConnQueue} {r : ConnectionRecord}
    (hpick : pick (fun s => s.thread == thread) t.sending = some (⟨thread,id,.pushed object⟩,rest))
    (hname : t.sendQueues.lookup id = some object) (hq : st.sendQueues.lookup id = some q)
    (hr : st.find id = some r) (hdown : st.shuttingDown = false) :
    (t.act S Z c (.flush thread)).Shows (st.setQueue id (q.drainBatch flushBatch).1) := by
  have hobject := h.object_eq hname hq
  have hfound : t.records.lookup id = some r := by
    rw [h.records]
    exact hr
  have hup : t.shuttingDown = false := by rw [h.down,hdown]
  have hset := h.setQueue hname (q.drainBatch flushBatch).1
  simp only [act,hpick,hobject,hup,hfound]
  exact ⟨hset.records,hdown.symm,hset.queues,hset.named,hset.apart⟩

end

/-- In every run in which `get_or_create_queue` makes no queue for a record that is gone for
good, only live records have queues whenever no operation is in progress, and nothing is
counted once all connections are gone. -/
theorem queues_follow_records (S : Sodium) (Z : Zstd) (c : Compression) (steps : List TableStep)
    (h : Along (QueueTable.act S Z c) QueueTable.Timely {} steps)
    (hrest : (QueueTable.run S Z c {} steps).atRest = true) :
    (QueueTable.run S Z c {} steps).Clean := by
  have hkept : (QueueTable.run S Z c {} steps).Kept :=
    h.invariant (fun _ a hk ha => hk.act a ha) (fun id hid => by cases hid)
  generalize QueueTable.run S Z c {} steps = t at *
  simp only [QueueTable.atRest,Bool.and_eq_true,List.isEmpty_iff] at hrest
  have hlive : ∀ id ∈ t.sendQueues, id ∈ t.records := by
    intro id hid
    rcases hkept id hid with hr | hr
    · exact hr
    · rw [hrest.2] at hr
      cases hr
  refine ⟨hlive,fun hnone => ?_⟩
  have hempty : t.sendQueues.entries = [] := by
    rw [List.eq_nil_iff_forall_not_mem]
    intro e he
    have hmem := hlive e.1 (List.mem_map_of_mem he)
    rw [hnone] at hmem
    cases hmem
  rw [QueueTable.getPendingBytes,hempty]
  rfl

/-- The queue is looked up again before the removal gets to it. -/
def recreatedQueue : List TableStep :=
  [.connect establishedRecord,.build 1 1 msgTypeChat [104],.remove 2 1,.eraseRecord 2,
    .getQueue 1,.push 1,.eraseQueue 2,.flush 1]

set_option maxRecDepth 10000 in
theorem queues_follow_records_recreated :
    (QueueTable.run Sodium.sample Zstd.sample {} {} recreatedQueue).Clean ∧
    (QueueTable.run Sodium.sample Zstd.sample {} {} recreatedQueue).getPendingBytes = 0 := by
  refine ⟨?_,by decide +kernel⟩
  exact queues_follow_records Sodium.sample Zstd.sample {} recreatedQueue (by decide +kernel)
    (by decide +kernel)

/-- A send on the first connection while another thread removes it. -/
def leakedQueue : List TableStep :=
  [.connect establishedRecord,.build 1 1 msgTypeChat [104],.remove 2 1,.eraseRecord 2,
    .eraseQueue 2,.getQueue 1,.push 1,.flush 1]

set_option maxRecDepth 10000 in
/-- All calls have returned and no connection is left, but a queue is, and its bytes count. -/
theorem late_queue_leaks :
    (QueueTable.run Sodium.sample Zstd.sample {} {} leakedQueue).atRest = true ∧
    (QueueTable.run Sodium.sample Zstd.sample {} {} leakedQueue).records = ∅ ∧
    0 < (QueueTable.run Sodium.sample Zstd.sample {} {} leakedQueue).getPendingBytes ∧
    ¬ (QueueTable.run Sodium.sample Zstd.sample {} {} leakedQueue).Clean := by
  have hgone : (QueueTable.run Sodium.sample Zstd.sample {} {} leakedQueue).records = ∅ := by
    apply AList.ext
    exact List.isEmpty_iff.mp (by decide +kernel)
  have hleft : 0 < (QueueTable.run Sodium.sample Zstd.sample {} {} leakedQueue).getPendingBytes := by
    decide +kernel
  refine ⟨by decide +kernel,hgone,hleft,fun h => ?_⟩
  exact absurd (h.none hgone) (Nat.ne_of_gt hleft)

end GoodNet
