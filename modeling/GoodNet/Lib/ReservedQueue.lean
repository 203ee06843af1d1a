import GoodNet.Lib.Interleaving
set_option autoImplicit false

/-! A bounded queue that threads share. Its counter is an atomic outside the lock: a pusher
raises it first, looks whether the limit holds and only then puts its item in under the lock,
or takes the bytes back; a drainer takes items out and lowers it before it unlocks. -/

namespace ReservedQueue
open Interleaving

variable {α : Type}

def total (size : α → Nat) : List α → Nat
  | [] => 0
  | a :: l => size a+total size l

/-- A push between its steps, with the verdict on its reservation. -/
structure Push (α : Type) where
  thread : Nat
  item : α
  granted : Bool
  deriving DecidableEq, Repr

/-- A drain that holds the lock, its batch out of the queue and still counted. -/
structure Drain (α : Type) where
  thread : Nat
  batch : List α
  deriving DecidableEq, Repr

/-- `accepted` are the items in the order they came in, `drained` the batches so far. -/
structure Queue (α : Type) where
  items : List α := []
  counter : Nat := 0
  pushing : List (Push α) := []
  leaving : Option (Drain α) := none
  accepted : List α := []
  drained : List (List α) := []
  deriving DecidableEq, Repr

inductive Step (α : Type) where
  | reserve (thread : Nat) (item : α)
  | rollBack (thread : Nat)
  | append (thread : Nat)
  | take (thread count : Nat)
  | settle (thread : Nat)

def Queue.busy (q : Queue α) (thread : Nat) : Bool :=
  q.pushing.any (fun p => p.thread == thread) || q.leaving.any (fun d => d.thread == thread)

def Queue.reserve (size : α → Nat) (limit : Nat) (q : Queue α) (thread : Nat) (item : α) :
    Queue α :=
  { q with counter := q.counter+size item,
           pushing := ⟨thread,item,decide (q.counter+size item ≤ limit)⟩ :: q.pushing }

/-- The pushes of a thread whose reservation was or was not within the limit. -/
def Push.of (thread : Nat) (granted : Bool) (p : Push α) : Bool :=
  p.thread == thread && p.granted == granted

/-- A step that its thread cannot take leaves everything as it is. -/
def Queue.act (size : α → Nat) (limit : Nat) (q : Queue α) : Step α → Queue α
  | .reserve thread item => if q.busy thread then q else q.reserve size limit thread item
  | .rollBack thread =>
    match pick (Push.of thread false) q.pushing with
    | none => q
    | some (p,rest) => { q with counter := q.counter-size p.item, pushing := rest }
  | .append thread =>
    match q.leaving, pick (Push.of thread true) q.pushing with
    | none, some (p,rest) =>
      { q with items := q.items ++ [p.item], pushing := rest, accepted := q.accepted ++ [p.item] }
    | _, _ => q
  | .take thread count =>
    match q.leaving with
    | none =>
      if q.busy thread then q
      else { q with items := q.items.drop count, leaving := some ⟨thread,q.items.take count⟩ }
    | some _ => q
  | .settle thread =>
    match q.leaving with
    | none => q
    | some d =>
      if d.thread = thread then
        { q with counter := q.counter-total size d.batch, leaving := none,
                 drained := q.drained ++ [d.batch] }
      else q

/-- The pushes that are open after a step: begun with the verdict of the counter they found, and
neither taken back nor put in. -/
def Queue.opens (size : α → Nat) (limit : Nat) (q : Queue α) (opened : List (Push α)) :
    Step α → List (Push α)
  | .reserve thread item =>
    if opened.any (fun p => p.thread == thread) || q.leaving.any (fun d => d.thread == thread) then
      opened
    else ⟨thread,item,decide (q.counter+size item ≤ limit)⟩ :: opened
  | .rollBack thread => ((pick (Push.of thread false) opened).map Prod.snd).getD opened
  | .append thread =>
    match q.leaving, pick (Push.of thread true) opened with
    | none, some (_,rest) => rest
    | _, _ => opened
  | .take .. | .settle _ => opened

/-- What a step lets in: with the lock free, the item of an open push that was granted. -/
def Queue.lets (q : Queue α) (opened : List (Push α)) : Step α → List α
  | .append thread =>
    match q.leaving, pick (Push.of thread true) opened with
    | none, some (p,_) => [p.item]
    | _, _ => []
  | .reserve .. | .rollBack _ | .take .. | .settle _ => []

/-- What a run lets in, read off its steps. -/
def Queue.letIn (size : α → Nat) (limit : Nat) : Queue α → List (Push α) → List (Step α) → List α
  | _, _, [] => []
  | q, opened, a :: steps =>
    q.lets opened a ++ letIn size limit (q.act size limit a) (q.opens size limit opened a) steps

/-- What a drain has taken out and not yet subtracted. -/
def Queue.taken (q : Queue α) : List α := (q.leaving.map Drain.batch).getD []

/-- What pushers have added to the counter and not yet put in. -/
def Queue.reserved (q : Queue α) : List α := q.pushing.map Push.item

/-- The part of it that is within the limit. -/
def Queue.granted (q : Queue α) : List α :=
  (q.pushing.filter (fun p => p.granted)).map Push.item

/-- The counter is the bytes of everything there and reserved, what was let in is within the
limit, and nothing is lost or doubled. -/
structure Queue.Sound (size : α → Nat) (limit : Nat) (q : Queue α) : Prop where
  counted : q.counter = total size q.items+total size q.reserved+total size q.taken
  bounded : total size q.items+total size q.granted+total size q.taken ≤ limit
  kept : q.drained.flatten ++ q.taken ++ q.items = q.accepted

section
variable {size : α → Nat} {limit : Nat} {q : Queue α}

@[simp] theorem total_nil : total size [] = 0 := rfl

@[simp] theorem total_cons (a : α) (l : List α) : total size (a :: l) = size a+total size l := rfl

@[simp] theorem total_append (a b : List α) : total size (a ++ b) = total size a+total size b := by
  induction a with
  | nil => simp
  | cons x a ih => simp [ih,Nat.add_assoc]

theorem size_le_total {a : α} {l : List α} (h : a ∈ l) : size a ≤ total size l := by
  induction l with
  | nil => cases h
  | cons b l ih =>
    rw [total_cons]
    rcases List.mem_cons.mp h with rfl | h
    · omega
    · have hle := ih h
      omega

theorem total_take_drop (size : α → Nat) (n : Nat) (l : List α) :
    total size (l.take n)+total size (l.drop n) = total size l := by
  rw [← total_append,List.take_append_drop]

theorem total_filter_le (p : Push α → Bool) (l : List (Push α)) :
    total size ((l.filter p).map Push.item) ≤ total size (l.map Push.item) := by
  induction l with
  | nil => simp
  | cons a l ih =>
    cases h : p a with
    | true => simp [h,ih]
    | false =>
      simp [h]
      omega

/-- A thread's push leaves the list of pushes. -/
theorem Queue.pushing_pick (size : α → Nat) {thread : Nat} {verdict : Bool} {p : Push α}
    {rest : List (Push α)}
    (h : pick (Push.of thread verdict) q.pushing = some (p,rest)) :
    p.thread = thread ∧ p.granted = verdict ∧
      total size q.reserved = size p.item+total size (rest.map Push.item) ∧
      total size q.granted = (if verdict then size p.item else 0)+
        total size ((rest.filter (fun p => p.granted)).map Push.item) := by
  obtain ⟨hp,l₁,l₂,hl,rfl⟩ := pick_some h
  simp only [Push.of,Bool.and_eq_true,beq_iff_eq] at hp
  obtain ⟨hthread,hgranted⟩ := hp
  refine ⟨hthread,hgranted,?_,?_⟩
  · rw [reserved,hl]
    simp
    omega
  · rw [granted,hl]
    cases verdict with
    | true =>
      simp [hgranted]
      omega
    | false => simp [hgranted]

theorem Queue.Sound.reserve (h : q.Sound size limit) (thread : Nat) (item : α) :
    (q.reserve size limit thread item).Sound size limit := by
  obtain ⟨hcount,hbound,hkept⟩ := h
  have hle : total size q.granted ≤ total size q.reserved := total_filter_le _ _
  refine ⟨?_,?_,hkept⟩
  · show q.counter+size item =
      total size q.items+(size item+total size q.reserved)+total size q.taken
    omega
  · show total size q.items+total size (Queue.granted (q.reserve size limit thread item))+
      total size q.taken ≤ limit
    by_cases hfit : q.counter+size item ≤ limit
    · have hgranted : Queue.granted (q.reserve size limit thread item) = item :: q.granted := by
        simp [granted,Queue.reserve,hfit]
      rw [hgranted,total_cons]
      omega
    · have hgranted : Queue.granted (q.reserve size limit thread item) = q.granted := by
        simp [granted,Queue.reserve,hfit]
      rw [hgranted]
      exact hbound

theorem Queue.Sound.act (h : q.Sound size limit) (a : Step α) :
    (q.act size limit a).Sound size limit := by
  cases a with
  | reserve thread item =>
    simp only [Queue.act]
    split
    · exact h
    · exact h.reserve thread item
  | rollBack thread =>
    simp only [Queue.act]
    split
    · exact h
    · rename_i p rest hpick
      obtain ⟨_,_,hreserved,hgranted⟩ := pushing_pick size hpick
      obtain ⟨hcount,hbound,hkept⟩ := h
      refine ⟨?_,?_,hkept⟩
      · show q.counter-size p.item =
          total size q.items+total size (rest.map Push.item)+total size q.taken
        omega
      · show total size q.items+total size ((rest.filter (fun p => p.granted)).map Push.item)+
          total size q.taken ≤ limit
        simp at hgranted
        omega
  | append thread =>
    simp only [Queue.act]
    split
    · rename_i p rest hfree hpick
      obtain ⟨_,_,hreserved,hgranted⟩ := pushing_pick size hpick
      obtain ⟨hcount,hbound,hkept⟩ := h
      have htaken : q.taken = [] := by simp [taken,hfree]
      refine ⟨?_,?_,?_⟩
      · show q.counter = total size (q.items ++ [p.item])+total size (rest.map Push.item)+
          total size q.taken
        simp
        omega
      · show total size (q.items ++ [p.item])+
          total size ((rest.filter (fun p => p.granted)).map Push.item)+total size q.taken ≤ limit
        simp at hgranted ⊢
        omega
      · show q.drained.flatten ++ q.taken ++ (q.items ++ [p.item]) = q.accepted ++ [p.item]
        rw [← List.append_assoc,hkept]
    · exact h
  | take thread count =>
    simp only [Queue.act]
    split
    · rename_i hfree
      split
      · exact h
      · obtain ⟨hcount,hbound,hkept⟩ := h
        have htaken : q.taken = [] := by simp [taken,hfree]
        have hsplit := total_take_drop size count q.items
        rw [htaken] at hcount hbound hkept
        refine ⟨?_,?_,?_⟩
        · show q.counter = total size (q.items.drop count)+total size q.reserved+
            total size (q.items.take count)
          simp at hcount
          omega
        · show total size (q.items.drop count)+total size q.granted+
            total size (q.items.take count) ≤ limit
          simp at hbound
          omega
        · show q.drained.flatten ++ q.items.take count ++ q.items.drop count = q.accepted
          rw [List.append_assoc,List.take_append_drop]
          simpa using hkept
    · exact h
  | settle thread =>
    simp only [Queue.act]
    split
    · exact h
    · rename_i d hleaving
      split
      · obtain ⟨hcount,hbound,hkept⟩ := h
        have htaken : q.taken = d.batch := by simp [taken,hleaving]
        rw [htaken] at hcount hbound hkept
        refine ⟨?_,?_,?_⟩
        · show q.counter-total size d.batch = total size q.items+total size q.reserved+0
          omega
        · show total size q.items+total size q.granted+0 ≤ limit
          omega
        · show (q.drained ++ [d.batch]).flatten ++ [] ++ q.items = q.accepted
          simpa using hkept
      · exact h

theorem Queue.act_opens (size : α → Nat) (limit : Nat) (q : Queue α) (a : Step α) :
    (q.act size limit a).pushing = q.opens size limit q.pushing a ∧
      (q.act size limit a).accepted = q.accepted ++ q.lets q.pushing a := by
  cases a with
  | reserve thread item =>
    simp only [act,opens,lets,List.append_nil]
    split
    · rename_i hbusy
      exact ⟨(if_pos hbusy).symm,rfl⟩
    · rename_i hbusy
      exact ⟨(if_neg hbusy).symm,rfl⟩
  | rollBack thread =>
    simp only [act,opens,lets,List.append_nil]
    cases pick (Push.of thread false) q.pushing with
    | none => exact ⟨rfl,rfl⟩
    | some found => exact ⟨rfl,rfl⟩
  | append thread =>
    simp only [act,opens,lets]
    split
    · exact ⟨rfl,rfl⟩
    · exact ⟨rfl,by simp⟩
  | take thread count =>
    simp only [act,opens,lets,List.append_nil]
    split
    · split
      · exact ⟨rfl,rfl⟩
      · exact ⟨rfl,rfl⟩
    · exact ⟨rfl,rfl⟩
  | settle thread =>
    simp only [act,opens,lets,List.append_nil]
    split
    · exact ⟨rfl,rfl⟩
    · split
      · exact ⟨rfl,rfl⟩
      · exact ⟨rfl,rfl⟩

/-- What has been accepted is what the run let in. -/
theorem Queue.accepted_run (size : α → Nat) (limit : Nat) (q : Queue α) (steps : List (Step α)) :
    (run (Queue.act size limit) q steps).accepted =
      q.accepted ++ q.letIn size limit q.pushing steps := by
  induction steps generalizing q with
  | nil => simp [run,letIn]
  | cons a steps ih =>
    obtain ⟨hopens,hlets⟩ := q.act_opens size limit a
    have hrest := ih (q.act size limit a)
    rw [hopens,hlets,List.append_assoc] at hrest
    exact hrest

theorem Queue.Sound.start : (Queue.Sound size limit ({} : Queue α)) :=
  ⟨rfl,Nat.zero_le _,rfl⟩

end

end ReservedQueue
