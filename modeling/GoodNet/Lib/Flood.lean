import Mathlib.Algebra.Order.BigOperators.Group.Finset
import Mathlib.Algebra.Order.BigOperators.Group.List
import Mathlib.Data.Finset.Card
import Mathlib.Data.Multiset.Basic
import Mathlib.Tactic.Common
set_option autoImplicit false

/-! Flooding: a node passes on the first copy it gets, with one hop less, and ignores the
others. Copies are delivered in any order. -/

namespace Flood

/-- A network of nodes with ports, where a node passes a copy on by some of its links but
never by the port left out, which is the one the copy came in on. -/
structure Mesh (V P : Type) where
  links : V → Finset P
  far : V → P → V × P
  far_link : ∀ v, ∀ p ∈ links v, (far v p).2 ∈ links (far v p).1
  far_far : ∀ v, ∀ p ∈ links v, far (far v p).1 (far v p).2 = (v,p)
  out : V → P → Finset P
  out_links : ∀ v i, out v i ⊆ links v
  out_ne : ∀ v i, i ∉ out v i
  /-- Nodes that keep what they get. -/
  ends : V → Bool

/-- A copy on its way to a port of a node. -/
structure Copy (V P : Type) where
  node : V
  port : P
  ttl : Nat
  deriving DecidableEq

structure State (V P : Type) where
  /-- The copies that were not ignored, newest first. -/
  taken : List (Copy V P)
  flight : Multiset (Copy V P)

def State.visited {V P : Type} (s : State V P) : List V := s.taken.map Copy.node

section
variable {V P : Type} (m : Mesh V P)

/-- The copies a node sends out. -/
def Mesh.spread (v : V) (i : P) (ttl : Nat) : Multiset (Copy V P) :=
  (m.out v i).val.map (fun p => ⟨(m.far v p).1,(m.far v p).2,ttl⟩)

def Mesh.forwards (c : Copy V P) : Multiset (Copy V P) :=
  if m.ends c.node then 0 else m.spread c.node c.port (c.ttl-1)

def Mesh.start (o : V) (i : P) (ttl : Nat) : State V P := ⟨[],m.spread o i ttl⟩

inductive Mesh.Step [DecidableEq V] [DecidableEq P] (s : State V P) : State V P → Prop where
  | ignore (c : Copy V P) (hc : c ∈ s.flight) (h : c.ttl = 0 ∨ c.node ∈ s.visited) :
      Step s ⟨s.taken,s.flight.erase c⟩
  | take (c : Copy V P) (hc : c ∈ s.flight) (ht : c.ttl ≠ 0) (hn : c.node ∉ s.visited) :
      Step s ⟨c :: s.taken,s.flight.erase c+m.forwards c⟩

/-- A copy that the origin or a node on the way has sent. -/
def Mesh.Sent (o : V) (i : P) (ttl : Nat) (taken : List (Copy V P)) (c : Copy V P) : Prop :=
  c ∈ m.spread o i ttl ∨ ∃ b ∈ taken, c ∈ m.forwards b

/-- The nodes entered on a way through the network. -/
inductive Mesh.Walk : V → List V → V → Prop where
  | stay (v : V) : Walk v [] v
  | step {u w : V} {l : List V} (p : P) (hp : p ∈ m.links u) (h : Walk (m.far u p).1 l w) :
      Walk u ((m.far u p).1 :: l) w

/-- A flood that started at `o`: each node is visited once, by a copy whose way has entered
no node twice; and no copy gets lost. -/
structure Mesh.Sound (o : V) (i : P) (ttl : Nat) (s : State V P) : Prop where
  once : s.visited.Nodup
  flight : ∀ c ∈ s.flight, m.Sent o i ttl s.taken c
  sent : ∀ c, m.Sent o i ttl s.taken c → c ∈ s.flight ∨ c.ttl = 0 ∨ c.node ∈ s.visited
  origin : ∀ c ∈ s.taken, (m.far c.node c.port).1 = o ∨ (m.far c.node c.port).1 ∈ s.visited
  way : ∀ c ∈ s.taken, ∃ l, m.Walk o l c.node ∧ l.Nodup ∧ l ⊆ s.visited ∧
    c.ttl ≠ 0 ∧ c.ttl+l.length = ttl+1

end

section
variable {V P : Type} {m : Mesh V P} {u v w : V} {i : P} {ttl : Nat} {l : List V}

theorem Mesh.mem_spread {c : Copy V P} (h : c ∈ m.spread v i ttl) :
    ∃ p ∈ m.out v i, m.far v p = (c.node,c.port) ∧ c.ttl = ttl := by
  obtain ⟨p,hp,rfl⟩ := Multiset.mem_map.mp h
  exact ⟨p,hp,rfl,rfl⟩

theorem Mesh.spread_mem {p : P} (hp : p ∈ m.out v i) :
    ⟨(m.far v p).1,(m.far v p).2,ttl⟩ ∈ m.spread v i ttl :=
  Multiset.mem_map.mpr ⟨p,hp,rfl⟩

theorem Mesh.mem_forwards {b c : Copy V P} (h : c ∈ m.forwards b) :
    m.ends b.node = false ∧ c ∈ m.spread b.node b.port (b.ttl-1) := by
  unfold forwards at h
  cases he : m.ends b.node with
  | true => simp [he] at h
  | false => simpa [he] using h

theorem Mesh.Walk.append (h : m.Walk u l v) {l' : List V} (h' : m.Walk v l' w) :
    m.Walk u (l ++ l') w := by
  induction h with
  | stay => exact h'
  | step p hp _ ih => exact .step p hp (ih h')

theorem Mesh.Walk.single {p : P} (hp : p ∈ m.links v) : m.Walk v [(m.far v p).1] (m.far v p).1 :=
  .step p hp (.stay _)

/-- The rest of a walk, from a node it has entered. -/
theorem Mesh.Walk.suffix {l₁ l₂ : List V} (h : m.Walk u (l₁ ++ v :: l₂) w) : m.Walk v l₂ w := by
  induction l₁ generalizing u with
  | nil =>
    cases h with
    | step p hp h => exact h
  | cons x l₁ ih =>
    cases h with
    | step p hp h => exact ih h

/-- A walk without its loops. -/
theorem Mesh.Walk.simple (h : m.Walk u l w) :
    ∃ l', m.Walk u l' w ∧ (u :: l').Nodup ∧ l' ⊆ l := by
  induction h with
  | stay v => exact ⟨[],.stay v,by simp,by simp⟩
  | @step u w l p hp _ ih =>
    obtain ⟨l',hwalk,hnodup,hsub⟩ := ih
    by_cases hu : u ∈ (m.far u p).1 :: l'
    · -- the walk comes back: start where it does so last
      obtain ⟨l₁,l₂,hsplit⟩ := List.append_of_mem hu
      have hback : m.Walk u l₂ w := by
        have hlong : m.Walk u ((m.far u p).1 :: l') w := .step p hp hwalk
        rw [hsplit] at hlong
        exact hlong.suffix
      rw [hsplit] at hnodup
      refine ⟨l₂,hback,(List.nodup_append.mp hnodup).2.1,fun x hx => ?_⟩
      have hx' : x ∈ (m.far u p).1 :: l' := by
        rw [hsplit]
        simp [hx]
      exact (List.mem_cons.mp hx').elim (fun he => he ▸ List.mem_cons_self)
        (fun hl => List.mem_cons_of_mem _ (hsub hl))
    · refine ⟨(m.far u p).1 :: l',.step p hp hwalk,List.nodup_cons.mpr ⟨hu,hnodup⟩,?_⟩
      exact List.cons_subset_cons _ hsub

/-- Where a walk to the outside of a set leaves it for good. -/
theorem Mesh.Walk.leaves {A : Set V} (h : m.Walk u l w) (hw : w ∉ A) :
    (∀ x ∈ l, x ∉ A) ∨
      ∃ v ∈ A, ∃ p ∈ m.links v, ∃ l', m.Walk (m.far v p).1 l' w ∧
        ∀ x ∈ (m.far v p).1 :: l', x ∉ A := by
  induction h with
  | stay v => exact Or.inl (by simp)
  | @step u w l p hp hrest ih =>
    rcases ih hw with hout | hleaves
    · by_cases hin : (m.far u p).1 ∈ A
      · cases hrest with
        | stay => exact absurd hin hw
        | step q hq h => exact Or.inr ⟨_,hin,q,hq,_,h,hout⟩
      · left
        intro x hx
        rcases List.mem_cons.mp hx with rfl | hx
        · exact hin
        · exact hout x hx
    · exact Or.inr hleaves

end

section
variable {V P : Type} {m : Mesh V P} {o : V} {i : P} {ttl : Nat} {s s' : State V P}

theorem Mesh.sent_cons {taken : List (Copy V P)} {b c : Copy V P} :
    m.Sent o i ttl (b :: taken) c ↔ m.Sent o i ttl taken c ∨ c ∈ m.forwards b := by
  simp only [Sent,List.mem_cons,exists_eq_or_imp,or_assoc]
  rw [or_comm (b := c ∈ m.forwards b)]

/-- A copy that was sent has come over a link from its sender. -/
theorem Mesh.Sound.from_sender (h : m.Sound o i ttl s) {c : Copy V P}
    (hs : m.Sent o i ttl s.taken c) :
    ∃ v l, m.Walk o l v ∧ l.Nodup ∧ l ⊆ s.visited ∧ c.ttl+l.length = ttl ∧
      (m.far c.node c.port).1 = v ∧ (v = o ∨ v ∈ s.visited) ∧ m.Walk v [c.node] c.node := by
  rcases hs with hs | ⟨b,hb,hs⟩
  · obtain ⟨p,hp,hfar,rfl⟩ := mem_spread hs
    have hlink := m.out_links _ _ hp
    have hback := m.far_far o p hlink
    have hstep := Walk.single hlink
    rw [hfar] at hback hstep
    exact ⟨o,[],.stay o,by simp,by simp,by simp,congrArg Prod.fst hback,Or.inl rfl,hstep⟩
  · obtain ⟨_,hs⟩ := mem_forwards hs
    obtain ⟨p,hp,hfar,hc⟩ := mem_spread hs
    have hlink := m.out_links _ _ hp
    have hback := m.far_far b.node p hlink
    have hstep := Walk.single hlink
    rw [hfar] at hback hstep
    obtain ⟨l,hwalk,hnodup,hsub,hpos,hlen⟩ := h.way b hb
    exact ⟨b.node,l,hwalk,hnodup,hsub,by omega,congrArg Prod.fst hback,
      Or.inr (List.mem_map_of_mem hb),hstep⟩

theorem Mesh.Sound.start (o : V) (i : P) (ttl : Nat) : m.Sound o i ttl (m.start o i ttl) where
  once := by simp [State.visited,Mesh.start]
  flight := fun c hc => Or.inl hc
  sent := by
    rintro c (hc | ⟨b,hb,_⟩)
    · exact Or.inl hc
    · simp [Mesh.start] at hb
  origin := by simp [Mesh.start]
  way := by simp [Mesh.start]

variable [DecidableEq V] [DecidableEq P]

theorem Mesh.Sound.ignore (h : m.Sound o i ttl s) {c : Copy V P}
    (hc : c.ttl = 0 ∨ c.node ∈ s.visited) : m.Sound o i ttl ⟨s.taken,s.flight.erase c⟩ where
  once := h.once
  flight := fun b hb => h.flight b (Multiset.mem_of_mem_erase hb)
  sent := fun b hb => by
    by_cases hbc : b = c
    · exact Or.inr (hbc ▸ hc)
    · rcases h.sent b hb with hf | hrest
      · exact Or.inl ((Multiset.mem_erase_of_ne hbc).mpr hf)
      · exact Or.inr hrest
  origin := h.origin
  way := h.way

theorem Mesh.Sound.take (h : m.Sound o i ttl s) {c : Copy V P} (hc : c ∈ s.flight)
    (ht : c.ttl ≠ 0) (hn : c.node ∉ s.visited) :
    m.Sound o i ttl ⟨c :: s.taken,s.flight.erase c+m.forwards c⟩ := by
  have hvisited : State.visited ⟨c :: s.taken,s.flight.erase c+m.forwards c⟩ =
      c.node :: s.visited := rfl
  obtain ⟨v,l,hwalk,hnodup,hsub,hlen,hfrom,hv,hstep⟩ := h.from_sender (h.flight c hc)
  refine ⟨?_,?_,?_,?_,?_⟩
  · exact List.nodup_cons.mpr ⟨hn,h.once⟩
  · intro b hb
    rcases Multiset.mem_add.mp hb with hb | hb
    · exact sent_cons.mpr (Or.inl (h.flight b (Multiset.mem_of_mem_erase hb)))
    · exact sent_cons.mpr (Or.inr hb)
  · intro b hb
    rw [hvisited]
    rcases sent_cons.mp hb with hb | hb
    · by_cases hbc : b = c
      · exact Or.inr (Or.inr (by simp [hbc]))
      · rcases h.sent b hb with hf | hzero | hseen
        · exact Or.inl (Multiset.mem_add.mpr (Or.inl ((Multiset.mem_erase_of_ne hbc).mpr hf)))
        · exact Or.inr (Or.inl hzero)
        · exact Or.inr (Or.inr (List.mem_cons_of_mem _ hseen))
    · exact Or.inl (Multiset.mem_add.mpr (Or.inr hb))
  · intro b hb
    rw [hvisited]
    rcases List.mem_cons.mp hb with rfl | hb
    · rw [hfrom]
      exact hv.imp_right (List.mem_cons_of_mem _)
    · exact (h.origin b hb).imp_right (List.mem_cons_of_mem _)
  · intro b hb
    rw [hvisited]
    rcases List.mem_cons.mp hb with rfl | hb
    · refine ⟨l ++ [b.node],hwalk.append hstep,?_,?_,ht,?_⟩
      · refine List.nodup_append.mpr ⟨hnodup,by simp,?_⟩
        rintro x hx y hy rfl
        rw [List.mem_singleton] at hy
        exact hn (hy ▸ hsub hx)
      · intro x hx
        rcases List.mem_append.mp hx with hx | hx
        · exact List.mem_cons_of_mem _ (hsub hx)
        · exact List.mem_singleton.mp hx ▸ List.mem_cons_self
      · simp only [List.length_append,List.length_singleton]
        omega
    · obtain ⟨l,hwalk,hnodup,hsub,hpos,hlen⟩ := h.way b hb
      exact ⟨l,hwalk,hnodup,fun x hx => List.mem_cons_of_mem _ (hsub hx),hpos,hlen⟩

theorem Mesh.Step.sound (hstep : m.Step s s') (h : m.Sound o i ttl s) : m.Sound o i ttl s' := by
  cases hstep with
  | ignore c hc hi => exact h.ignore hi
  | take c hc ht hn => exact h.take hc ht hn

end

/-- How many copies have been sent. -/
def Mesh.sends {V P : Type} (m : Mesh V P) (o : V) (i : P) : List (Copy V P) → Nat
  | [] => (m.out o i).card
  | c :: taken => (m.forwards c).card+m.sends o i taken

section
variable {V P : Type} {m : Mesh V P} {o : V} {i : P} {ttl : Nat} {s : State V P}

theorem Mesh.forwards_card (c : Copy V P) : (m.forwards c).card ≤ (m.links c.node).card := by
  unfold forwards
  split
  · simp
  · rw [spread,Multiset.card_map]
    exact Finset.card_le_card (m.out_links _ _)

theorem Mesh.sends_le_visited [DecidableEq V] {taken : List (Copy V P)}
    (h : (taken.map Copy.node).Nodup) : m.sends o i taken ≤
      (m.links o).card+∑ v ∈ (taken.map Copy.node).toFinset, (m.links v).card := by
  induction taken with
  | nil => exact Finset.card_le_card (m.out_links o i)
  | cons c taken ih =>
    obtain ⟨hnew,hrest⟩ := List.nodup_cons.mp h
    have hsum := ih hrest
    have hc := forwards_card (m := m) c
    rw [sends,List.map_cons,List.toFinset_cons,Finset.sum_insert (by rwa [List.mem_toFinset])]
    omega

/-- Every node spreads the copy once, the origin once more. -/
theorem Mesh.Sound.sends_le [Fintype V] [DecidableEq V] (h : m.Sound o i ttl s) :
    m.sends o i s.taken ≤ (m.links o).card+∑ v, (m.links v).card :=
  (sends_le_visited h.once).trans
    (Nat.add_le_add_left (Finset.sum_le_sum_of_subset (Finset.subset_univ _)) _)

/-- A node that has the copy and is not the last one has sent it by every other link, or
straight to the destination, with the hops that are left. -/
theorem Mesh.Sound.passes_on (h : m.Sound o i ttl s) {d v : V} {p : P}
    (hends : ∀ v, m.ends v = true → v = d)
    (hcover : ∀ v j, ∀ p ∈ m.links v, p ≠ j → p ∈ m.out v j ∨ ∃ q ∈ m.out v j, (m.far v q).1 = d)
    (hi : i ∉ m.links o) (hv : v = o ∨ v ∈ s.visited) (hvd : v ≠ d) (hp : p ∈ m.links v)
    (hfar : (m.far v p).1 ≠ o ∧ (m.far v p).1 ∉ s.visited) :
    ∃ l q n, m.Walk o l v ∧ l.Nodup ∧ l ⊆ s.visited ∧ n+l.length = ttl ∧ q ∈ m.links v ∧
      ((m.far v q).1 = (m.far v p).1 ∨ (m.far v q).1 = d) ∧
      m.Sent o i ttl s.taken ⟨(m.far v q).1,(m.far v q).2,n⟩ := by
  have hpick : ∀ j, p ≠ j →
      ∃ q ∈ m.out v j, (m.far v q).1 = (m.far v p).1 ∨ (m.far v q).1 = d := by
    intro j hj
    rcases hcover v j p hp hj with hq | ⟨q,hq,hd⟩
    · exact ⟨p,hq,Or.inl rfl⟩
    · exact ⟨q,hq,Or.inr hd⟩
  rcases hv with rfl | hv
  · obtain ⟨q,hq,hto⟩ := hpick i (fun hpi => hi (hpi ▸ hp))
    exact ⟨[],q,ttl,.stay v,by simp,by simp,rfl,m.out_links _ _ hq,hto,Or.inl (spread_mem hq)⟩
  · obtain ⟨c,hc,rfl⟩ := List.mem_map.mp hv
    obtain ⟨l,hwalk,hnodup,hsub,hpos,hlen⟩ := h.way c hc
    -- it does not go back to where the copy came from, but that node has it already
    have hport : p ≠ c.port := by
      rintro rfl
      exact (h.origin c hc).elim hfar.1 hfar.2
    obtain ⟨q,hq,hto⟩ := hpick c.port hport
    have hgo : m.forwards c = m.spread c.node c.port (c.ttl-1) := by
      unfold forwards
      rw [if_neg (fun he => hvd (hends _ he))]
    exact ⟨l,q,c.ttl-1,hwalk,hnodup,hsub,by omega,m.out_links _ _ hq,hto,
      Or.inr ⟨c,hc,hgo ▸ spread_mem hq⟩⟩

/-- If no walk to the destination that enters each node at most once takes more hops than
there are, the flood arrives in whatever order the copies are delivered. -/
theorem Mesh.Sound.arrives (h : m.Sound o i ttl s) (hquiet : s.flight = 0) {d : V}
    (hends : ∀ v, m.ends v = true → v = d)
    (hcover : ∀ v j, ∀ p ∈ m.links v, p ≠ j → p ∈ m.out v j ∨ ∃ q ∈ m.out v j, (m.far v q).1 = d)
    (hi : i ∉ m.links o) (hod : o ≠ d) {l : List V} (hl : m.Walk o l d)
    (hshort : ∀ l, m.Walk o l d → l.Nodup → l.length ≤ ttl) : d ∈ s.visited := by
  by_contra hd
  have hout : d ∉ {v | v = o ∨ v ∈ s.visited} := by
    rintro (he | hs)
    · exact hod he.symm
    · exact hd hs
  -- the last node on the way that has the copy
  obtain ⟨v,hv,p,hp,l₂,hrest,havoid⟩ : ∃ v ∈ {v | v = o ∨ v ∈ s.visited}, ∃ p ∈ m.links v, ∃ l',
      m.Walk (m.far v p).1 l' d ∧
        ∀ x ∈ (m.far v p).1 :: l', x ∉ {v | v = o ∨ v ∈ s.visited} := by
    rcases hl.leaves hout with hall | hleaves
    · cases hl with
      | stay => exact absurd rfl hod
      | step p hp hrest => exact ⟨o,Or.inl rfl,p,hp,_,hrest,hall⟩
    · exact hleaves
  have hfar := not_or.mp (havoid _ List.mem_cons_self)
  obtain ⟨l₁,q,n,hwalk,hnodup,hsub,hlen,hq,hto,hsent⟩ := h.passes_on hends hcover hi hv
    (fun he => hout (he ▸ hv)) hp hfar
  -- the rest of the way, from the node the copy was sent to
  obtain ⟨l₃,hlast,hnodup₃,havoid₃⟩ : ∃ l₃, m.Walk (m.far v q).1 l₃ d ∧
      ((m.far v q).1 :: l₃).Nodup ∧ ∀ x ∈ (m.far v q).1 :: l₃, x ∉ s.visited := by
    rcases hto with hto | hto
    · obtain ⟨l₃,hlast,hnodup₃,hsub₃⟩ := hrest.simple
      rw [hto]
      exact ⟨l₃,hlast,hnodup₃,fun x hx hs =>
        havoid x (List.cons_subset_cons _ hsub₃ hx) (Or.inr hs)⟩
    · rw [hto]
      exact ⟨[],.stay d,by simp,by simpa using hd⟩
  have hzero : n = 0 := by
    rcases h.sent _ hsent with hf | hz | hs
    · rw [hquiet] at hf
      exact absurd hf (Multiset.notMem_zero _)
    · exact hz
    · exact absurd hs (havoid₃ _ List.mem_cons_self)
  have hlong := hshort (l₁ ++ (m.far v q).1 :: l₃) (hwalk.append (.step q hq hlast))
    (List.nodup_append.mpr ⟨hnodup,hnodup₃,fun x hx y hy he =>
      havoid₃ y hy (he ▸ hsub hx)⟩)
  simp only [List.length_append,List.length_cons] at hlong
  omega

end

end Flood
