import GoodNet.IceSession
import Mathlib.Data.List.Perm.Basic
import Mathlib.Data.List.Sort
import Mathlib.Data.Prod.Lex
set_option autoImplicit false

/-! The priorities of candidate pairs. Both agents compute them, with the priorities of a pair in
the other order and the other role, and sort their check lists by them. -/

namespace GoodNet.Ice

/-- The pair as the other agent sees it. -/
def CandidatePair.mirrored (p : CandidatePair) : CandidatePair :=
  { p with localCand := p.remoteCand, remoteCand := p.localCand }

/-- The priorities of a pair, the controlling agent's first. -/
def CandidatePair.priorities (p : CandidatePair) (weAreControlling : Bool) : Nat × Nat :=
  if weAreControlling then (p.localCand.priority.toNat,p.remoteCand.priority.toNat)
  else (p.remoteCand.priority.toNat,p.localCand.priority.toNat)

/-- 2^32 * MIN(G,D) + 2 * MAX(G,D) + (G > D ? 1 : 0) -/
def pairFormula (g d : Nat) : Nat := 2^32*min g d+2*max g d+(if d < g then 1 else 0)

/-- The smaller priority, then the larger one, then whether the controlling agent has it. -/
def pairRank (g d : Nat) : Nat ×ₗ Nat ×ₗ Bool :=
  toLex (min g d,toLex (max g d,decide (d < g)))

/-- The other agent has been told the candidates of this one, and this one those of the other. -/
structure Facing (s t : IceSession) : Prop where
  roles : t.controlling = !s.controlling
  theirs : t.localCandidates = s.remoteCandidates
  ours : t.remoteCandidates = s.localCandidates

theorem pairPriority_mirrored (a b : UInt32) (weAreControlling : Bool) :
    pairPriority b a (!weAreControlling) = pairPriority a b weAreControlling := by
  cases weAreControlling with
  | false => rfl
  | true => rfl

theorem computePriority_lt (type : CandidateType) (localPref : UInt16) :
    (computePriority type localPref).toNat < 2^31 := by
  have hpref := localPref.toNat_lt
  have htype : ((if type = .host then (126 : UInt32) else 100) <<< 24).toNat < 2^31 := by
    split
    · decide
    · decide
  have hshift : (localPref.toUInt32 <<< 8).toNat < 2^31 := by
    rw [UInt32.toNat_shiftLeft,UInt16.toNat_toUInt32]
    change localPref.toNat <<< 8%2^32 < 2^31
    rw [Nat.shiftLeft_eq]
    omega
  unfold computePriority
  dsimp only
  rw [UInt32.toNat_or,UInt32.toNat_or]
  exact Nat.or_lt_two_pow (Nat.or_lt_two_pow htype hshift) (by decide)

/-- 64 bits hold the formula but for one pair of priorities. -/
theorem pairFormula_lt {g d : Nat} (hg : g < 2^32) (hd : d < 2^32) (h : g < 2^32-1 ∨ d < 2^32-1) :
    pairFormula g d < 2^64 := by
  unfold pairFormula
  rcases Nat.le_total g d with hle | hle
  · rw [min_eq_left hle,max_eq_right hle,if_neg (Nat.not_lt.2 hle)]
    omega
  · rw [min_eq_right hle,max_eq_left hle]
    split
    · omega
    · omega

theorem wide_min (a b : UInt32) : (min a.toUInt64 b.toUInt64).toNat = min a.toNat b.toNat ∧
    (max a.toUInt64 b.toUInt64).toNat = max a.toNat b.toNat := by
  have hle : a.toUInt64 ≤ b.toUInt64 ↔ a.toNat ≤ b.toNat := by
    rw [UInt64.le_iff_toNat_le,UInt32.toNat_toUInt64,UInt32.toNat_toUInt64]
  change (if a.toUInt64 ≤ b.toUInt64 then a.toUInt64 else b.toUInt64).toNat = _ ∧
    (if a.toUInt64 ≤ b.toUInt64 then b.toUInt64 else a.toUInt64).toNat = _
  by_cases h : a.toNat ≤ b.toNat
  · rw [if_pos (hle.2 h),if_pos (hle.2 h),min_eq_left h,max_eq_right h]
    exact ⟨UInt32.toNat_toUInt64 a,UInt32.toNat_toUInt64 b⟩
  · have hba := Nat.le_of_not_le h
    rw [if_neg (mt hle.1 h),if_neg (mt hle.1 h),min_eq_right hba,max_eq_left hba]
    exact ⟨UInt32.toNat_toUInt64 b,UInt32.toNat_toUInt64 a⟩

/-- What is computed is the formula in 64 bits. -/
theorem pairPriority_toNat (a b : UInt32) (weAreControlling : Bool) :
    (pairPriority a b weAreControlling).toNat =
      (if weAreControlling then pairFormula a.toNat b.toNat else pairFormula b.toNat a.toNat)%2^64 := by
  have key : ∀ g d : UInt32, (((min g.toUInt64 d.toUInt64) <<< 32)+2*max g.toUInt64 d.toUInt64+
      (if d.toUInt64 < g.toUInt64 then 1 else 0)).toNat = pairFormula g.toNat d.toNat%2^64 := by
    intro g d
    have hg := g.toNat_lt
    have hd := d.toNat_lt
    obtain ⟨hmin,hmax⟩ := wide_min g d
    have hbit : (if d.toUInt64 < g.toUInt64 then (1 : UInt64) else 0).toNat =
        if d.toNat < g.toNat then 1 else 0 := by
      have hlt : d.toUInt64 < g.toUInt64 ↔ d.toNat < g.toNat := by
        rw [UInt64.lt_iff_toNat_lt,UInt32.toNat_toUInt64,UInt32.toNat_toUInt64]
      by_cases h : d.toNat < g.toNat
      · rw [if_pos h,if_pos (hlt.2 h)]
        rfl
      · rw [if_neg h,if_neg (mt hlt.1 h)]
        rfl
    have hshift : ((min g.toUInt64 d.toUInt64) <<< 32).toNat = 2^32*min g.toNat d.toNat := by
      rw [UInt64.toNat_shiftLeft,hmin]
      change min g.toNat d.toNat <<< 32%2^64 = _
      rw [Nat.shiftLeft_eq]
      omega
    have htwo : (2*max g.toUInt64 d.toUInt64).toNat = 2*max g.toNat d.toNat := by
      rw [UInt64.toNat_mul,hmax]
      change 2*max g.toNat d.toNat%2^64 = _
      omega
    rw [UInt64.toNat_add,UInt64.toNat_add,hshift,htwo,hbit,pairFormula,Nat.mod_add_mod]
  unfold pairPriority
  cases weAreControlling with
  | false => exact key b a
  | true => exact key a b

theorem pairFormula_lt_iff {g d g' d' : Nat} (hg : g < 2^31) (hd : d < 2^31) (hg' : g' < 2^31)
    (hd' : d' < 2^31) : pairFormula g d < pairFormula g' d' ↔ pairRank g d < pairRank g' d' := by
  have hbit : ∀ x y : Nat, (if y < x then 1 else 0) < 2 := by
    intro x y
    split
    · decide
    · decide
  have hlast : (decide (d < g) < decide (d' < g')) ↔
      (if d < g then 1 else 0) < (if d' < g' then 1 else 0) := by
    by_cases h : d < g
    · by_cases h' : d' < g'
      · simp [h,h']
      · simp [h,h']
    · by_cases h' : d' < g'
      · simp [h,h']
      · simp [h,h']
  have hb := hbit g d
  have hb' := hbit g' d'
  unfold pairFormula pairRank
  rw [Prod.Lex.toLex_lt_toLex,Prod.Lex.toLex_lt_toLex,hlast]
  have hm : max g d < 2^31 := by omega
  have hm' : max g' d' < 2^31 := by omega
  generalize (if d < g then 1 else 0) = b at *
  generalize (if d' < g' then 1 else 0) = b' at *
  generalize min g d = m at *
  generalize max g d = n at *
  generalize min g' d' = m' at *
  generalize max g' d' = n' at *
  omega

/-- A pair for each local candidate and each remote one of its family. -/
def IceSession.allPairs (s : IceSession) : List CandidatePair :=
  s.localCandidates.flatMap (fun l =>
    (s.remoteCandidates.filter (fun r => l.endpoint.ip.isV4 == r.endpoint.ip.isV4)).map (fun r =>
      { localCand := l, remoteCand := r,
        priority := pairPriority l.priority r.priority s.controlling }))

section
variable {s t : IceSession} {p q : CandidatePair}

theorem checkList_perm (s : IceSession) : s.formCheckList.checkList.Perm s.allPairs :=
  List.perm_insertionSort _ _

theorem checkList_mem (h : p ∈ s.formCheckList.checkList) :
    p.localCand ∈ s.localCandidates ∧ p.remoteCand ∈ s.remoteCandidates ∧
      p.priority = pairPriority p.localCand.priority p.remoteCand.priority s.controlling := by
  have hmem := (checkList_perm s).mem_iff.1 h
  unfold IceSession.allPairs at hmem
  obtain ⟨l,hl,hp⟩ := List.mem_flatMap.1 hmem
  obtain ⟨r,hr,rfl⟩ := List.mem_map.1 hp
  exact ⟨hl,(List.mem_filter.1 hr).1,rfl⟩

theorem perm_flatMap_swap {α β γ : Type} (xs : List α) (ys : List β) (f : α → β → List γ) :
    (xs.flatMap (fun x => ys.flatMap (f x))).Perm (ys.flatMap (fun y => xs.flatMap (f · y))) := by
  induction xs with
  | nil => simp
  | cons x xs ih =>
    simp only [List.flatMap_cons]
    exact (ih.append_left _).trans (List.flatMap_append_perm ys (f x) _)

theorem map_filter_flatMap {β γ : Type} (ys : List β) (keep : β → Bool) (f : β → γ) :
    (ys.filter keep).map f = ys.flatMap (fun y => if keep y then [f y] else []) := by
  induction ys with
  | nil => rfl
  | cons y ys ih =>
    cases hy : keep y with
    | false => simp [hy,ih]
    | true => simp [hy,ih]

/-- The check lists of two agents are the same pairs with the same priorities. -/
theorem Facing.checkList (h : Facing s t) :
    (t.formCheckList.checkList.map CandidatePair.mirrored).Perm s.formCheckList.checkList := by
  refine ((checkList_perm t).map _).trans (List.Perm.trans ?_ (checkList_perm s).symm)
  unfold IceSession.allPairs
  simp only [map_filter_flatMap,List.map_flatMap,h.theirs,h.ours,h.roles]
  refine (perm_flatMap_swap _ _ _).trans (List.Perm.of_eq ?_)
  refine List.flatMap_congr (fun l _ => List.flatMap_congr (fun r _ => ?_))
  rw [Bool.beq_comm]
  split
  · simp only [List.map_cons,List.map_nil,CandidatePair.mirrored,pairPriority_mirrored]
  · rfl

theorem checkList_agrees (hroles : t.controlling = !s.controlling)
    (hp : p ∈ s.formCheckList.checkList) (hq : q ∈ t.formCheckList.checkList)
    (hl : q.localCand.priority = p.remoteCand.priority)
    (hr : q.remoteCand.priority = p.localCand.priority) : q.priority = p.priority := by
  rw [(checkList_mem hp).2.2,(checkList_mem hq).2.2,hl,hr,hroles,pairPriority_mirrored]

/-- Where the formula fits in 64 bits, it is the priority. -/
theorem checkList_formula (hp : p ∈ s.formCheckList.checkList)
    (h : p.localCand.priority.toNat < 2^32-1 ∨ p.remoteCand.priority.toNat < 2^32-1) :
    p.priority.toNat =
      pairFormula (p.priorities s.controlling).1 (p.priorities s.controlling).2 := by
  have hl := p.localCand.priority.toNat_lt
  have hr := p.remoteCand.priority.toNat_lt
  rw [(checkList_mem hp).2.2,pairPriority_toNat]
  unfold CandidatePair.priorities
  cases s.controlling with
  | false => exact Nat.mod_eq_of_lt (pairFormula_lt hr hl h.symm)
  | true => exact Nat.mod_eq_of_lt (pairFormula_lt hl hr h)

theorem priorities_lt (hl : p.localCand.priority.toNat < 2^31)
    (hr : p.remoteCand.priority.toNat < 2^31) (weAreControlling : Bool) :
    (p.priorities weAreControlling).1 < 2^31 ∧ (p.priorities weAreControlling).2 < 2^31 := by
  cases weAreControlling with
  | false => exact ⟨hr,hl⟩
  | true => exact ⟨hl,hr⟩

theorem checkList_rank (hp : p ∈ s.formCheckList.checkList) (hq : q ∈ s.formCheckList.checkList)
    (hpl : p.localCand.priority.toNat < 2^31) (hpr : p.remoteCand.priority.toNat < 2^31)
    (hql : q.localCand.priority.toNat < 2^31) (hqr : q.remoteCand.priority.toNat < 2^31) :
    p.priority < q.priority ↔
      pairRank (p.priorities s.controlling).1 (p.priorities s.controlling).2 <
        pairRank (q.priorities s.controlling).1 (q.priorities s.controlling).2 := by
  obtain ⟨hp1,hp2⟩ := priorities_lt hpl hpr s.controlling
  obtain ⟨hq1,hq2⟩ := priorities_lt hql hqr s.controlling
  rw [UInt64.lt_iff_toNat_lt,checkList_formula hp (.inl (by omega)),
    checkList_formula hq (.inl (by omega))]
  exact pairFormula_lt_iff hp1 hp2 hq1 hq2

theorem checkList_sorted (s : IceSession) :
    s.formCheckList.checkList.Pairwise (fun a b => b.priority ≤ a.priority) := by
  have htotal : Std.Total (fun a b : CandidatePair => b.priority ≤ a.priority) :=
    ⟨fun a b => UInt64.le_total b.priority a.priority⟩
  have htrans : IsTrans CandidatePair (fun a b => b.priority ≤ a.priority) :=
    ⟨fun a b c hab hbc => UInt64.le_trans hbc hab⟩
  exact List.pairwise_insertionSort _ _

end

/-- A check list holds a pair for each local candidate and each remote one of its family, and
nothing else. Two agents that face each other have the same pairs with the same priorities, and give
one priority to a pair whatever else they know. With a local priority from `compute_priority` it is
the formula without overflow, and below 2^31 the check list is in the order of ranks. -/
theorem pair_priorities_agree :
    (∀ s : IceSession, s.formCheckList.checkList.Perm s.allPairs) ∧
    (∀ s t : IceSession, Facing s t →
      (t.formCheckList.checkList.map CandidatePair.mirrored).Perm s.formCheckList.checkList) ∧
    (∀ s t : IceSession, t.controlling = (!s.controlling) → ∀ p ∈ s.formCheckList.checkList,
      ∀ q ∈ t.formCheckList.checkList, q.localCand.priority = p.remoteCand.priority →
        q.remoteCand.priority = p.localCand.priority → q.priority = p.priority) ∧
    (∀ s : IceSession, (∀ c ∈ s.localCandidates, ∃ type localPref,
        c.priority = computePriority type localPref) → ∀ p ∈ s.formCheckList.checkList,
      p.priority.toNat =
        pairFormula (p.priorities s.controlling).1 (p.priorities s.controlling).2) ∧
    ∀ s : IceSession, s.formCheckList.checkList.Pairwise (fun a b => b.priority ≤ a.priority) ∧
      ∀ p ∈ s.formCheckList.checkList, ∀ q ∈ s.formCheckList.checkList,
        p.localCand.priority.toNat < 2^31 → p.remoteCand.priority.toNat < 2^31 →
        q.localCand.priority.toNat < 2^31 → q.remoteCand.priority.toNat < 2^31 →
        (p.priority < q.priority ↔
          pairRank (p.priorities s.controlling).1 (p.priorities s.controlling).2 <
            pairRank (q.priorities s.controlling).1 (q.priorities s.controlling).2) := by
  refine ⟨checkList_perm,fun s t h => h.checkList,
    fun s t hroles p hp q hq hl hr => checkList_agrees hroles hp hq hl hr,
    fun s hlocal p hp => checkList_formula hp (.inl ?_),fun s => ⟨checkList_sorted s,
    fun p hp q hq hpl hpr hql hqr => checkList_rank hp hq hpl hpr hql hqr⟩⟩
  obtain ⟨type,localPref,hc⟩ := hlocal _ (checkList_mem hp).1
  have hlt := computePriority_lt type localPref
  rw [hc]
  omega

def nearCandidate : Candidate := { priority := computePriority .host 65535 }

/-- The controlling agent has a host candidate and a server-reflexive one, and has been told the
host candidate of the other agent. -/
def hostAgent (controlling : Bool) : IceSession :=
  { IceSession.create controlling ⟨[],3⟩ [] [] 0 with
    localCandidates := if controlling then [srflxCandidate {},nearCandidate] else [nearCandidate],
    remoteCandidates := if controlling then [nearCandidate] else [srflxCandidate {},nearCandidate] }

theorem hostAgents_agree :
    (hostAgent true).formCheckList.checkList.map (fun p => (p.localCand,p.remoteCand)) =
      [(nearCandidate,nearCandidate),(srflxCandidate {},nearCandidate)] ∧
    ((hostAgent false).formCheckList.checkList.map CandidatePair.mirrored).Perm
      (hostAgent true).formCheckList.checkList ∧
    ∀ p ∈ (hostAgent true).formCheckList.checkList, p.priority.toNat =
      pairFormula (p.priorities true).1 (p.priorities true).2 := by
  obtain ⟨_,hsame,_,hformula,_⟩ := pair_priorities_agree
  refine ⟨by decide +kernel,hsame (hostAgent true) (hostAgent false) ⟨rfl,rfl,rfl⟩,
    hformula (hostAgent true) ?_⟩
  intro c hc
  rcases List.mem_pair.mp hc with rfl | rfl
  · exact ⟨.srflx,65534,rfl⟩
  · exact ⟨.host,65535,rfl⟩

end GoodNet.Ice
