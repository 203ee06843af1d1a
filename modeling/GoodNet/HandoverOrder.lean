import GoodNet.SendPipeline
set_option autoImplicit false

/-! The order in which the frames of one thread reach the connector. Nothing serialises the
hand-over of drained batches: a thread may still hold another thread's frame when that thread
hands over its next one. -/

namespace GoodNet
open Codec Interleaving ReservedQueue

/-- Of two frames of one thread the first is the one it sent first. -/
def QueuedFrame.Before (f g : QueuedFrame) : Prop := f.thread = g.thread → f.number < g.number

/-- No thread has frames in both batches. -/
def SendersApart (a b : List QueuedFrame) : Prop := ∀ f ∈ a, ∀ g ∈ b, f.thread ≠ g.thread

/-- The batches that are out of the queue and not with the connector yet. -/
def SendPipeline.inHand (p : SendPipeline) : List (List QueuedFrame) :=
  p.handing.map Handover.batch ++ (p.queue.leaving.map Drain.batch).toList

/-- The frames that have been pushed, those nearest to the connector first. -/
def SendPipeline.line (p : SendPipeline) : List QueuedFrame :=
  p.handed ++ (p.inHand.flatten ++ p.queue.items)

/-- The frames that have not been pushed yet. -/
def SendPipeline.waiting (p : SendPipeline) : List QueuedFrame :=
  p.built ++ p.queue.pushing.map Push.item

/-- A batch is drained only while no other thread holds frames of the same senders. -/
def SendPipeline.Serial (p : SendPipeline) : PipelineStep → Prop
  | .take _ => ∀ h ∈ p.handing, SendersApart h.batch (p.queue.items.take flushBatch)
  | _ => True

instance (a b : List QueuedFrame) : Decidable (SendersApart a b) :=
  inferInstanceAs (Decidable (∀ f ∈ a, ∀ g ∈ b, f.thread ≠ g.thread))

instance (p : SendPipeline) : (a : PipelineStep) → Decidable (p.Serial a)
  | .take _ =>
    inferInstanceAs (Decidable (∀ h ∈ p.handing, SendersApart h.batch (p.queue.items.take flushBatch)))
  | .build .. | .reserve _ | .rollBack _ | .append _ | .settle _ | .handOver _ =>
    inferInstanceAs (Decidable True)

structure SendPipeline.Ordered (p : SendPipeline) : Prop where
  tidy : p.Tidy
  named : ∀ w ∈ p.queue.pushing, w.item.thread = w.thread
  sorted : p.line.Pairwise QueuedFrame.Before
  apart : p.inHand.Pairwise SendersApart
  recent : ∀ f ∈ p.line ++ p.waiting, f.number < p.calls
  later : ∀ f ∈ p.line, ∀ g ∈ p.waiting, f.Before g

section
variable {S : Sodium} {Z : Zstd} {c : Compression} {p p' : SendPipeline}

/-- Two neighbouring pieces of a list change places. -/
theorem pairwise_swap {α : Type} {R : α → α → Prop} {a x b y : List α}
    (h : (a ++ (x ++ (b ++ y))).Pairwise R) (hswap : ∀ f ∈ b, ∀ g ∈ x, R f g) :
    (a ++ (b ++ (x ++ y))).Pairwise R := by
  simp only [List.pairwise_append,List.mem_append] at h ⊢
  obtain ⟨ha,⟨hx,⟨hb,hy,hby⟩,hxby⟩,hrest⟩ := h
  refine ⟨ha,⟨hb,⟨hx,hy,fun f hf g hg => hxby f hf g (Or.inr hg)⟩,?_⟩,?_⟩
  · rintro f hf g (hg | hg)
    · exact hswap f hf g hg
    · exact hby f hf g hg
  · rintro f hf g (hg | hg | hg)
    · exact hrest f hf g (Or.inr (Or.inl hg))
    · exact hrest f hf g (Or.inl hg)
    · exact hrest f hf g (Or.inr (Or.inr hg))

theorem SendPipeline.Ordered.start (r : ConnectionRecord) : SendPipeline.Ordered { record := r } :=
  ⟨(Attended.start r).tidy,fun w hw => (by cases hw),.nil,.nil,fun f hf => (by cases hf),
    fun f hf => (by cases hf)⟩

/-- Only what has not been pushed changes. -/
theorem SendPipeline.Ordered.keep_line (h : p.Ordered) (ht : p'.Tidy)
    (hn : ∀ w ∈ p'.queue.pushing, w.item.thread = w.thread) (hl : p'.line = p.line)
    (hi : p'.inHand = p.inHand) (hc : p.calls ≤ p'.calls)
    (hw : ∀ f ∈ p'.waiting, f ∈ p.waiting ∨ p.calls ≤ f.number ∧ f.number < p'.calls) :
    p'.Ordered := by
  refine ⟨ht,hn,hl ▸ h.sorted,hi ▸ h.apart,fun f hf => ?_,fun f hf g hg => ?_⟩
  · rw [hl,List.mem_append] at hf
    rcases hf with hf | hf
    · exact Nat.lt_of_lt_of_le (h.recent f (List.mem_append_left _ hf)) hc
    · rcases hw f hf with hf | ⟨_,hlt⟩
      · exact Nat.lt_of_lt_of_le (h.recent f (List.mem_append_right _ hf)) hc
      · exact hlt
  · rw [hl] at hf
    rcases hw g hg with hg | ⟨hle,_⟩
    · exact h.later f hf g hg
    · intro _
      exact Nat.lt_of_lt_of_le (h.recent f (List.mem_append_left _ hf)) hle

/-- A frame that is pushed comes after all frames of its thread, which has no other in
waiting. -/
theorem SendPipeline.Ordered.push (h : p.Ordered) {w : Push QueuedFrame}
    {l₁ l₂ : List (Push QueuedFrame)} (hp : p.queue.pushing = l₁ ++ w :: l₂) (ht : p'.Tidy)
    (hq : p'.queue.pushing = l₁ ++ l₂) (hb : p'.built = p.built)
    (hl : p'.line = p.line ++ [w.item]) (hi : p'.inHand = p.inHand) (hc : p'.calls = p.calls) :
    p'.Ordered := by
  have hin : w.item ∈ p.waiting := by simp [waiting,hp]
  have hsub : ∀ g ∈ p'.waiting, g ∈ p.waiting ∧ w.item.thread ≠ g.thread := by
    intro g hg
    have hw := h.named w (by simp [hp])
    have hcount := h.tidy w.thread
    rw [count_active,hp] at hcount
    simp only [List.map_append,List.map_cons,List.count_append,List.count_cons_self] at hcount
    simp only [waiting,hq,hb,hp,List.map_append,List.map_cons,List.mem_append,List.mem_cons]
      at hg ⊢
    rw [hw]
    rcases hg with hg | hg | hg
    · refine ⟨Or.inl hg,fun he => ?_⟩
      have hpos := List.count_pos_iff.mpr (List.mem_map_of_mem (f := QueuedFrame.thread) hg)
      rw [← he] at hpos
      omega
    · refine ⟨Or.inr (Or.inl hg),fun he => ?_⟩
      obtain ⟨v,hv,rfl⟩ := List.mem_map.mp hg
      have hpos := List.count_pos_iff.mpr (List.mem_map_of_mem (f := Push.thread) hv)
      rw [← h.named v (by simp [hp,hv]),← he] at hpos
      omega
    · refine ⟨Or.inr (Or.inr (Or.inr hg)),fun he => ?_⟩
      obtain ⟨v,hv,rfl⟩ := List.mem_map.mp hg
      have hpos := List.count_pos_iff.mpr (List.mem_map_of_mem (f := Push.thread) hv)
      rw [← h.named v (by simp [hp,hv]),← he] at hpos
      omega
  refine ⟨ht,fun v hv => ?_,?_,hi ▸ h.apart,fun f hf => ?_,fun f hf g hg => ?_⟩
  · rw [hq] at hv
    refine h.named v ?_
    rw [hp]
    exact mem_of_mem_rest hv
  · rw [hl,List.pairwise_append]
    refine ⟨h.sorted,List.pairwise_singleton _ _,fun f hf g hg => ?_⟩
    rw [List.mem_singleton.mp hg]
    exact h.later f hf w.item hin
  · rw [hl,List.append_assoc,List.mem_append] at hf
    rw [hc]
    rcases hf with hf | hf
    · exact h.recent f (List.mem_append_left _ hf)
    · rcases List.mem_append.mp hf with hf | hf
      · rw [List.mem_singleton.mp hf]
        exact h.recent _ (List.mem_append_right _ hin)
      · exact h.recent f (List.mem_append_right _ (hsub f hf).1)
  · rw [hl] at hf
    rcases List.mem_append.mp hf with hf | hf
    · exact h.later f hf g (hsub g hg).1
    · rw [List.mem_singleton.mp hf]
      exact fun he => absurd he (hsub g hg).2

/-- The batches in hand or the frames with the connector change. -/
theorem SendPipeline.Ordered.advance (h : p.Ordered) (ht : p'.Tidy)
    (hw : p'.queue.pushing = p.queue.pushing ∧ p'.built = p.built ∧ p'.calls = p.calls)
    {line : List QueuedFrame} {inHand : List (List QueuedFrame)} (hl : p'.line = line)
    (hs : line.Pairwise QueuedFrame.Before) (hm : ∀ f ∈ line, f ∈ p.line)
    (hi : p'.inHand = inHand) (ha : inHand.Pairwise SendersApart) : p'.Ordered := by
  obtain ⟨hq,hb,hc⟩ := hw
  have hwait : p'.waiting = p.waiting := by rw [waiting,waiting,hq,hb]
  refine ⟨ht,hq ▸ h.named,hl ▸ hs,hi ▸ ha,fun f hf => ?_,fun f hf g hg => ?_⟩
  · rw [hwait,hl] at hf
    rw [hc]
    rcases List.mem_append.mp hf with hf | hf
    · exact h.recent f (List.mem_append_left _ (hm f hf))
    · exact h.recent f (List.mem_append_right _ hf)
  · rw [hwait] at hg
    rw [hl] at hf
    exact h.later f (hm f hf) g hg

theorem SendPipeline.Moves.ordered {a : PipelineStep} (hm : SendPipeline.Moves S Z c p a p')
    (h : p.Ordered) (hs : p.Serial a) : p'.Ordered := by
  have ht := hm.tidy h.tidy
  cases hm with
  | stay => exact h
  | build msgType payload hidle =>
    refine h.keep_line ht h.named rfl rfl (Nat.le_succ _) (fun f hf => ?_)
    simp only [waiting,List.mem_append,List.mem_singleton] at hf ⊢
    rcases hf with (hf | rfl) | hf
    · exact Or.inl (Or.inl hf)
    · exact Or.inr ⟨Nat.le_refl _,Nat.lt_succ_self _⟩
    · exact Or.inl (Or.inr hf)
  | @reserve f l₁ l₂ hb =>
    refine h.keep_line ht (fun w hw => ?_) rfl rfl (Nat.le_refl _) (fun g hg => Or.inl ?_)
    · rcases List.mem_cons.mp hw with rfl | hw
      · rfl
      · exact h.named w hw
    · simp only [waiting,Queue.reserve,hb,List.map_cons,List.mem_append,List.mem_cons] at hg ⊢
      tauto
  | @rollBack w l₁ l₂ hp =>
    refine h.keep_line ht (fun v hv => h.named v ?_) rfl rfl (Nat.le_refl _) (fun g hg => Or.inl ?_)
    · rw [hp]
      exact mem_of_mem_rest hv
    · simp only [waiting,hp,List.map_append,List.map_cons,List.mem_append,List.mem_cons] at hg ⊢
      tauto
  | append hl hp =>
    refine h.push hp ht rfl rfl ?_ rfl rfl
    simp only [line,inHand,List.append_assoc]
  | @take thread l₁ l₂ hl hf =>
    have hin : p.inHand = p.handing.map Handover.batch := by simp [inHand,hl]
    refine h.advance ht ⟨rfl,rfl,rfl⟩ ?_ h.sorted (fun f hf => hf) rfl ?_
    · simp [line,inHand,hl]
    · show (p.handing.map Handover.batch ++ [p.queue.items.take flushBatch]).Pairwise SendersApart
      rw [List.pairwise_append,← hin]
      refine ⟨h.apart,List.pairwise_singleton _ _,fun b hb b' hb' => ?_⟩
      rw [List.mem_singleton.mp hb']
      rw [hin] at hb
      obtain ⟨w,hw,rfl⟩ := List.mem_map.mp hb
      exact hs w hw
  | @settleNothing d hl hd =>
    have hall := h.apart
    rw [inHand,hl,List.pairwise_append] at hall
    refine h.advance ht ⟨rfl,rfl,rfl⟩ ?_ h.sorted (fun f hf => hf) rfl ?_
    · simp [line,inHand,hl,hd]
    · simpa [inHand] using hall.1
  | @settle d hl hd =>
    have hin : ∀ q : Queue QueuedFrame, q.leaving = none → SendPipeline.inHand
        { p with queue := q, handing := p.handing ++ [⟨d.thread,d.batch⟩] } = p.inHand := by
      intro q hq
      simp [inHand,hl,hq]
    refine h.advance ht ⟨rfl,rfl,rfl⟩ ?_ h.sorted (fun f hf => hf) (hin _ rfl) h.apart
    simp only [line]
    rw [hin _ rfl]
  | @handOver w l₁ l₂ hh =>
    -- none of the batches that were drained before this one has a frame of its senders
    have hall := h.apart
    have hsorted := h.sorted
    simp only [line,inHand,hh,List.map_append,List.map_cons,List.flatten_append,
      List.flatten_cons,List.append_assoc] at hall hsorted
    have hapart : ∀ f ∈ w.batch, ∀ g ∈ (l₁.map Handover.batch).flatten, f.Before g := by
      intro f hf g hg he
      obtain ⟨b,hb,hg⟩ := List.mem_flatten.mp hg
      have hne := (List.pairwise_append.mp hall).2.2 b hb w.batch List.mem_cons_self g hg f hf
      exact absurd he.symm hne
    have hswap := pairwise_swap hsorted hapart
    refine h.advance ht ⟨rfl,rfl,rfl⟩ ?_ hswap (fun f hf => ?_) rfl ?_
    · simp [line,inHand]
    · simp only [line,inHand,hh,List.map_append,List.map_cons,List.flatten_append,
        List.flatten_cons,List.mem_append] at hf ⊢
      tauto
    · simp only [inHand,List.map_append,List.append_assoc]
      refine hall.sublist ?_
      exact (List.Sublist.refl _).append (List.sublist_cons_self _ _)

theorem SendPipeline.Ordered.act (h : p.Ordered) (a : PipelineStep) (hs : p.Serial a) :
    (p.act S Z c a).Ordered :=
  (act_moves h.tidy a).ordered h hs

end

/-- In every run in which no batch is drained while another thread still holds frames of one
of its senders, the frames of each thread reach the connector in the order of its calls. -/
theorem handover_in_order (S : Sodium) (Z : Zstd) (c : Compression) (r : ConnectionRecord)
    (steps : List PipelineStep)
    (h : Along (SendPipeline.act S Z c) SendPipeline.Serial { record := r } steps) :
    (SendPipeline.run S Z c { record := r } steps).handed.Pairwise QueuedFrame.Before := by
  have hp : (SendPipeline.run S Z c { record := r } steps).Ordered :=
    h.invariant (fun _ a ho hs => ho.act a hs) (SendPipeline.Ordered.start r)
  exact (List.pairwise_append.mp hp.sorted).1

set_option maxRecDepth 10000 in
theorem handover_in_order_shared :
    (SendPipeline.run Sodium.sample Zstd.sample {} { record := establishedRecord }
      (sharedFlush ++ (pushes 1 [106] ++ flushes 1))).handed.Pairwise QueuedFrame.Before ∧
    (SendPipeline.run Sodium.sample Zstd.sample {} { record := establishedRecord }
      (sharedFlush ++ (pushes 1 [106] ++ flushes 1))).handed.map QueuedFrame.thread = [1,2,1] := by
  refine ⟨?_,by decide +kernel⟩
  exact handover_in_order Sodium.sample Zstd.sample {} establishedRecord
    (sharedFlush ++ (pushes 1 [106] ++ flushes 1)) (by decide +kernel)

/-- The second thread drains the first one's frame and is held up; the first one goes on. -/
def overtaken : List PipelineStep :=
  pushes 1 [104] ++ pushes 2 [105] ++ [.take 2,.settle 2] ++ flushes 1 ++
    (pushes 1 [106] ++ flushes 1) ++ [.handOver 2]

set_option maxRecDepth 10000 in
/-- The first thread's second frame reaches the connector before its first. -/
theorem delayed_batch_overtaken :
    (SendPipeline.run Sodium.sample Zstd.sample {} { record := establishedRecord }
      overtaken).atRest = true ∧
    (SendPipeline.run Sodium.sample Zstd.sample {} { record := establishedRecord }
      overtaken).handed.map (fun f => (f.thread,f.number)) = [(1,2),(1,0),(2,1)] ∧
    ¬ (SendPipeline.run Sodium.sample Zstd.sample {} { record := establishedRecord }
      overtaken).handed.Pairwise QueuedFrame.Before := by
  refine ⟨by decide +kernel,by decide +kernel,fun h => ?_⟩
  have hnumbers : (SendPipeline.run Sodium.sample Zstd.sample {} { record := establishedRecord }
      overtaken).handed.map (fun f => (f.thread,f.number)) = [(1,2),(1,0),(2,1)] := by
    decide +kernel
  have hpairs : ([(1,2),(1,0),(2,1)] : List (Nat × Nat)).Pairwise
      (fun f g => f.1 = g.1 → f.2 < g.2) := by
    rw [← hnumbers,List.pairwise_map]
    exact h
  exact absurd hpairs (by decide)

end GoodNet
