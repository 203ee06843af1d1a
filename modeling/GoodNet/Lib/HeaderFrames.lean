import GoodNet.Lib.Framing
set_option autoImplicit false

/-! Units with a header of fixed size that says how many more items belong to them, or that it
is no header at all. -/

namespace Framing

structure Layout (α : Type) where
  size : Nat
  size_pos : 0 < size
  /-- What the header says about the body; nothing for a header that is refused. -/
  body : List α → Option Nat

section
variable {α : Type} (l : Layout α) {b : List α} {n : Nat}

def Layout.look (b : List α) : Verdict :=
  if b.length < l.size then .short
  else match l.body (b.take l.size) with
    | none => .bad
    | some n => if b.length < l.size+n then .short else .unit (l.size+n)

theorem Layout.look_header (h : b.length < l.size) : l.look b = .short := by
  simp [look,h]

theorem Layout.look_refused (h : l.size ≤ b.length) (hb : l.body (b.take l.size) = none) :
    l.look b = .bad := by
  simp [look,hb,Nat.not_lt.mpr h]

theorem Layout.look_partial (hb : l.body (b.take l.size) = some n) (h : b.length < l.size+n) :
    l.look b = .short := by
  simp [look,hb,h]

theorem Layout.look_whole (hb : l.body (b.take l.size) = some n) (h : l.size+n ≤ b.length) :
    l.look b = .unit (l.size+n) := by
  have hsize : ¬ b.length < l.size := by omega
  simp [look,hb,hsize,Nat.not_lt.mpr h]

/-- The three answers and their grounds. -/
theorem Layout.look_cases (b : List α) :
    (l.look b = .short ∧ (b.length < l.size ∨
      ∃ n, l.body (b.take l.size) = some n ∧ b.length < l.size+n)) ∨
    (l.look b = .bad ∧ l.size ≤ b.length ∧ l.body (b.take l.size) = none) ∨
    ∃ n, l.look b = .unit (l.size+n) ∧ l.body (b.take l.size) = some n ∧
      l.size+n ≤ b.length := by
  by_cases h : b.length < l.size
  · exact Or.inl ⟨l.look_header h,Or.inl h⟩
  · cases hb : l.body (b.take l.size) with
    | none => exact Or.inr (Or.inl ⟨l.look_refused (by omega) hb,by omega,rfl⟩)
    | some n =>
      by_cases hn : b.length < l.size+n
      · exact Or.inl ⟨l.look_partial hb hn,Or.inr ⟨n,rfl,hn⟩⟩
      · exact Or.inr (Or.inr ⟨n,l.look_whole hb (by omega),rfl,by omega⟩)

theorem Layout.take_append (h : l.size ≤ b.length) (c : List α) :
    (b ++ c).take l.size = b.take l.size := List.take_append_of_le_length h

def Layout.scanner : Scanner α where
  look := l.look
  unit_pos := by
    intro b n h
    have hpos := l.size_pos
    rcases l.look_cases b with ⟨hl,_⟩ | ⟨hl,_⟩ | ⟨k,hl,_,_⟩
    · simp [hl] at h
    · simp [hl] at h
    · simp [hl] at h
      omega
  unit_le := by
    intro b n h
    rcases l.look_cases b with ⟨hl,_⟩ | ⟨hl,_⟩ | ⟨k,hl,_,hk⟩
    · simp [hl] at h
    · simp [hl] at h
    · simp [hl] at h
      omega
  unit_append := by
    intro b n h c
    rcases l.look_cases b with ⟨hl,_⟩ | ⟨hl,_⟩ | ⟨k,hl,hk,hle⟩
    · simp [hl] at h
    · simp [hl] at h
    · rw [← h,hl]
      refine l.look_whole ?_ (by simp; omega)
      rw [l.take_append (by omega),hk]
  bad_append := by
    intro b h c
    rcases l.look_cases b with ⟨hl,_⟩ | ⟨_,hsize,hb⟩ | ⟨k,hl,_⟩
    · simp [hl] at h
    · exact l.look_refused (by simp; omega) (by rw [l.take_append hsize,hb])
    · simp [hl] at h

@[simp] theorem Layout.scanner_look : l.scanner.look = l.look := rfl

end

end Framing
