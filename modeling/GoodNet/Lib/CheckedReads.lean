import Mathlib.Data.List.Basic
set_option autoImplicit false

/-! Reading a buffer entry by entry. A read outside of it fails, and with it all that is made from
what was read; a reader that never fails has read no other memory. -/

namespace CheckedReads

variable {α β : Type}

/-- `n` entries from `i` on. -/
def readBlock (b : List α) : Nat → Nat → Option (List α)
  | _, 0 => some []
  | i, n+1 => b[i]?.bind (fun x => (readBlock b (i+1) n).map (fun rest => x :: rest))

/-- The entries from `i` on before the first that is an end, `n` of them at most. The end is read
too, the `n`th entry is not looked beyond. -/
def readUntil (isEnd : α → Bool) (b : List α) : Nat → Nat → Option (List α)
  | _, 0 => some []
  | i, n+1 => b[i]?.bind (fun x =>
      if isEnd x then some [] else (readUntil isEnd b (i+1) n).map (fun rest => x :: rest))

/-- One reader after the other. -/
def readEach (read : β → Option α) : List β → Option (List α)
  | [] => some []
  | k :: ks => (read k).bind (fun x => (readEach read ks).map (fun rest => x :: rest))

variable {b : List α} {i n : Nat}

theorem drop_take_succ (h : i < b.length) (n : Nat) :
    (b.drop i).take (n+1) = b[i] :: (b.drop (i+1)).take n := by
  rw [List.drop_eq_getElem_cons h,List.take_succ_cons]

theorem readBlock_eq (h : i+n ≤ b.length) : readBlock b i n = some ((b.drop i).take n) := by
  induction n generalizing i with
  | zero => simp [readBlock]
  | succ n ih =>
    have hi : i < b.length := by omega
    rw [readBlock,List.getElem?_eq_getElem hi,Option.bind_some,ih (by omega),Option.map_some,
      drop_take_succ hi]

theorem readBlock_none (hn : 0 < n) (h : b.length < i+n) : readBlock b i n = none := by
  induction n generalizing i with
  | zero => omega
  | succ n ih =>
    rw [readBlock]
    by_cases hi : i < b.length
    · rw [List.getElem?_eq_getElem hi,Option.bind_some,ih (by omega) (by omega),Option.map_none]
    · rw [List.getElem?_eq_none (Nat.not_lt.1 hi),Option.bind_none]

theorem readUntil_eq (isEnd : α → Bool) (h : i+n ≤ b.length) :
    readUntil isEnd b i n = some (((b.drop i).take n).takeWhile (fun x => !isEnd x)) := by
  induction n generalizing i with
  | zero => simp [readUntil]
  | succ n ih =>
    have hi : i < b.length := by omega
    rw [readUntil,List.getElem?_eq_getElem hi,Option.bind_some,drop_take_succ hi]
    cases hend : isEnd b[i] with
    | true => simp [hend]
    | false =>
      rw [if_neg (by simp),ih (by omega),Option.map_some,List.takeWhile_cons_of_pos (by simp [hend])]

theorem readEach_eq {read : β → Option α} {value : β → α} {ks : List β}
    (h : ∀ k ∈ ks, read k = some (value k)) : readEach read ks = some (ks.map value) := by
  induction ks with
  | nil => rfl
  | cons k ks ih =>
    rw [readEach,h k (List.mem_cons_self ..),Option.bind_some,
      ih (fun k hk => h k (List.mem_cons_of_mem _ hk)),Option.map_some,List.map_cons]

end CheckedReads
