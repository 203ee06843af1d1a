import GoodNet.Lib.ByteCodec
import Mathlib.Data.List.Basic
set_option autoImplicit false

/-! Base64 with padding: groups of three bytes as four digits of the alphabet, a decoder that
takes nothing but what was encoded, and texts cut into lines. -/

namespace Base64
open Codec

def alphabet : Bytes :=
  "ABCDEFGHIJKLMNOPQRSTUVWXYZabcdefghijklmnopqrstuvwxyz0123456789+/".toList.map
    (fun c => UInt8.ofNat c.toNat)

def padChar : UInt8 := 61

def digit (n : Nat) : UInt8 := alphabet.getD (n%64) 0

def value (c : UInt8) : Option Nat := alphabet.idxOf? c

def encode : Bytes → Bytes
  | a :: b :: c :: rest =>
    let v := a.toNat*65536+b.toNat*256+c.toNat
    digit (v/262144) :: digit (v/4096) :: digit (v/64) :: digit v :: encode rest
  | [a,b] =>
    let v := a.toNat*65536+b.toNat*256
    [digit (v/262144),digit (v/4096),digit (v/64),padChar]
  | [a] =>
    let v := a.toNat*65536
    [digit (v/262144),digit (v/4096),padChar,padChar]
  | [] => []

/-- What the digits of a group say; the bits that no byte takes are zero. -/
def decodeGroup (ds : List Nat) : Option Bytes :=
  match ds with
  | [d₀,d₁,d₂,d₃] =>
    let v := ((d₀*64+d₁)*64+d₂)*64+d₃
    some [UInt8.ofNat (v/65536),UInt8.ofNat (v/256),UInt8.ofNat v]
  | [d₀,d₁,d₂] =>
    let v := (d₀*64+d₁)*64+d₂
    if v%4 = 0 then some [UInt8.ofNat (v/1024),UInt8.ofNat (v/4)] else none
  | [d₀,d₁] =>
    let v := d₀*64+d₁
    if v%16 = 0 then some [UInt8.ofNat (v/16)] else none
  | _ => none

/-- A group with padding is the last one. -/
def decode : Bytes → Option Bytes
  | c₀ :: c₁ :: c₂ :: c₃ :: rest =>
    if c₃ = padChar then
      if rest ≠ [] then none
      else if c₂ = padChar then ([c₀,c₁].mapM value).bind decodeGroup
      else ([c₀,c₁,c₂].mapM value).bind decodeGroup
    else do
      let group ← ([c₀,c₁,c₂,c₃].mapM value).bind decodeGroup
      let tail ← decode rest
      some (group ++ tail)
  | [] => some []
  | _ => none

/-- The decoder that leaves the characters out that are to be ignored. -/
def decodeIgnoring (ignored : UInt8 → Bool) (text : Bytes) : Option Bytes :=
  decode (text.filter (fun c => !ignored c))

/-- Lines of `n` characters, each with its end; the fuel bounds their number. -/
def wrap (n : Nat) : Nat → Bytes → Bytes
  | 0, _ => []
  | fuel+1, b => if b = [] then [] else b.take n ++ [10] ++ wrap n fuel (b.drop n)

theorem value_digit_fin : ∀ n : Fin 64, value (digit n) = some n.val := by decide +kernel

theorem value_digit (n : Nat) : value (digit n) = some (n%64) := by
  have h := value_digit_fin ⟨n%64,Nat.mod_lt n (by decide)⟩
  unfold digit at h ⊢
  rwa [Nat.mod_mod] at h

theorem value_padChar : value padChar = none := by decide

theorem digit_ne_padChar (n : Nat) : digit n ≠ padChar := by
  intro h
  have hv := value_digit n
  rw [h,value_padChar] at hv
  cases hv

theorem decodeGroup_three (a b c : UInt8) {v : Nat}
    (hv : a.toNat*65536+b.toNat*256+c.toNat = v) :
    decodeGroup [v/262144%64,v/4096%64,v/64%64,v%64] = some [a,b,c] := by
  have ha := a.toNat_lt
  have hb := b.toNat_lt
  have hc := c.toNat_lt
  have hsum : ((v/262144%64*64+v/4096%64)*64+v/64%64)*64+v%64 = v := by omega
  simp only [decodeGroup,hsum,Option.some.injEq,List.cons.injEq,and_true]
  refine ⟨?_,?_,?_⟩ <;> apply UInt8.toNat_inj.mp <;> rw [UInt8.toNat_ofNat'] <;> omega

theorem decodeGroup_two (a b : UInt8) {v : Nat} (hv : a.toNat*65536+b.toNat*256 = v) :
    decodeGroup [v/262144%64,v/4096%64,v/64%64] = some [a,b] := by
  have ha := a.toNat_lt
  have hb := b.toNat_lt
  have hzero : ((v/262144%64*64+v/4096%64)*64+v/64%64)%4 = 0 := by omega
  simp only [decodeGroup,hzero,if_true,Option.some.injEq,List.cons.injEq,and_true]
  refine ⟨?_,?_⟩ <;> apply UInt8.toNat_inj.mp <;> rw [UInt8.toNat_ofNat'] <;> omega

theorem decodeGroup_one (a : UInt8) {v : Nat} (hv : a.toNat*65536 = v) :
    decodeGroup [v/262144%64,v/4096%64] = some [a] := by
  have ha := a.toNat_lt
  have hzero : (v/262144%64*64+v/4096%64)%16 = 0 := by omega
  simp only [decodeGroup,hzero,if_true,Option.some.injEq,List.cons.injEq,and_true]
  apply UInt8.toNat_inj.mp
  rw [UInt8.toNat_ofNat']
  omega

theorem decode_four (n₀ n₁ n₂ n₃ : Nat) (rest : Bytes) :
    decode (digit n₀ :: digit n₁ :: digit n₂ :: digit n₃ :: rest) =
      (decodeGroup [n₀%64,n₁%64,n₂%64,n₃%64]).bind (fun group =>
        (decode rest).map (fun tail => group ++ tail)) := by
  rw [decode,if_neg (digit_ne_padChar n₃)]
  simp [List.mapM_cons,value_digit,Option.map_eq_bind]

theorem decode_three (n₀ n₁ n₂ : Nat) :
    decode [digit n₀,digit n₁,digit n₂,padChar] = decodeGroup [n₀%64,n₁%64,n₂%64] := by
  simp [decode,digit_ne_padChar,List.mapM_cons,value_digit]

theorem decode_two (n₀ n₁ : Nat) :
    decode [digit n₀,digit n₁,padChar,padChar] = decodeGroup [n₀%64,n₁%64] := by
  simp [decode,List.mapM_cons,value_digit]

theorem decode_encode (b : Bytes) : decode (encode b) = some b := by
  induction b using encode.induct with
  | case1 a b c rest ih =>
    simp only [encode,decode_four,decodeGroup_three a b c rfl,ih]
    rfl
  | case2 a b => simp only [encode,decode_three,decodeGroup_two a b rfl]
  | case3 a => simp only [encode,decode_two,decodeGroup_one a rfl]
  | case4 => rfl

/-- A character of an encoded text. -/
def IsChar (c : UInt8) : Prop := c ∈ alphabet ∨ c = padChar

theorem alphabet_length : alphabet.length = 64 := by decide

theorem digit_isChar (n : Nat) : IsChar (digit n) := by
  have hlt : n%64 < alphabet.length := by
    rw [alphabet_length]
    exact Nat.mod_lt n (by decide)
  rw [digit,List.getD_eq_getElem?_getD,List.getElem?_eq_getElem hlt,Option.getD_some]
  exact .inl (List.getElem_mem hlt)

theorem digits_isChar (ns : List Nat) : ∀ c ∈ ns.map digit, IsChar c := by
  intro c hc
  obtain ⟨n,_,rfl⟩ := List.mem_map.mp hc
  exact digit_isChar n

theorem padding_isChar (n : Nat) : ∀ c ∈ List.replicate n padChar, IsChar c :=
  fun _ hc => .inr (List.eq_of_mem_replicate hc)

theorem encode_isChar (b : Bytes) : ∀ c ∈ encode b, IsChar c := by
  induction b using encode.induct with
  | case1 a b c rest ih =>
    rw [encode]
    exact List.forall_mem_append.mpr ⟨digits_isChar [_,_,_,_],ih⟩
  | case2 a b => exact List.forall_mem_append.mpr ⟨digits_isChar [_,_,_],padding_isChar 1⟩
  | case3 a => exact List.forall_mem_append.mpr ⟨digits_isChar [_,_],padding_isChar 2⟩
  | case4 => intro x hx; cases hx

/-- Characters that all have a value. -/
theorem isChar_of_mapM {cs : Bytes} {ds : List Nat} (h : cs.mapM value = some ds) :
    ∀ c ∈ cs, IsChar c := by
  induction cs generalizing ds with
  | nil => intro c hc; cases hc
  | cons a cs ih =>
    rw [List.mapM_cons] at h
    obtain ⟨d,hd,hrest⟩ := Option.bind_eq_some_iff.mp h
    obtain ⟨ds',hds,_⟩ := Option.bind_eq_some_iff.mp hrest
    have ha : a ∈ alphabet := by
      by_contra hnot
      rw [value,List.idxOf?_eq_none_iff.mpr hnot] at hd
      cases hd
    exact List.forall_mem_cons.mpr ⟨.inl ha,ih hds⟩

/-- A text with any other character in it is refused. -/
theorem decode_isChar {text b : Bytes} (h : decode text = some b) : ∀ c ∈ text, IsChar c := by
  induction text using decode.induct generalizing b with
  | case1 c₀ c₁ c₂ rest hrest => simp [decode,hrest] at h
  | case2 c₀ c₁ rest hrest =>
    rw [not_not.mp hrest] at h ⊢
    simp only [decode,if_true,ne_eq,not_true_eq_false,if_false] at h
    obtain ⟨ds,hds,_⟩ := Option.bind_eq_some_iff.mp h
    exact List.forall_mem_append.mpr ⟨isChar_of_mapM hds,padding_isChar 2⟩
  | case3 c₀ c₁ c₂ rest hrest hpad =>
    rw [not_not.mp hrest] at h ⊢
    simp only [decode,if_true,ne_eq,not_true_eq_false,if_false,if_neg hpad] at h
    obtain ⟨ds,hds,_⟩ := Option.bind_eq_some_iff.mp h
    exact List.forall_mem_append.mpr ⟨isChar_of_mapM hds,padding_isChar 1⟩
  | case4 c₀ c₁ c₂ c₃ rest hpad ih =>
    rw [decode,if_neg hpad] at h
    obtain ⟨group,hgroup,hrest⟩ := Option.bind_eq_some_iff.mp h
    obtain ⟨tail,htail,_⟩ := Option.bind_eq_some_iff.mp hrest
    obtain ⟨ds,hds,_⟩ := Option.bind_eq_some_iff.mp hgroup
    exact List.forall_mem_append.mpr ⟨isChar_of_mapM hds,ih htail⟩
  | case5 => intro c hc; cases hc
  | case6 text hlong hnil => simp [decode] at h

theorem mem_wrap {n fuel : Nat} {b : Bytes} {c : UInt8} (h : c ∈ wrap n fuel b) :
    c ∈ b ∨ c = 10 := by
  induction fuel generalizing b with
  | zero => cases h
  | succ fuel ih =>
    rw [wrap] at h
    split at h
    · cases h
    · rcases List.mem_append.mp h with hline | hrest
      · rcases List.mem_append.mp hline with hline | hend
        · exact .inl (List.mem_of_mem_take hline)
        · exact .inr (List.mem_singleton.mp hend)
      · exact (ih hrest).imp List.mem_of_mem_drop id

/-- Without the ends of its lines a wrapped text is the text again. -/
theorem filter_wrap {keep : UInt8 → Bool} {n fuel : Nat} {b : Bytes} (hn : 0 < n)
    (hfuel : b.length ≤ fuel) (hend : keep 10 = false) (hkeep : ∀ c ∈ b, keep c = true) :
    (wrap n fuel b).filter keep = b := by
  induction fuel generalizing b with
  | zero =>
    rw [List.length_eq_zero_iff.mp (Nat.le_zero.mp hfuel)]
    rfl
  | succ fuel ih =>
    rw [wrap]
    split
    · rename_i hb
      rw [hb]
      rfl
    · rename_i hb
      have hpos := List.length_pos_iff.mpr hb
      have hrest := ih (show (b.drop n).length ≤ fuel by rw [List.length_drop]; omega)
        (fun c hc => hkeep c (List.mem_of_mem_drop hc))
      have hline : (b.take n).filter keep = b.take n :=
        List.filter_eq_self.mpr (fun c hc => hkeep c (List.mem_of_mem_take hc))
      have hten : [(10 : UInt8)].filter keep = [] := by simp [hend]
      rw [List.filter_append,List.filter_append,hline,hten,hrest,List.append_nil,
        List.take_append_drop]

end Base64
