import GoodNet.HonestNode
set_option autoImplicit false

/-! The table of scheme names in a handshake payload. `set_schemes` keeps to its limits;
`get_schemes` takes the count and the ends of the names as the peer wrote them. -/

namespace GoodNet
open Codec

def schemesCountAt (data : Bytes) : Nat := (data.getD 128 0).toNat

/-- Where the table ends. -/
def schemesEnd : Nat := schemesOffset+handshakeSchemeLen*handshakeMaxSchemes

def schemeAt (data : Bytes) (i : Nat) : Bytes := data.drop (schemesOffset+handshakeSchemeLen*i)

/-- The bytes before the first NUL. -/
def cString (b : Bytes) : Bytes := b.takeWhile (· ≠ 0)

/-- The offsets that `get_schemes` reads in the names: each of them to its NUL. -/
def schemeReads (data : Bytes) : List Nat :=
  (List.range (schemesCountAt data)).flatMap (fun i =>
    List.range' (schemesOffset+handshakeSchemeLen*i) ((cString (schemeAt data i)).length+1))

structure SchemesInBounds (data : Bytes) : Prop where
  reads : ∀ p ∈ schemeReads data, schemesOffset ≤ p ∧ p < schemesEnd
  few : (getSchemes data).length ≤ handshakeMaxSchemes
  short : ∀ s ∈ getSchemes data, s.length ≤ handshakeSchemeLen-1

/-- What `get_schemes` does not check: the count, and a NUL in each slot it counts. -/
def SchemesTerminated (data : Bytes) : Prop :=
  schemesCountAt data ≤ handshakeMaxSchemes ∧
    ∀ i < schemesCountAt data, 0 ∈ (schemeAt data i).take handshakeSchemeLen

theorem getSchemes_eq (data : Bytes) :
    getSchemes data = (List.range (schemesCountAt data)).map
      (fun i => stringOfBytes (cString (schemeAt data i))) := rfl

theorem stringOfBytes_length (b : Bytes) : (stringOfBytes b).length = b.length := by
  simp [stringOfBytes]

theorem cString_cons (x : UInt8) (b : Bytes) :
    cString (x :: b) = if x = 0 then [] else x :: cString b := by
  unfold cString
  by_cases hx : x = 0 <;> simp [hx]

theorem zero_not_mem_cString (b : Bytes) : 0 ∉ cString b := by
  induction b with
  | nil => simp [cString]
  | cons x b ih =>
    rw [cString_cons]
    split
    · simp
    · rename_i hx
      rw [List.mem_cons]
      rintro (h | h)
      · exact hx h.symm
      · exact ih h

theorem cString_append {b : Bytes} (h : 0 ∉ b) (rest : Bytes) : cString (b ++ 0 :: rest) = b := by
  induction b with
  | nil => rw [List.nil_append,cString_cons,if_pos rfl]
  | cons x b ih =>
    rw [List.mem_cons,not_or] at h
    rw [List.cons_append,cString_cons,if_neg (Ne.symm h.1),ih h.2]

theorem cString_self {b : Bytes} (h : 0 ∉ b) : cString b = b := by
  induction b with
  | nil => rfl
  | cons x b ih =>
    rw [List.mem_cons,not_or] at h
    rw [cString_cons,if_neg (Ne.symm h.1),ih h.2]

/-- A string ends within the first `n` bytes exactly where one of them is NUL. -/
theorem cString_lt {b : Bytes} {n : Nat} (hn : n ≤ b.length) :
    (cString b).length < n ↔ 0 ∈ b.take n := by
  induction b generalizing n with
  | nil =>
    have hzero : n = 0 := Nat.le_zero.1 hn
    simp [hzero,cString]
  | cons x b ih =>
    cases n with
    | zero => simp
    | succ n =>
      rw [List.length_cons,Nat.add_le_add_iff_right] at hn
      rw [List.take_succ_cons,List.mem_cons,cString_cons,← ih hn]
      by_cases hx : x = 0
      · simp [hx]
      · simp [hx,Ne.symm hx]

/-- The reads stay in the table and give at most eight names of at most fifteen characters exactly
where the peer counts no more than the table holds and each name it counts ends in its slot. -/
theorem schemesInBounds_iff {data : Bytes} (hlen : handshakePayloadSize ≤ data.length) :
    SchemesInBounds data ↔ SchemesTerminated data := by
  have hslot : ∀ i, schemesCountAt data ≤ handshakeMaxSchemes → i < schemesCountAt data →
      handshakeSchemeLen ≤ (schemeAt data i).length := by
    intro i hfew hi
    unfold handshakePayloadSize at hlen
    unfold schemeAt
    rw [List.length_drop]
    unfold schemesOffset handshakeSchemeLen handshakeMaxSchemes at *
    omega
  constructor
  · intro h
    have hfew : schemesCountAt data ≤ handshakeMaxSchemes := by
      have hlength := h.few
      rw [getSchemes_eq,List.length_map,List.length_range] at hlength
      exact hlength
    refine ⟨hfew,fun i hi => (cString_lt (hslot i hfew hi)).1 ?_⟩
    have hshort := h.short (stringOfBytes (cString (schemeAt data i))) (by
      rw [getSchemes_eq]
      exact List.mem_map.2 ⟨i,List.mem_range.2 hi,rfl⟩)
    rw [stringOfBytes_length] at hshort
    unfold handshakeSchemeLen at hshort ⊢
    omega
  · rintro ⟨hfew,hnul⟩
    have hends : ∀ i < schemesCountAt data,
        (cString (schemeAt data i)).length < handshakeSchemeLen := by
      intro i hi
      exact (cString_lt (hslot i hfew hi)).2 (hnul i hi)
    refine ⟨fun p hp => ?_,?_,fun s hs => ?_⟩
    · obtain ⟨i,hi,hp⟩ := List.mem_flatMap.1 hp
      have hi' := List.mem_range.1 hi
      have hend := hends i hi'
      rw [List.mem_range'_1] at hp
      unfold schemesEnd schemesOffset handshakeSchemeLen handshakeMaxSchemes at *
      omega
    · rw [getSchemes_eq,List.length_map,List.length_range]
      exact hfew
    · rw [getSchemes_eq] at hs
      obtain ⟨i,hi,rfl⟩ := List.mem_map.1 hs
      have hend := hends i (List.mem_range.1 hi)
      rw [stringOfBytes_length]
      omega

/-- What `set_schemes` keeps of a name. -/
def cutScheme (name : Bytes) : Bytes := (cString name).take (handshakeSchemeLen-1)

theorem bytesOfString_stringOfBytes (b : Bytes) : bytesOfString (stringOfBytes b) = b := by
  unfold bytesOfString stringOfBytes
  rw [String.toList_ofList,List.map_map]
  refine (List.map_congr_left fun x _ => ?_).trans (List.map_id _)
  have hchar : ∀ n : Fin 256, (Char.ofNat n).toNat = n := by decide +kernel
  have hval : (Char.ofNat x.toNat).toNat = x.toNat := hchar ⟨x.toNat,x.toNat_lt⟩
  simp [hval]

/-- A slot is the name, cut, and at least one NUL. -/
theorem schemeSlot_eq (name : Bytes) :
    ∃ k, schemeSlot (stringOfBytes name) = cutScheme name ++ 0 :: List.replicate k 0 := by
  have hlen : (cutScheme name).length ≤ handshakeSchemeLen-1 := List.length_take_le _ _
  refine ⟨handshakeSchemeLen-1-(cutScheme name).length,?_⟩
  unfold schemeSlot
  rw [bytesOfString_stringOfBytes]
  have hpad : handshakeSchemeLen-(cutScheme name).length =
      handshakeSchemeLen-1-(cutScheme name).length+1 := by
    unfold handshakeSchemeLen at *
    omega
  change cutScheme name ++ List.replicate (handshakeSchemeLen-(cutScheme name).length) 0 = _
  rw [hpad,List.replicate_succ]

theorem cString_schemeSlot (name rest : Bytes) :
    cString (schemeSlot (stringOfBytes name) ++ rest) = cutScheme name := by
  obtain ⟨k,hslot⟩ := schemeSlot_eq name
  rw [hslot,List.append_assoc,List.cons_append]
  refine cString_append (fun h => ?_) _
  exact zero_not_mem_cString name (List.mem_of_mem_take h)

/-- The names of a table are read back, each from its slot. -/
theorem slots_read (names : List Bytes) (rest : Bytes) :
    (List.range names.length).map (fun i => cString ((names.flatMap
      (fun name => schemeSlot (stringOfBytes name)) ++ rest).drop (handshakeSchemeLen*i))) =
      names.map cutScheme := by
  induction names with
  | nil => rfl
  | cons name names ih =>
    rw [List.length_cons,List.range_succ_eq_map,List.map_cons,List.map_map,List.map_cons,← ih]
    refine congrArg₂ List.cons ?_ ?_
    · rw [Nat.mul_zero,List.drop_zero,List.flatMap_cons,List.append_assoc,cString_schemeSlot]
    · refine List.map_congr_left fun i _ => ?_
      have hdrop : handshakeSchemeLen*(i+1) =
          (schemeSlot (stringOfBytes name)).length+handshakeSchemeLen*i := by
        rw [schemeSlot_length]
        unfold handshakeSchemeLen
        omega
      rw [Function.comp_apply,Nat.succ_eq_add_one,hdrop,List.flatMap_cons,List.append_assoc,
        ← List.drop_drop,List.drop_left]

/-- `get_schemes` after `set_schemes`: the first eight names, each cut at its first NUL and at
fifteen characters. -/
theorem getSchemes_setSchemes (p : HandshakePayload) (names : List Bytes) (tail : Bytes) :
    getSchemes ({ p with
      schemesCount := (setSchemes (names.map stringOfBytes)).1,
      schemes := (setSchemes (names.map stringOfBytes)).2 }.encode ++ tail) =
      (names.take handshakeMaxSchemes).map (fun name => stringOfBytes (cutScheme name)) := by
  have hfew : (names.take handshakeMaxSchemes).length ≤ handshakeMaxSchemes :=
    List.length_take_le _ _
  unfold handshakeMaxSchemes at hfew
  -- the fields before the count, and what comes after the names
  obtain ⟨front,rest,hfront,hsplit⟩ : ∃ front rest : Bytes, front.length = 128 ∧
      HandshakePayload.encode { p with
        schemesCount := (setSchemes (names.map stringOfBytes)).1,
        schemes := (setSchemes (names.map stringOfBytes)).2 } ++ tail =
        front ++ UInt8.ofNat (names.take handshakeMaxSchemes).length ::
          ((names.take handshakeMaxSchemes).flatMap
            (fun name => schemeSlot (stringOfBytes name)) ++ rest) := by
    refine ⟨p.userPubkey.bytes ++ p.devicePubkey.bytes ++ p.signature.bytes,
      List.replicate (handshakeSchemeLen*(handshakeMaxSchemes-
        (names.take handshakeMaxSchemes).length)) 0 ++ (leBytes 4 p.coreMeta.coreVersion.toNat ++
          (leBytes 4 p.coreMeta.capsMask.toNat ++ tail)),by simp,?_⟩
    unfold HandshakePayload.encode setSchemes
    dsimp only
    rw [← List.map_take,List.length_map,List.flatMap_map]
    simp only [List.append_assoc,List.cons_append,List.nil_append]
  have hdrop : ∀ i, schemeAt (front ++ UInt8.ofNat (names.take handshakeMaxSchemes).length ::
      ((names.take handshakeMaxSchemes).flatMap (fun name => schemeSlot (stringOfBytes name)) ++
        rest)) i = ((names.take handshakeMaxSchemes).flatMap
          (fun name => schemeSlot (stringOfBytes name)) ++ rest).drop (handshakeSchemeLen*i) := by
    intro i
    unfold schemeAt
    have hoffset : schemesOffset = front.length+1 := by rw [hfront]; rfl
    rw [hoffset,← List.drop_drop,← List.drop_drop,List.drop_left,List.drop_one,List.tail_cons]
  have hcount : schemesCountAt (front ++ UInt8.ofNat (names.take handshakeMaxSchemes).length ::
      ((names.take handshakeMaxSchemes).flatMap (fun name => schemeSlot (stringOfBytes name)) ++
        rest)) = (names.take handshakeMaxSchemes).length := by
    unfold schemesCountAt
    rw [List.getD_eq_getElem?_getD,List.getElem?_append_right hfront.le,hfront,Nat.sub_self,
      List.getElem?_cons_zero,Option.getD_some,UInt8.toNat_ofNat']
    unfold handshakeMaxSchemes at *
    omega
  have hnames := congrArg (List.map stringOfBytes) (slots_read (names.take handshakeMaxSchemes) rest)
  rw [List.map_map,List.map_map] at hnames
  rw [hsplit,getSchemes_eq,hcount]
  simp only [hdrop]
  exact hnames

/-- For every payload that is long enough to be looked at: `get_schemes` stays in the table, and
within its limits, if and only if the peer's count and the peer's NULs do. What `set_schemes` has
written is read back. -/
theorem schemes_read (data : Bytes) (hlen : handshakePayloadSize ≤ data.length) :
    (SchemesInBounds data ↔ SchemesTerminated data) ∧
    ∀ (p : HandshakePayload) (names : List Bytes) (tail : Bytes),
      getSchemes ({ p with
        schemesCount := (setSchemes (names.map stringOfBytes)).1,
        schemes := (setSchemes (names.map stringOfBytes)).2 }.encode ++ tail) =
      (names.take handshakeMaxSchemes).map (fun name => stringOfBytes (cutScheme name)) :=
  ⟨schemesInBounds_iff hlen,getSchemes_setSchemes⟩

/-- Alice's identity, with a count and a table of her choice. -/
def alicePayload (count : UInt8) (schemes : Bytes) : Bytes :=
  HandshakePayload.encode
    { userPubkey := NodeIdentity.alice.userPubkey,
      devicePubkey := NodeIdentity.alice.devicePubkey,
      signature := Sodium.sample.signDetached NodeIdentity.alice.userSeckey
        (NodeIdentity.alice.userPubkey.bytes ++ NodeIdentity.alice.devicePubkey.bytes),
      schemesCount := count,
      schemes := schemes,
      coreMeta := {} }

theorem schemes_read_tcp :
    SchemesInBounds (alicePayload 1 (schemeSlot "tcp" ++ List.replicate 112 0)) := by
  obtain ⟨hlen,hnul⟩ :
      handshakePayloadSize ≤ (alicePayload 1 (schemeSlot "tcp" ++ List.replicate 112 0)).length ∧
      schemesCountAt (alicePayload 1 (schemeSlot "tcp" ++ List.replicate 112 0)) ≤
        handshakeMaxSchemes ∧
      ∀ i < schemesCountAt (alicePayload 1 (schemeSlot "tcp" ++ List.replicate 112 0)),
        0 ∈ (schemeAt (alicePayload 1 (schemeSlot "tcp" ++ List.replicate 112 0)) i).take
          handshakeSchemeLen := by
    decide +kernel
  exact (schemes_read _ hlen).1.2 hnul

/-- The responder once it has read the initiator's confirmation. -/
def bobHasRead : Impl :=
  let st := (Impl.start NodeIdentity.bob).run (Env.sample false) bobAnswers
  match (st.find 1).bind ConnectionRecord.handshake with
  | none => st
  | some hs =>
    (st.readNoise (Env.sample false) 1 .fin hs
      ((Impl.start NodeIdentity.alice).run (Env.sample false) aliceConfirms).lastSent 512).1

/-- A peer with a valid identity counts 255 names in a table without a NUL. -/
theorem schemes_read_past_table :
    ¬ ∀ (env : Env) (st : Impl) (id : Nat) (data : Bytes), handshakePayloadSize ≤ data.length →
      (st.processHandshakePayload env id data).2 = true → SchemesInBounds data := by
  intro hall
  obtain ⟨hlen,haccepted,hcount⟩ :
      handshakePayloadSize ≤ (alicePayload 255 (List.replicate 128 65)).length ∧
      (bobHasRead.processHandshakePayload (Env.sample false) 1
        (alicePayload 255 (List.replicate 128 65))).2 = true ∧
      ¬ schemesCountAt (alicePayload 255 (List.replicate 128 65)) ≤ handshakeMaxSchemes := by
    decide +kernel
  exact hcount ((schemesInBounds_iff hlen).1 (hall _ _ _ _ hlen haccepted)).1

end GoodNet
