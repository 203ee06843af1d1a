import GoodNet.IceAuthentication
set_option autoImplicit false

/-! What the builders of `stun.cpp` make and the parsers find in it: a header, attributes padded to
four bytes, MESSAGE-INTEGRITY and FINGERPRINT. The length in the header is written three times, and
what is computed over the message sees the one of its time. -/

namespace GoodNet.Ice
open Codec

/-- An attribute as it lies in a message. -/
def encodeAttr (type : UInt16) (value : Bytes) : Bytes :=
  writeU16 type ++ writeU16 (UInt16.ofNat value.length) ++ value ++
    List.replicate (padded value.length-value.length) 0

def encodeAttrs (attrs : List (UInt16 × Bytes)) : Bytes :=
  attrs.flatMap (fun a => encodeAttr a.1 a.2)

/-- The same attributes as the parsers see them. -/
def laidOut : Nat → List (UInt16 × Bytes) → List StunAttr
  | _, [] => []
  | pos, a :: rest => ⟨pos,a.1,a.2⟩ :: laidOut (pos+4+padded a.2.length) rest

def stunHeader (type len : UInt16) (txn : TransactionId) : Bytes :=
  writeU16 type ++ writeU16 len ++ writeU32 stunMagicCookie ++ txn.bytes

@[simp] theorem writeU16_length (v : UInt16) : (writeU16 v).length = 2 := rfl

@[simp] theorem writeU32_length (v : UInt32) : (writeU32 v).length = 4 := by
  simp [writeU32]

@[simp] theorem stunHeader_length (type len : UInt16) (txn : TransactionId) :
    (stunHeader type len txn).length = 20 := by
  simp [stunHeader]

theorem xorKey_length (txn : TransactionId) : (xorKey txn).length = 16 := by
  simp [xorKey]

theorem readU16_write (v : UInt16) (rest : Bytes) : readU16 (writeU16 v ++ rest) = v := by
  have hv := v.toNat_lt
  have hhigh : (UInt8.ofNat (v.toNat/256)).toNat = v.toNat/256 := by
    rw [UInt8.toNat_ofNat',Nat.mod_eq_of_lt (by omega)]
  have hlow : (UInt8.ofNat v.toNat).toNat = v.toNat%256 := UInt8.toNat_ofNat'
  apply UInt16.toNat_inj.1
  change (UInt16.ofNat (256*(UInt8.ofNat (v.toNat/256)).toNat+(UInt8.ofNat v.toNat).toNat)).toNat = _
  rw [hhigh,hlow,UInt16.toNat_ofNat']
  omega

theorem readU32_write (v : UInt32) (rest : Bytes) : readU32 (writeU32 v ++ rest) = v := by
  have hv := v.toNat_lt
  have hbyte : ∀ n, (UInt8.ofNat n).toNat = n%256 := fun n => UInt8.toNat_ofNat'
  apply UInt32.toNat_inj.1
  change (UInt32.ofNat (256*(256*(256*(UInt8.ofNat (v.toNat/256/256/256)).toNat+
    (UInt8.ofNat (v.toNat/256/256)).toNat)+(UInt8.ofNat (v.toNat/256)).toNat)+
    (UInt8.ofNat v.toNat).toNat)).toNat = _
  simp only [hbyte,UInt32.toNat_ofNat']
  omega

theorem le_padded (n : Nat) : n ≤ padded n ∧ padded n < n+4 ∧ padded n%4 = 0 := by
  unfold padded
  omega

theorem encodeAttr_length (type : UInt16) (value : Bytes) :
    (encodeAttr type value).length = 4+padded value.length := by
  have hle := (le_padded value.length).1
  simp only [encodeAttr,List.length_append,writeU16_length,List.length_replicate]
  omega

theorem encodeAttrs_count (attrs : List (UInt16 × Bytes)) :
    4*attrs.length ≤ (encodeAttrs attrs).length := by
  induction attrs with
  | nil => exact Nat.le_refl 0
  | cons a rest ih =>
    simp only [encodeAttrs,List.flatMap_cons,List.length_append,encodeAttr_length,
      List.length_cons] at ih ⊢
    omega

theorem encodeAttrs_append (a b : List (UInt16 × Bytes)) :
    encodeAttrs (a ++ b) = encodeAttrs a ++ encodeAttrs b := List.flatMap_append

@[simp] theorem encodeAttrs_single (type : UInt16) (value : Bytes) :
    encodeAttrs [(type,value)] = encodeAttr type value := by
  simp [encodeAttrs]

theorem appendAttr_eq (buf : Bytes) (type : UInt16) {value : Bytes} (h : padded value.length < 65536) :
    appendAttr buf type value = buf ++ encodeAttr type value := by
  have hle := (le_padded value.length).1
  have hlen : value.length%65536 = value.length := Nat.mod_eq_of_lt (by omega)
  unfold appendAttr encodeAttr
  simp only [hlen,Nat.mod_eq_of_lt h,List.take_length,List.append_assoc]

theorem setMsgLength_header (type len : UInt16) (txn : TransactionId) (body : Bytes) (n : Nat) :
    setMsgLength (stunHeader type len txn ++ body) n =
      stunHeader type (UInt16.ofNat n) txn ++ body := rfl

theorem writeHeader_eq (type : UInt16) (txn : TransactionId) :
    writeHeader type txn = stunHeader type 0 txn := rfl

/-- What MESSAGE-INTEGRITY is computed over, once the attributes before it are there. -/
def signedPart (type : UInt16) (txn : TransactionId) (attrs : List (UInt16 × Bytes)) : Bytes :=
  stunHeader type (UInt16.ofNat ((encodeAttrs attrs).length+24)) txn ++ encodeAttrs attrs

/-- The attributes with MESSAGE-INTEGRITY, under the final length. -/
def fingerprintedPart (hmac : HmacSha1) (type : UInt16) (txn : TransactionId)
    (attrs : List (UInt16 × Bytes)) (password : Bytes) : Bytes :=
  stunHeader type (UInt16.ofNat ((encodeAttrs attrs).length+32)) txn ++ encodeAttrs (attrs ++
    [(stunAttrMessageIntegrity,(hmac password (signedPart type txn attrs)).bytes)])

/-- All attributes of a message. -/
def sealedAttrs (hmac : HmacSha1) (type : UInt16) (txn : TransactionId)
    (attrs : List (UInt16 × Bytes)) (password : Bytes) : List (UInt16 × Bytes) :=
  attrs ++ [(stunAttrMessageIntegrity,(hmac password (signedPart type txn attrs)).bytes),
    (stunAttrFingerprint,
      writeU32 (stunFingerprint (fingerprintedPart hmac type txn attrs password)))]

section
variable {hmac : HmacSha1} {type len : UInt16} {txn : TransactionId}
variable {attrs : List (UInt16 × Bytes)} {password : Bytes}

theorem integrityInput_header :
    integrityInput (stunHeader type len txn ++ encodeAttrs attrs) = signedPart type txn attrs := by
  have hsize : (stunHeader type len txn ++ encodeAttrs attrs).length-stunHeaderSize+4+stunHmacSize =
      (encodeAttrs attrs).length+24 := by
    rw [List.length_append,stunHeader_length,stunHeaderSize,stunHmacSize]
    omega
  unfold integrityInput signedPart
  rw [hsize,setMsgLength_header]

theorem fingerprintedPart_length :
    (fingerprintedPart hmac type txn attrs password).length = (encodeAttrs attrs).length+44 := by
  simp only [fingerprintedPart,encodeAttrs_append,encodeAttrs_single,List.length_append,
    stunHeader_length,encodeAttr_length,Block.length_bytes]
  have hpad : padded 20 = 20 := rfl
  omega

/-- The length the fingerprint is computed with is the final one. -/
theorem appendIntegrityAndFingerprint_eq :
    appendIntegrityAndFingerprint hmac (stunHeader type len txn ++ encodeAttrs attrs) password =
      fingerprintedPart hmac type txn attrs password ++ encodeAttr stunAttrFingerprint
        (writeU32 (stunFingerprint (fingerprintedPart hmac type txn attrs password))) := by
  have hdigest : appendAttr (signedPart type txn attrs) stunAttrMessageIntegrity
      (hmac password (signedPart type txn attrs)).bytes =
      stunHeader type (UInt16.ofNat ((encodeAttrs attrs).length+24)) txn ++ encodeAttrs (attrs ++
        [(stunAttrMessageIntegrity,(hmac password (signedPart type txn attrs)).bytes)]) := by
    rw [appendAttr_eq _ _ (by rw [Block.length_bytes]; decide),encodeAttrs_append,encodeAttrs_single,
      ← List.append_assoc]
    rfl
  have hfull : (encodeAttrs (attrs ++ [(stunAttrMessageIntegrity,
      (hmac password (signedPart type txn attrs)).bytes)])).length =
      (encodeAttrs attrs).length+24 := by
    rw [encodeAttrs_append,encodeAttrs_single,List.length_append,encodeAttr_length,
      Block.length_bytes]
    rfl
  have hfront : setMsgLength (stunHeader type (UInt16.ofNat ((encodeAttrs attrs).length+24)) txn ++
      encodeAttrs (attrs ++ [(stunAttrMessageIntegrity,
        (hmac password (signedPart type txn attrs)).bytes)])) ((encodeAttrs attrs).length+32) =
      fingerprintedPart hmac type txn attrs password := setMsgLength_header ..
  have hlast : ∀ tail : Bytes, setMsgLength (fingerprintedPart hmac type txn attrs password ++ tail)
      ((encodeAttrs attrs).length+32) = fingerprintedPart hmac type txn attrs password ++ tail := by
    intro tail
    unfold fingerprintedPart
    rw [List.append_assoc,setMsgLength_header]
  have hsize : 20+((encodeAttrs attrs).length+24)-20+8 = (encodeAttrs attrs).length+32 := by omega
  have hall : (encodeAttrs attrs).length+44+(4+padded 4)-20 = (encodeAttrs attrs).length+32 := by
    have hpad : padded 4 = 4 := rfl
    omega
  unfold appendIntegrityAndFingerprint
  simp only [integrityInput_header,hdigest]
  rw [List.length_append,stunHeader_length,hfull,stunHeaderSize,hsize,hfront]
  unfold appendAttrU32
  rw [appendAttr_eq _ _ (by rw [writeU32_length]; decide)]
  unfold updateMsgLength
  rw [List.length_append,fingerprintedPart_length,encodeAttr_length,writeU32_length,stunHeaderSize,
    hall,hlast]

/-- With the header of the right length, a message of the attributes is read as them. -/
theorem stunAttrs_laidOut {data : Bytes} {rounds pos : Nat}
    (hdrop : data.drop pos = encodeAttrs attrs) (hvalues : ∀ a ∈ attrs, a.2.length < 65536)
    (hrounds : attrs.length ≤ rounds) :
    stunAttrs data data.length rounds pos = laidOut pos attrs := by
  induction attrs generalizing rounds pos with
  | nil =>
    have hend : data.length ≤ pos := List.drop_eq_nil_iff.1 hdrop
    cases rounds with
    | zero => rfl
    | succ rounds => exact if_pos (.inl (by omega))
  | cons a rest ih =>
    obtain ⟨rounds,rfl⟩ : ∃ r, rounds = r+1 := ⟨rounds-1,by
      rw [List.length_cons] at hrounds
      omega⟩
    have ha := hvalues a (List.mem_cons_self ..)
    have hsplit : data.drop pos = encodeAttr a.1 a.2 ++ encodeAttrs rest := hdrop
    have hlen : (UInt16.ofNat a.2.length).toNat = a.2.length := by
      rw [UInt16.toNat_ofNat',Nat.mod_eq_of_lt ha]
    have hroom : pos+4+padded a.2.length ≤ data.length := by
      have h := congrArg List.length hsplit
      rw [List.length_drop,List.length_append,encodeAttr_length] at h
      omega
    have htype : readU16 (data.drop pos) = a.1 := by
      rw [hsplit]
      unfold encodeAttr
      simp only [List.append_assoc]
      exact readU16_write _ _
    have hcount : readU16 (data.drop (pos+2)) = UInt16.ofNat a.2.length := by
      rw [← List.drop_drop,hsplit]
      unfold encodeAttr
      simp only [List.append_assoc]
      exact readU16_write _ _
    have hvalue : (data.drop (pos+4)).take a.2.length = a.2 := by
      rw [← List.drop_drop,hsplit]
      unfold encodeAttr
      simp only [List.append_assoc]
      exact List.take_left
    have hnext : data.drop (pos+4+padded a.2.length) = encodeAttrs rest := by
      rw [Nat.add_assoc,← List.drop_drop,hsplit,← encodeAttr_length a.1 a.2]
      exact List.drop_left
    rw [stunAttrs]
    rw [hcount,hlen,if_neg (by omega),htype,hvalue,
      ih hnext (fun b hb => hvalues b (List.mem_cons_of_mem _ hb)) (by
        rw [List.length_cons] at hrounds
        omega)]
    rfl

theorem laidOut_append (pos : Nat) (attrs rest : List (UInt16 × Bytes)) :
    laidOut pos (attrs ++ rest) =
      laidOut pos attrs ++ laidOut (pos+(encodeAttrs attrs).length) rest := by
  induction attrs generalizing pos with
  | nil => rfl
  | cons a more ih =>
    have hlen : (encodeAttrs (a :: more)).length =
        4+padded a.2.length+(encodeAttrs more).length := by
      simp only [encodeAttrs,List.flatMap_cons,List.length_append,encodeAttr_length]
    have hpos : pos+4+padded a.2.length+(encodeAttrs more).length =
        pos+(4+padded a.2.length+(encodeAttrs more).length) := by omega
    rw [List.cons_append,laidOut,laidOut,ih,hlen,hpos,List.cons_append]

theorem mem_laidOut {pos : Nat} {a : StunAttr} (h : a ∈ laidOut pos attrs) :
    (a.type,a.value) ∈ attrs ∧ a.offset%4 = pos%4 := by
  induction attrs generalizing pos with
  | nil => cases h
  | cons b rest ih =>
    rcases List.mem_cons.1 h with rfl | h
    · exact ⟨List.mem_cons_self ..,rfl⟩
    · obtain ⟨hmem,hoffset⟩ := ih h
      have hpad := (le_padded b.2.length).2.2
      exact ⟨List.mem_cons_of_mem _ hmem,by omega⟩

theorem laidOut_map (pos : Nat) (attrs : List (UInt16 × Bytes)) :
    (laidOut pos attrs).map (fun a => (a.type,a.value)) = attrs := by
  induction attrs generalizing pos with
  | nil => rfl
  | cons b rest ih => rw [laidOut,List.map_cons,ih]

theorem value_le_encodeAttrs {a : UInt16 × Bytes} (h : a ∈ attrs) :
    a.2.length ≤ (encodeAttrs attrs).length := by
  induction attrs with
  | nil => cases h
  | cons b rest ih =>
    simp only [encodeAttrs,List.flatMap_cons,List.length_append,encodeAttr_length] at ih ⊢
    rcases List.mem_cons.1 h with rfl | h
    · have hle := (le_padded a.2.length).1
      omega
    · have hle := ih h
      omega

/-- A message of a header and attributes, with the length of the attributes in the header. -/
def messageOf (type : UInt16) (txn : TransactionId) (attrs : List (UInt16 × Bytes)) : Bytes :=
  stunHeader type (UInt16.ofNat (encodeAttrs attrs).length) txn ++ encodeAttrs attrs

theorem messageOf_length :
    (messageOf type txn attrs).length = 20+(encodeAttrs attrs).length := by
  rw [messageOf,List.length_append,stunHeader_length]

/-- The length field, and where the attributes end by it. -/
theorem messageOf_end (h : (encodeAttrs attrs).length < 65536) :
    (readU16 ((messageOf type txn attrs).drop 2)).toNat = (encodeAttrs attrs).length ∧
      stunEnd (messageOf type txn attrs) = (messageOf type txn attrs).length := by
  have hread : readU16 ((messageOf type txn attrs).drop 2) =
      UInt16.ofNat (encodeAttrs attrs).length := readU16_write _ _
  have hlen : (readU16 ((messageOf type txn attrs).drop 2)).toNat = (encodeAttrs attrs).length := by
    rw [hread,UInt16.toNat_ofNat',Nat.mod_eq_of_lt h]
  refine ⟨hlen,?_⟩
  rw [stunEnd,hlen,messageOf_length]
  rfl

theorem messageOf_ok (h : (encodeAttrs attrs).length < 65536) :
    stunHeaderOk type (messageOf type txn attrs) = true := by
  have htype : readU16 (messageOf type txn attrs) = type := readU16_write _ _
  have hcookie : readU32 ((messageOf type txn attrs).drop 4) = stunMagicCookie := by
    have hdrop : (messageOf type txn attrs).drop 4 =
        writeU32 stunMagicCookie ++ (txn.bytes ++ encodeAttrs attrs) := rfl
    rw [hdrop,readU32_write]
  have hlong : stunHeaderSize ≤ (messageOf type txn attrs).length := by
    rw [messageOf_length]
    exact Nat.le_add_right ..
  unfold stunHeaderOk
  rw [htype,hcookie,(messageOf_end h).2,decide_eq_true hlong,decide_eq_true (Nat.le_refl _)]
  simp

theorem messageOf_txnId : stunTxnId (messageOf type txn attrs) = txn :=
  Block.ofBytes_append txn (encodeAttrs attrs)

theorem messageOf_attributes (h : (encodeAttrs attrs).length < 65536) :
    attributes (messageOf type txn attrs) = laidOut 20 attrs := by
  have hdrop : (messageOf type txn attrs).drop 20 = encodeAttrs attrs := by
    rw [messageOf,← stunHeader_length type _ txn]
    exact List.drop_left
  have hrounds : attrs.length ≤ (messageOf type txn attrs).length := by
    have hcount := encodeAttrs_count attrs
    rw [messageOf_length]
    omega
  unfold attributes
  rw [(messageOf_end h).2]
  exact stunAttrs_laidOut hdrop
    (fun a ha => Nat.lt_of_le_of_lt (value_le_encodeAttrs ha) h) hrounds

theorem sealedAttrs_length :
    (encodeAttrs (sealedAttrs hmac type txn attrs password)).length =
      (encodeAttrs attrs).length+32 := by
  have hpad : padded 20 = 20 ∧ padded 4 = 4 := ⟨rfl,rfl⟩
  rw [sealedAttrs,encodeAttrs_append,List.length_append]
  simp only [encodeAttrs,List.flatMap_cons,List.flatMap_nil,List.length_append,List.length_nil,
    encodeAttr_length,Block.length_bytes,writeU32_length,hpad.1,hpad.2]

/-- What the builders end with is a message whose length field is its own. -/
theorem appendIntegrityAndFingerprint_message :
    appendIntegrityAndFingerprint hmac (stunHeader type len txn ++ encodeAttrs attrs) password =
      messageOf type txn (sealedAttrs hmac type txn attrs password) := by
  rw [appendIntegrityAndFingerprint_eq,messageOf,sealedAttrs_length,fingerprintedPart,
    List.append_assoc,sealedAttrs]
  congr 1
  rw [← encodeAttrs_single,← encodeAttrs_append,List.append_assoc]
  rfl

/-- The attribute the integrity check is made at is the one the builder appended. -/
theorem integrityAttr_sealed (hno : ∀ a ∈ attrs, a.1 ≠ stunAttrMessageIntegrity)
    (hfits : (encodeAttrs attrs).length+32 < 65536) :
    integrityAttr (messageOf type txn (sealedAttrs hmac type txn attrs password)) =
      some ⟨20+(encodeAttrs attrs).length,stunAttrMessageIntegrity,
        (hmac password (signedPart type txn attrs)).bytes⟩ := by
  have hsize : (encodeAttrs (sealedAttrs hmac type txn attrs password)).length < 65536 := by
    rwa [sealedAttrs_length]
  have hfront : (laidOut 20 attrs).filter StunAttr.isIntegrity = [] := by
    rw [List.filter_eq_nil_iff]
    intro a ha hint
    exact hno _ (mem_laidOut ha).1 (beq_iff_eq.1 hint)
  unfold integrityAttr
  rw [messageOf_attributes hsize,sealedAttrs,laidOut_append,List.filter_append,hfront]
  rfl

/-- The digest is taken over the same bytes, under the same length, as by the builder. -/
theorem integrityInput_sealed :
    integrityInput ((messageOf type txn (sealedAttrs hmac type txn attrs password)).take
      (20+(encodeAttrs attrs).length)) = signedPart type txn attrs := by
  have htake : ∀ len tail, (stunHeader type len txn ++ (encodeAttrs attrs ++ tail)).take
      (20+(encodeAttrs attrs).length) = stunHeader type len txn ++ encodeAttrs attrs := by
    intro len tail
    rw [← List.append_assoc,← stunHeader_length type len txn,← List.length_append]
    exact List.take_left
  rw [messageOf,sealedAttrs,encodeAttrs_append,htake,integrityInput_header]

/-- Such a message is accepted by who has the password, or has none, or gets the same digest. -/
theorem parseBindingRequest_sealed (hno : ∀ a ∈ attrs, a.1 ≠ stunAttrMessageIntegrity)
    (hfits : (encodeAttrs attrs).length+32 < 65536) (beyond other : Bytes) :
    parseBindingRequest hmac (messageOf stunBindingRequest txn
        (sealedAttrs hmac stunBindingRequest txn attrs password)) beyond other =
      if other.isEmpty || hmac other (signedPart stunBindingRequest txn attrs) ==
          hmac password (signedPart stunBindingRequest txn attrs) then
        some ((laidOut 20 attrs).foldl StunRequest.take { txnId := txn })
      else none := by
  have hsize : (encodeAttrs (sealedAttrs hmac stunBindingRequest txn attrs password)).length <
      65536 := by rwa [sealedAttrs_length]
  have hint := @integrityAttr_sealed hmac stunBindingRequest txn attrs password hno hfits
  have hfold : (attributes (messageOf stunBindingRequest txn
      (sealedAttrs hmac stunBindingRequest txn attrs password))).foldl StunRequest.take
        { txnId := txn } = (laidOut 20 attrs).foldl StunRequest.take { txnId := txn } := by
    rw [messageOf_attributes hsize,sealedAttrs,laidOut_append,List.foldl_append]
    rfl
  have hmatch : integrityMatches hmac (messageOf stunBindingRequest txn
      (sealedAttrs hmac stunBindingRequest txn attrs password)) beyond other
        (20+(encodeAttrs attrs).length) =
      (hmac other (signedPart stunBindingRequest txn attrs) ==
        hmac password (signedPart stunBindingRequest txn attrs)) := by
    have hread := @attributes_digest _ beyond _ (integrityAttr_mem hint).1 (Block.length_bytes _)
    unfold integrityMatches
    rw [integrityInput_sealed,hread,Bool.eq_iff_iff,beq_iff_eq,beq_iff_eq]
    exact ⟨Block.ext,congrArg Block.bytes⟩
  unfold parseBindingRequest
  rw [messageOf_ok hsize,messageOf_txnId,hint,hfold]
  dsimp only
  rw [hmatch,if_pos rfl]

end

/-- The attributes of a check in front of MESSAGE-INTEGRITY. -/
def checkAttrs (username : Bytes) (priority : UInt32) (useCandidate controlling : Bool)
    (tieBreaker : UInt64) : List (UInt16 × Bytes) :=
  [(stunAttrUsername,username),(stunAttrPriority,writeU32 priority),
    (if controlling then stunAttrIceControlling else stunAttrIceControlled,writeU64 tieBreaker)] ++
  if useCandidate then [(stunAttrUseCandidate,[])] else []

/-- The length of a check behind its header. -/
def checkLength (username : Bytes) (useCandidate : Bool) : Nat :=
  4+padded username.length+8+12+(if useCandidate then 4 else 0)+(4+stunHmacSize)+8

section
variable {hmac : HmacSha1} {txn : TransactionId} {username password : Bytes} {priority : UInt32}
variable {useCandidate controlling : Bool} {tieBreaker : UInt64}

theorem checkAttrs_length :
    (encodeAttrs (checkAttrs username priority useCandidate controlling tieBreaker)).length+32 =
      checkLength username useCandidate := by
  have hwide : (writeU64 tieBreaker).length = 8 := by simp [writeU64]
  have hpad : padded 8 = 8 ∧ padded 4 = 4 ∧ padded 0 = 0 := ⟨rfl,rfl,rfl⟩
  unfold checkLength stunHmacSize checkAttrs
  cases useCandidate with
  | false =>
    simp only [encodeAttrs,List.flatMap_cons,List.flatMap_nil,List.flatMap_append,
      List.length_append,List.length_nil,encodeAttr_length,writeU32_length,hwide,hpad,
      Bool.false_eq_true,ite_false]
  | true =>
    simp only [encodeAttrs,List.flatMap_cons,List.flatMap_nil,List.flatMap_append,
      List.length_append,List.length_nil,encodeAttr_length,writeU32_length,hwide,hpad,ite_true]

theorem checkAttrs_unsigned {a : UInt16 × Bytes}
    (h : a ∈ checkAttrs username priority useCandidate controlling tieBreaker) :
    a.1 ≠ stunAttrMessageIntegrity := by
  unfold checkAttrs at h
  rcases List.mem_append.1 h with h | h
  · simp only [List.mem_cons,List.not_mem_nil,or_false] at h
    rcases h with rfl | rfl | rfl
    · change stunAttrUsername ≠ stunAttrMessageIntegrity
      decide
    · change stunAttrPriority ≠ stunAttrMessageIntegrity
      decide
    · dsimp only
      split
      · decide
      · decide
  · split at h
    · rw [List.mem_singleton] at h
      rw [h]
      decide
    · cases h

theorem checkAttrs_read (pos : Nat) :
    (laidOut pos (checkAttrs username priority useCandidate controlling tieBreaker)).foldl
      StunRequest.take { txnId := txn } = ⟨txn,priority,useCandidate,username⟩ := by
  have hrole : ∀ (offset : Nat) (value : Bytes) (req : StunRequest), req.take ⟨offset,
      if controlling then stunAttrIceControlling else stunAttrIceControlled,value⟩ = req := by
    intro offset value req
    refine StunRequest.take_other ?_ req
    cases controlling with
    | false => rfl
    | true => rfl
  have hprio : readU32 (writeU32 priority) = priority := by
    simpa using readU32_write priority []
  unfold checkAttrs
  rw [laidOut_append,List.foldl_append]
  simp only [laidOut,List.foldl_cons,List.foldl_nil,hrole]
  cases useCandidate with
  | false => simp [StunRequest.take,laidOut,hprio,stunAttrUsername,stunAttrPriority]
  | true =>
    simp [StunRequest.take,laidOut,hprio,stunAttrUsername,stunAttrPriority,stunAttrUseCandidate]

theorem buildCheckRequest_message (h : checkLength username useCandidate < 2^16) :
    buildCheckRequest hmac txn username password priority useCandidate controlling tieBreaker =
      messageOf stunBindingRequest txn (sealedAttrs hmac stunBindingRequest txn
        (checkAttrs username priority useCandidate controlling tieBreaker) password) := by
  have hname : padded username.length < 65536 := by
    unfold checkLength at h
    omega
  have hfour : padded (writeU32 priority).length < 65536 := by
    rw [writeU32_length]
    decide
  have height : padded (writeU64 tieBreaker).length < 65536 := by
    simp only [writeU64,List.length_reverse,leBytes_length]
    decide
  have hnone : padded ([] : Bytes).length < 65536 := by decide
  have hrole : (if controlling then
        appendAttrU64 (stunHeader stunBindingRequest 0 txn ++ encodeAttr stunAttrUsername username ++
          encodeAttr stunAttrPriority (writeU32 priority)) stunAttrIceControlling tieBreaker
      else
        appendAttrU64 (stunHeader stunBindingRequest 0 txn ++ encodeAttr stunAttrUsername username ++
          encodeAttr stunAttrPriority (writeU32 priority)) stunAttrIceControlled tieBreaker) =
      stunHeader stunBindingRequest 0 txn ++ encodeAttrs
        [(stunAttrUsername,username),(stunAttrPriority,writeU32 priority),
          (if controlling then stunAttrIceControlling else stunAttrIceControlled,
            writeU64 tieBreaker)] := by
    unfold appendAttrU64
    rw [appendAttr_eq _ _ height,appendAttr_eq _ _ height]
    cases controlling with
    | false => simp [encodeAttrs]
    | true => simp [encodeAttrs]
  unfold buildCheckRequest
  dsimp only
  rw [writeHeader_eq,appendAttr_eq _ _ hname,appendAttrU32,
    appendAttr_eq _ _ hfour,hrole,appendAttr_eq _ _ hnone,
    ← @appendIntegrityAndFingerprint_message _ _ 0,checkAttrs]
  cases useCandidate with
  | false => simp
  | true =>
    rw [if_pos rfl,if_pos rfl,encodeAttrs_append,encodeAttrs_single,List.append_assoc]

end

/-- The length field tells the size behind the header, which is filled by attributes at multiples of
four, padded with zeros, and a FINGERPRINT ends it. -/
structure WellFormed (data : Bytes) : Prop where
  length : (readU16 (data.drop 2)).toNat = data.length-stunHeaderSize
  aligned : ∀ a ∈ attributes data, 4 ∣ a.offset
  filled : data.drop stunHeaderSize = encodeAttrs ((attributes data).map (fun a => (a.type,a.value)))
  fingerprint : ∃ front, data = front ++
    encodeAttr stunAttrFingerprint (writeU32 (stunFingerprint front))

theorem sealed_wellFormed {hmac : HmacSha1} {type : UInt16} {txn : TransactionId}
    {attrs : List (UInt16 × Bytes)} {password : Bytes}
    (hfits : (encodeAttrs attrs).length+32 < 65536) :
    WellFormed (messageOf type txn (sealedAttrs hmac type txn attrs password)) := by
  have hsize : (encodeAttrs (sealedAttrs hmac type txn attrs password)).length < 65536 := by
    rwa [sealedAttrs_length]
  refine ⟨?_,?_,?_,fingerprintedPart hmac type txn attrs password,?_⟩
  · rw [(messageOf_end hsize).1,messageOf_length]
    exact (Nat.add_sub_cancel_left ..).symm
  · intro a ha
    rw [messageOf_attributes hsize] at ha
    have hoffset := (mem_laidOut ha).2
    omega
  · rw [messageOf_attributes hsize,laidOut_map,messageOf,stunHeaderSize,
      ← stunHeader_length type _ txn]
    exact List.drop_left
  · rw [← @appendIntegrityAndFingerprint_message _ _ 0,appendIntegrityAndFingerprint_eq]

/-- A check that fits the length field is well formed, is read under its password as what it was
built from, and is refused under another one, if HMAC has no collision among `calls`. -/
theorem check_request_round_trip (hmac : HmacSha1) (txn : TransactionId) (username password : Bytes)
    (priority : UInt32) (useCandidate controlling : Bool) (tieBreaker : UInt64)
    (hfits : checkLength username useCandidate < 2^16) :
    let data := buildCheckRequest hmac txn username password priority useCandidate controlling
      tieBreaker
    let message := signedPart stunBindingRequest txn
      (checkAttrs username priority useCandidate controlling tieBreaker)
    WellFormed data ∧
    (∀ beyond, parseBindingRequest hmac data beyond password =
      some ⟨txn,priority,useCandidate,username⟩) ∧
    ∀ calls : Set (Bytes × Bytes), calls.InjOn (fun c => hmac c.1 c.2) →
      ∀ other, other ≠ [] → other ≠ password → (password,message) ∈ calls →
        (other,message) ∈ calls → ∀ beyond, parseBindingRequest hmac data beyond other = none := by
  have hsize : (encodeAttrs (checkAttrs username priority useCandidate controlling
      tieBreaker)).length+32 < 65536 := by
    rw [checkAttrs_length]
    exact hfits
  dsimp only
  rw [buildCheckRequest_message hfits]
  refine ⟨sealed_wellFormed hsize,fun beyond => ?_,
    fun calls hfree other hne hother hmine htheirs beyond => ?_⟩
  · rw [parseBindingRequest_sealed (fun a ha => checkAttrs_unsigned ha) hsize,checkAttrs_read,
      beq_self_eq_true,Bool.or_true,if_pos rfl]
  · have hempty : other.isEmpty = false := by simpa using hne
    have hdigest : hmac other (signedPart stunBindingRequest txn (checkAttrs username priority
        useCandidate controlling tieBreaker)) ≠ hmac password (signedPart stunBindingRequest txn
        (checkAttrs username priority useCandidate controlling tieBreaker)) := by
      intro heq
      exact hother (congrArg Prod.fst (hfree htheirs hmine heq))
    rw [parseBindingRequest_sealed (fun a ha => checkAttrs_unsigned ha) hsize,hempty,
      beq_false_of_ne hdigest]
    rfl

/-- The digests of the check below under its password and under another one. -/
def checkHmac : HmacSha1 := fun key _ =>
  if key = [112,119] then
    ⟨[65,222,5,17,44,150,21,253,212,144,247,234,180,124,148,94,99,24,110,195],rfl⟩
  else ⟨[67,131,35,82,191,253,45,3,38,244,105,52,160,164,15,63,214,94,86,25],rfl⟩

def checkTxn : TransactionId := ⟨List.replicate 12 7,rfl⟩

/-- A check from the user a:b under the password pw. -/
def sampleCheck : Bytes := buildCheckRequest checkHmac checkTxn [97,58,98] [112,119] 5 true false 9

theorem sampleCheck_round_trip :
    (∀ beyond, parseBindingRequest checkHmac sampleCheck beyond [112,119] =
      some ⟨checkTxn,5,true,[97,58,98]⟩) ∧
    ∀ beyond, parseBindingRequest checkHmac sampleCheck beyond [120,121] = none := by
  have h := check_request_round_trip checkHmac checkTxn [97,58,98] [112,119] 5 true false 9
    (by decide)
  have hfree : Set.InjOn (fun c : Bytes × Bytes => checkHmac c.1 c.2)
      {([112,119],signedPart stunBindingRequest checkTxn (checkAttrs [97,58,98] 5 true false 9)),
        ([120,121],signedPart stunBindingRequest checkTxn
          (checkAttrs [97,58,98] 5 true false 9))} := by
    intro c hc d hd heq
    have hne : ∀ m m', checkHmac [112,119] m ≠ checkHmac [120,121] m' := by
      intro m m'
      simp [checkHmac]
    rcases hc with rfl | rfl <;> rcases hd with rfl | rfl
    · rfl
    · exact absurd heq (hne _ _)
    · exact absurd heq.symm (hne _ _)
    · rfl
  exact ⟨h.2.1,h.2.2 _ hfree [120,121] (by decide) (by decide) (.inl rfl) (.inr rfl)⟩

/-- Under the empty password nothing is compared, and the check is accepted. -/
theorem sampleCheck_without_password :
    parseBindingRequest checkHmac sampleCheck [] [] = some ⟨checkTxn,5,true,[97,58,98]⟩ := by
  decide +kernel

end GoodNet.Ice
