import GoodNet.StunLayout
import GoodNet.Lib.CheckedReads
set_option autoImplicit false

/-! The parsers of `stun.cpp` with every read checked against the datagram. The loop over the
attributes stays inside of it. What is compared for MESSAGE-INTEGRITY after the loop has a fixed
size and need not. -/

namespace GoodNet.Ice
open Codec CheckedReads

def readU16At (data : Bytes) (i : Nat) : Option UInt16 := (readBlock data i 2).map readU16

def readU32At (data : Bytes) (i : Nat) : Option UInt32 := (readBlock data i 4).map readU32

/-- The loop of both parsers. `body` is given where an attribute starts, its type and its length.
Out of rounds the loop fails, as it does where it reads outside of the datagram. -/
def eachAttr {σ : Type} (body : Nat → UInt16 → Nat → σ → Option σ) (data : Bytes) (stop : Nat) :
    Nat → Nat → σ → Option σ
  | 0, _, _ => none
  | rounds+1, pos, r =>
    if stop < pos+4 then some r
    else do
      let type ← readU16At data pos
      let len ← readU16At data (pos+2)
      if stop < pos+4+padded len.toNat then some r
      else do
        let r ← body pos type len.toNat r
        eachAttr body data stop rounds (pos+4+padded len.toNat) r

/-- What `parse_binding_response` does with an attribute; the flag is `found_mapped`. -/
def readMapped (data : Bytes) (pos : Nat) (type : UInt16) (len : Nat) (r : StunResult × Bool) :
    Option (StunResult × Bool) :=
  if type = stunAttrXorMappedAddress ∧ 8 ≤ len then do
    let family ← data[pos+4+1]?
    let xport ← readU16At data (pos+4+2)
    let port := xport ^^^ cookiePort
    if family = 1 then do
      let xaddr ← readU32At data (pos+4+4)
      let addr := writeU32 (xaddr ^^^ stunMagicCookie)
      some ({ r.1 with mapped := ⟨.v4 (Block.ofBytes 4 addr),port⟩ },true)
    else if family = 2 ∧ 20 ≤ len then do
      let xaddr ← readBlock data (pos+4+4) 16
      let addr := xorBytes xaddr (xorKey r.1.txnId)
      some ({ r.1 with mapped := ⟨.v6 (Block.ofBytes 16 addr),port⟩ },true)
    else some ({ r.1 with mapped := { r.1.mapped with port := port } },r.2)
  else if type = stunAttrMappedAddress ∧ r.2 = false ∧ 8 ≤ len then do
    let family ← data[pos+4+1]?
    let port ← readU16At data (pos+4+2)
    if family = 1 then do
      let addr ← readBlock data (pos+4+4) 4
      some ({ r.1 with mapped := ⟨.v4 (Block.ofBytes 4 addr),port⟩ },true)
    else some ({ r.1 with mapped := { r.1.mapped with port := port } },r.2)
  else some r

/-- What `parse_binding_request` does with an attribute; the number is `mi_offset`. -/
def readField (data : Bytes) (pos : Nat) (type : UInt16) (len : Nat) (r : StunRequest × Nat) :
    Option (StunRequest × Nat) :=
  if type = stunAttrUsername then do
    let username ← readBlock data (pos+4) len
    some ({ r.1 with username := username },r.2)
  else if type = stunAttrPriority then
    if 4 ≤ len then do
      let priority ← readU32At data (pos+4)
      some ({ r.1 with priority := priority },r.2)
    else some r
  else if type = stunAttrUseCandidate then some ({ r.1 with useCandidate := true },r.2)
  else if type = stunAttrMessageIntegrity then some (r.1,pos)
  else some r

/-- The checks both parsers start with. -/
def readHeaderOk (type : UInt16) (data : Bytes) : Option Bool :=
  if data.length < stunHeaderSize then some false
  else do
    let msgType ← readU16At data 0
    if msgType ≠ type then some false
    else do
      let cookie ← readU32At data 4
      if cookie ≠ stunMagicCookie then some false
      else do
        let msgLen ← readU16At data 2
        some (decide (stunHeaderSize+msgLen.toNat ≤ data.length))

/-- `parse_binding_response` with every read checked. -/
def readBindingResponse (data : Bytes) : Option (Option StunResult) := do
  let ok ← readHeaderOk stunBindingResponse data
  if !ok then some none
  else do
    let txn ← readBlock data 8 12
    let msgLen ← readU16At data 2
    let stop := stunHeaderSize+msgLen.toNat
    let r ← eachAttr (readMapped data) data stop stop stunHeaderSize
      ({ txnId := Block.ofBytes 12 txn },false)
    some (if r.2 then some r.1 else none)

/-- `parse_binding_request` with every read checked. -/
def readBindingRequest (hmac : HmacSha1) (data password : Bytes) : Option (Option StunRequest) := do
  let ok ← readHeaderOk stunBindingRequest data
  if !ok then some none
  else do
    let txn ← readBlock data 8 12
    let msgLen ← readU16At data 2
    let stop := stunHeaderSize+msgLen.toNat
    let r ← eachAttr (readField data) data stop stop stunHeaderSize
      ({ txnId := Block.ofBytes 12 txn },0)
    if 0 < r.2 ∧ password.isEmpty = false then do
      let front ← readBlock data 0 r.2
      let actual ← readBlock data (r.2+4) stunHmacSize
      if (hmac password (integrityInput front)).bytes = actual then some (some r.1) else some none
    else some (some r.1)

/-- Both parsers end and read only bytes of the datagram. -/
def ReadsInside (hmac : HmacSha1) (data password : Bytes) : Prop :=
  (readBindingResponse data).isSome = true ∧ (readBindingRequest hmac data password).isSome = true

/-- The twenty bytes that are compared lie in the datagram, if any are. -/
def DigestInside (data password : Bytes) : Prop :=
  stunHeaderOk stunBindingRequest data = true → password ≠ [] →
    ∀ a ∈ integrityAttr data, a.offset+4+stunHmacSize ≤ data.length

section
variable {data : Bytes} {i : Nat}

theorem getD_take {b : Bytes} {n : Nat} (h : i < n) : (b.take n).getD i 0 = b.getD i 0 := by
  rw [List.getD_eq_getElem?_getD,List.getElem?_take_of_lt h,← List.getD_eq_getElem?_getD]

theorem readU16_take {b : Bytes} {n : Nat} (h : 2 ≤ n) : readU16 (b.take n) = readU16 b := by
  unfold readU16
  rw [getD_take (by omega),getD_take (by omega)]

theorem readU32_take {b : Bytes} {n : Nat} (h : 4 ≤ n) : readU32 (b.take n) = readU32 b := by
  unfold readU32
  rw [getD_take (by omega),getD_take (by omega),getD_take (by omega),getD_take (by omega)]

theorem ofBytes_take {b : Bytes} {n m : Nat} (hn : n ≤ m) (hb : n ≤ b.length) :
    Block.ofBytes n (b.take m) = Block.ofBytes n b := by
  apply Block.ext
  have hm : n ≤ (b.take m).length := by
    rw [List.length_take]
    omega
  simp only [Block.ofBytes]
  rw [List.take_append_of_le_length hm,List.take_append_of_le_length hb,List.take_take,min_eq_left hn]

theorem readU16At_eq (h : i+2 ≤ data.length) : readU16At data i = some (readU16 (data.drop i)) := by
  unfold readU16At
  rw [readBlock_eq h,Option.map_some,readU16_take (Nat.le_refl 2)]

theorem readU32At_eq (h : i+4 ≤ data.length) : readU32At data i = some (readU32 (data.drop i)) := by
  unfold readU32At
  rw [readBlock_eq h,Option.map_some,readU32_take (Nat.le_refl 4)]

theorem readByteAt_eq (h : i < data.length) : data[i]? = some (data.getD i 0) := by
  rw [List.getD_eq_getElem?_getD,List.getElem?_eq_getElem h]
  rfl

end

/-- Where the body reads inside of the datagram for every attribute in it, so does the loop. -/
theorem eachAttr_eq {σ : Type} {body : Nat → UInt16 → Nat → σ → Option σ}
    {step : σ → StunAttr → σ} {data : Bytes} {stop : Nat} (hstop : stop ≤ data.length)
    (hbody : ∀ pos type len r, pos+4+len ≤ data.length →
      body pos type len r = some (step r ⟨pos,type,(data.drop (pos+4)).take len⟩))
    {rounds pos : Nat} (r : σ) (hpos : pos ≤ stop) (hrounds : stop < pos+rounds) :
    eachAttr body data stop rounds pos r =
      some ((stunAttrs data stop rounds pos).foldl step r) := by
  induction rounds generalizing pos r with
  | zero => omega
  | succ rounds ih =>
    rw [eachAttr,stunAttrs]
    by_cases hhead : stop < pos+4
    · rw [if_pos hhead,if_pos (.inl hhead)]
      rfl
    · rw [if_neg hhead,readU16At_eq (by omega),readU16At_eq (by omega)]
      simp only [Option.bind_eq_bind,Option.bind_some]
      by_cases hvalue : stop < pos+4+padded (readU16 (data.drop (pos+2))).toNat
      · rw [if_pos hvalue,if_pos (.inr hvalue)]
        rfl
      · have hlen : (readU16 (data.drop (pos+2))).toNat ≤
            padded (readU16 (data.drop (pos+2))).toNat := by
          unfold padded
          omega
        rw [if_neg hvalue,if_neg (not_or.2 ⟨hhead,hvalue⟩),hbody _ _ _ _ (by omega),
          Option.bind_some,ih _ (by omega) (by omega),List.foldl_cons]

section
variable {data : Bytes} {pos len : Nat}

theorem xorBytes_take (b key : Bytes) {n : Nat} (h : key.length ≤ n) :
    xorBytes (b.take n) key = xorBytes b key := by
  unfold xorBytes
  conv_lhs => rw [← List.take_of_length_le h]
  rw [← List.take_zipWith,List.take_of_length_le]
  rw [List.length_zipWith]
  omega

theorem readMapped_eq (type : UInt16) (r : StunResult × Bool) (h : pos+4+len ≤ data.length) :
    readMapped data pos type len r =
      some (StunResult.take r ⟨pos,type,(data.drop (pos+4)).take len⟩) := by
  have hsize : ((data.drop (pos+4)).take len).length = len := by
    rw [List.length_take,List.length_drop]
    omega
  have hdrop : ∀ k, ((data.drop (pos+4)).take len).drop k = (data.drop (pos+4+k)).take (len-k) := by
    intro k
    rw [List.drop_take,List.drop_drop]
  have hfamily : 8 ≤ len → ((data.drop (pos+4)).take len).getD 1 0 = data.getD (pos+4+1) 0 := by
    intro hlen
    rw [getD_take (by omega),List.getD_eq_getElem?_getD,List.getElem?_drop,
      ← List.getD_eq_getElem?_getD]
  unfold readMapped StunResult.take
  simp only [hsize,hdrop]
  by_cases hxor : type = stunAttrXorMappedAddress ∧ 8 ≤ len
  · rw [if_pos hxor,if_pos hxor,readByteAt_eq (by omega),readU16At_eq (by omega),hfamily hxor.2,
      readU16_take (by omega)]
    simp only [Option.bind_eq_bind,Option.bind_some]
    split
    · rw [readU32At_eq (by omega),readU32_take (by omega)]
      rfl
    · split
      · rename_i hlong
        rw [readBlock_eq (by omega),Option.bind_some,xorBytes_take _ _ (xorKey_length _).le,
          xorBytes_take _ _ (by rw [xorKey_length]; omega)]
      · rfl
  · rw [if_neg hxor,if_neg hxor]
    split
    · rename_i hmapped
      rw [readByteAt_eq (by omega),readU16At_eq (by omega),hfamily hmapped.2.2,
        readU16_take (by omega)]
      simp only [Option.bind_eq_bind,Option.bind_some]
      split
      · rw [readBlock_eq (by omega),Option.bind_some,
          ofBytes_take (Nat.le_refl 4) (by rw [List.length_drop]; omega),
          ofBytes_take (by omega) (by rw [List.length_drop]; omega)]
      · rfl
    · rfl

/-- A round of the loop of `parse_binding_request`, with the position it remembers. -/
def takeField (r : StunRequest × Nat) (a : StunAttr) : StunRequest × Nat :=
  (r.1.take a,if a.isIntegrity then a.offset else r.2)

theorem readField_eq (type : UInt16) (r : StunRequest × Nat) (h : pos+4+len ≤ data.length) :
    readField data pos type len r =
      some (takeField r ⟨pos,type,(data.drop (pos+4)).take len⟩) := by
  have hsize : ((data.drop (pos+4)).take len).length = len := by
    rw [List.length_take,List.length_drop]
    omega
  have hno : stunAttrUsername ≠ stunAttrMessageIntegrity ∧
      stunAttrPriority ≠ stunAttrMessageIntegrity ∧
      stunAttrUseCandidate ≠ stunAttrMessageIntegrity := by decide
  unfold readField takeField StunRequest.take StunAttr.isIntegrity
  simp only [hsize,beq_iff_eq]
  split
  · rename_i hname
    rw [readBlock_eq h,if_neg (by rw [hname]; exact hno.1)]
    rfl
  · split
    · rename_i hprio
      rw [if_neg (hprio ▸ hno.2.1 : type ≠ stunAttrMessageIntegrity)]
      split
      · rw [readU32At_eq (by omega),readU32_take (by omega)]
        rfl
      · rfl
    · split
      · rename_i huse
        rw [if_neg (by rw [huse]; exact hno.2.2)]
      · split
        · rfl
        · rfl

end

/-- The checks on the header read no further than the header. -/
theorem readHeaderOk_eq (type : UInt16) (data : Bytes) :
    readHeaderOk type data = some (stunHeaderOk type data) := by
  unfold readHeaderOk stunHeaderOk
  by_cases hshort : data.length < stunHeaderSize
  · rw [if_pos hshort,decide_eq_false (by omega)]
    rfl
  · have hsize : 20 ≤ data.length := by
      simpa [stunHeaderSize] using hshort
    rw [if_neg hshort,readU16At_eq (by omega),readU32At_eq (by omega),readU16At_eq (by omega),
      decide_eq_true (Nat.not_lt.1 hshort),List.drop_zero]
    simp only [Option.bind_eq_bind,Option.bind_some,Bool.true_and]
    by_cases htype : readU16 data = type
    · by_cases hcookie : readU32 (data.drop 4) = stunMagicCookie
      · simp [htype,hcookie,stunEnd]
        rfl
      · simp [htype,hcookie]
    · simp [htype]

theorem stunHeaderOk_size {type : UInt16} {data : Bytes} (h : stunHeaderOk type data = true) :
    stunHeaderSize ≤ data.length ∧ stunEnd data ≤ data.length := by
  unfold stunHeaderOk at h
  simp only [Bool.and_eq_true,decide_eq_true_eq] at h
  exact ⟨h.1.1.1,h.2⟩

section
variable {data : Bytes}

theorem readTxnId_eq (h : stunHeaderSize ≤ data.length) :
    (readBlock data 8 12).map (Block.ofBytes 12) = some (stunTxnId data) := by
  unfold stunHeaderSize at h
  rw [readBlock_eq (by omega),Option.map_some,
    ofBytes_take (Nat.le_refl 12) (by rw [List.length_drop]; omega)]
  rfl

/-- `parse_binding_response` ends and reads inside of every datagram. -/
theorem readBindingResponse_eq (data : Bytes) :
    readBindingResponse data = some (parseBindingResponse data) := by
  unfold readBindingResponse parseBindingResponse
  rw [readHeaderOk_eq,Option.bind_eq_bind,Option.bind_some]
  cases hok : stunHeaderOk stunBindingResponse data with
  | false => rfl
  | true =>
    obtain ⟨hsize,hend⟩ := stunHeaderOk_size hok
    obtain ⟨txn,htxn,hid⟩ := Option.map_eq_some_iff.1 (readTxnId_eq hsize)
    have hloop := eachAttr_eq hend (fun pos type len r => @readMapped_eq data pos len type r)
      ({ txnId := stunTxnId data },false) (Nat.le_add_right ..) (Nat.lt_add_of_pos_left (by decide))
    have hlen : readU16At data 2 = some (readU16 (data.drop 2)) := readU16At_eq (by
      unfold stunHeaderSize at hsize
      omega)
    simp only [Bool.not_true,Bool.false_eq_true,ite_false,ite_true,htxn,hlen,Option.bind_eq_bind,
      Option.bind_some,hid]
    change (eachAttr (readMapped data) data (stunEnd data) (stunEnd data) stunHeaderSize _).bind _ = _
    rw [hloop]
    rfl

theorem foldl_takeField (attrs : List StunAttr) (req : StunRequest) (pos : Nat) :
    attrs.foldl takeField (req,pos) = (attrs.foldl StunRequest.take req,
      ((attrs.filter StunAttr.isIntegrity).getLast?.map StunAttr.offset).getD pos) := by
  induction attrs generalizing req pos with
  | nil => rfl
  | cons a rest ih =>
    rw [List.foldl_cons,takeField,ih,List.foldl_cons]
    cases hint : a.isIntegrity with
    | false => simp [hint]
    | true =>
      simp only [ite_true,List.filter_cons,hint,List.getLast?_cons]
      cases (rest.filter StunAttr.isIntegrity).getLast? with
      | none => rfl
      | some b => rfl

theorem stunAttrs_offset {stop rounds pos : Nat} {a : StunAttr}
    (h : a ∈ stunAttrs data stop rounds pos) : pos ≤ a.offset ∧ a.offset+4 ≤ stop := by
  induction rounds generalizing pos with
  | zero => simp [stunAttrs] at h
  | succ rounds ih =>
    rw [stunAttrs] at h
    split at h
    · simp at h
    · rename_i hfits
      rcases List.mem_cons.1 h with rfl | h
      · exact ⟨Nat.le_refl pos,Nat.not_lt.1 (fun hlt => hfits (.inl hlt))⟩
      · obtain ⟨hpos,hend⟩ := ih h
        exact ⟨by omega,hend⟩

/-- What `parse_binding_request` reads behind the loop. -/
theorem readBindingRequest_eq (hmac : HmacSha1) {password : Bytes}
    (hok : stunHeaderOk stunBindingRequest data = true) :
    readBindingRequest hmac data password =
      match integrityAttr data with
      | none => some (some ((attributes data).foldl StunRequest.take { txnId := stunTxnId data }))
      | some a =>
        if password.isEmpty then
          some (some ((attributes data).foldl StunRequest.take { txnId := stunTxnId data }))
        else
          (readBlock data (a.offset+4) stunHmacSize).bind (fun actual =>
            some (if (hmac password (integrityInput (data.take a.offset))).bytes = actual then
              some ((attributes data).foldl StunRequest.take { txnId := stunTxnId data })
            else none)) := by
  obtain ⟨hsize,hend⟩ := stunHeaderOk_size hok
  obtain ⟨txn,htxn,hid⟩ := Option.map_eq_some_iff.1 (readTxnId_eq hsize)
  have hrun := eachAttr_eq hend (fun pos type len r => @readField_eq data pos len type r)
    ({ txnId := stunTxnId data },0) (Nat.le_add_right ..) (Nat.lt_add_of_pos_left (by decide))
  rw [foldl_takeField] at hrun
  have hloop : eachAttr (readField data) data (stunEnd data) (stunEnd data) stunHeaderSize
      ({ txnId := stunTxnId data },0) =
      some ((attributes data).foldl StunRequest.take { txnId := stunTxnId data },
        ((integrityAttr data).map StunAttr.offset).getD 0) := hrun
  have hlen : readU16At data 2 = some (readU16 (data.drop 2)) := readU16At_eq (by
    unfold stunHeaderSize at hsize
    omega)
  unfold readBindingRequest
  simp only [readHeaderOk_eq,hok,Bool.not_true,Bool.false_eq_true,ite_false,htxn,hlen,
    Option.bind_eq_bind,Option.bind_some,hid]
  change (eachAttr (readField data) data (stunEnd data) (stunEnd data) stunHeaderSize _).bind _ = _
  rw [hloop,Option.bind_some]
  dsimp only
  cases hint : integrityAttr data with
  | none => rfl
  | some a =>
    have hpos : 20 ≤ a.offset ∧ a.offset+4 ≤ stunEnd data :=
      stunAttrs_offset (integrityAttr_mem hint).1
    have hfront : readBlock data 0 a.offset = some (data.take a.offset) :=
      readBlock_eq (by omega)
    simp only [Option.map_some,Option.getD_some]
    cases password.isEmpty with
    | true => simp
    | false =>
      rw [if_pos ⟨by omega,rfl⟩,hfront,Option.bind_some]
      simp only [Bool.false_eq_true,ite_false]
      refine congrArg _ (funext fun actual => ?_)
      split
      · rfl
      · rfl

theorem ReadsInside_iff (hmac : HmacSha1) (data password : Bytes) :
    ReadsInside hmac data password ↔ DigestInside data password := by
  unfold ReadsInside DigestInside
  rw [readBindingResponse_eq]
  cases hok : stunHeaderOk stunBindingRequest data with
  | false => simp [readBindingRequest,readHeaderOk_eq,hok]
  | true =>
    rw [readBindingRequest_eq hmac hok]
    cases hint : integrityAttr data with
    | none => simp
    | some a =>
      cases password with
      | nil => simp
      | cons c rest =>
        by_cases hin : a.offset+4+stunHmacSize ≤ data.length
        · simp [readBlock_eq hin,hin]
        · simp [readBlock_none (by decide : 0 < stunHmacSize) (Nat.lt_of_not_le hin),hin]

/-- The checked parser agrees with the other one, whatever lies behind the datagram. -/
theorem readBindingRequest_inside (hmac : HmacSha1) {password : Bytes}
    (h : DigestInside data password) (beyond : Bytes) :
    readBindingRequest hmac data password = some (parseBindingRequest hmac data beyond password) := by
  unfold parseBindingRequest
  cases hok : stunHeaderOk stunBindingRequest data with
  | false => simp [readBindingRequest,readHeaderOk_eq,hok]
  | true =>
    rw [readBindingRequest_eq hmac hok]
    cases hint : integrityAttr data with
    | none => rfl
    | some a =>
      cases password with
      | nil => rfl
      | cons c rest =>
        have hin := h hok (List.cons_ne_nil c rest) a hint
        have hread : ((data ++ beyond).drop (a.offset+4)).take stunHmacSize =
            (data.drop (a.offset+4)).take stunHmacSize := by
          rw [List.drop_append_of_le_length (by omega),List.take_append_of_le_length]
          rw [List.length_drop]
          omega
        dsimp only
        rw [readBlock_eq hin]
        simp [integrityMatches,hread]

end

/-- `parse_binding_response` reads only bytes of the datagram, and `parse_binding_request` does so
just when what it compares for MESSAGE-INTEGRITY lies in it. -/
theorem stun_reads_inside (hmac : HmacSha1) (data password : Bytes) :
    readBindingResponse data = some (parseBindingResponse data) ∧
    (DigestInside data password → ∀ beyond, readBindingRequest hmac data password =
      some (parseBindingRequest hmac data beyond password)) ∧
    (ReadsInside hmac data password ↔ DigestInside data password) :=
  ⟨readBindingResponse_eq data,fun h beyond => readBindingRequest_inside hmac h beyond,
    ReadsInside_iff hmac data password⟩

/-- A request that ends with an empty MESSAGE-INTEGRITY. -/
def emptyIntegrity : Bytes :=
  [0,1,0,4,33,18,164,66,7,7,7,7,7,7,7,7,7,7,7,7,0,8,0,0]

/-- The comparison goes on for twenty bytes behind it. -/
theorem emptyIntegrity_read_beyond : ¬ ReadsInside lanWorld.hmac emptyIntegrity [112] := by
  have hbeyond : readBindingRequest lanWorld.hmac emptyIntegrity [112] = none := by decide +kernel
  intro h
  have hsome := h.2
  rw [hbeyond] at hsome
  cases hsome

end GoodNet.Ice
