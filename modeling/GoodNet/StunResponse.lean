import GoodNet.StunLayout
import Mathlib.Data.List.Induction
set_option autoImplicit false

/-! The address in a binding response. `parse_binding_response` goes over the attributes and keeps
the last XOR-MAPPED-ADDRESS it can decode, or else the first such MAPPED-ADDRESS. It takes the port
of an XOR-MAPPED-ADDRESS before it looks at the family. -/

namespace GoodNet.Ice
open Codec

def StunAttr.family (a : StunAttr) : UInt8 := a.value.getD 1 0

/-- An XOR-MAPPED-ADDRESS that is long enough for its family. -/
def StunAttr.isXorMapped (a : StunAttr) : Bool :=
  a.type == stunAttrXorMappedAddress && decide (8 ≤ a.value.length) &&
    (a.family == 1 || a.family == 2 && decide (20 ≤ a.value.length))

/-- A MAPPED-ADDRESS of an IPv4 address. -/
def StunAttr.isMapped (a : StunAttr) : Bool :=
  a.type == stunAttrMappedAddress && decide (8 ≤ a.value.length) && a.family == 1

/-- An XOR-MAPPED-ADDRESS with a port and no address. -/
def StunAttr.isPortOnly (a : StunAttr) : Bool :=
  a.type == stunAttrXorMappedAddress && decide (8 ≤ a.value.length) && !a.isXorMapped

def StunAttr.xorPort (a : StunAttr) : UInt16 := readU16 (a.value.drop 2) ^^^ cookiePort

/-- The address an attribute holds. -/
def StunAttr.decoded (txn : TransactionId) (a : StunAttr) : StunAddress :=
  if a.isMapped then ⟨.v4 (Block.ofBytes 4 (a.value.drop 4)),readU16 (a.value.drop 2)⟩
  else if a.family = 1 then
    ⟨.v4 (Block.ofBytes 4 (writeU32 (readU32 (a.value.drop 4) ^^^ stunMagicCookie))),a.xorPort⟩
  else ⟨.v6 (Block.ofBytes 16 (xorBytes (a.value.drop 4) (xorKey txn))),a.xorPort⟩

/-- The last XOR-MAPPED-ADDRESS, or else the first MAPPED-ADDRESS. -/
def mappedSource (attrs : List StunAttr) : Option StunAttr :=
  (attrs.filter StunAttr.isXorMapped).getLast?.or (attrs.filter StunAttr.isMapped).head?

/-- The last attribute after the source that has a port and no address. -/
def strayPort (attrs : List StunAttr) (source : StunAttr) : Option StunAttr :=
  (attrs.filter (fun b => decide (source.offset < b.offset) && b.isPortOnly)).getLast?

/-- No other port comes after the source, or the last one is the same. -/
def PortKept (data : Bytes) : Prop :=
  stunHeaderOk stunBindingResponse data = true → ∀ s ∈ mappedSource (attributes data),
    ∀ b ∈ strayPort (attributes data) s, b.xorPort = (s.decoded (stunTxnId data)).port

/-- An accepted response tells the address of the one attribute it is taken from. -/
def FromOneAttribute (data : Bytes) : Prop :=
  ∀ r, parseBindingResponse data = some r →
    ∃ s ∈ mappedSource (attributes data), r.mapped = s.decoded (stunTxnId data)

section
variable {txn : TransactionId} {a : StunAttr} {r : StunResult × Bool}

theorem StunAttr.isXorMapped_iff : a.isXorMapped = true ↔
    (a.type = stunAttrXorMappedAddress ∧ 8 ≤ a.value.length) ∧
      (a.family = 1 ∨ a.family = 2 ∧ 20 ≤ a.value.length) := by
  simp [StunAttr.isXorMapped]

theorem StunAttr.isMapped_iff : a.isMapped = true ↔
    (a.type = stunAttrMappedAddress ∧ 8 ≤ a.value.length) ∧ a.family = 1 := by
  simp [StunAttr.isMapped]

theorem StunAttr.isPortOnly_iff : a.isPortOnly = true ↔
    (a.type = stunAttrXorMappedAddress ∧ 8 ≤ a.value.length) ∧ a.isXorMapped = false := by
  simp [StunAttr.isPortOnly]

theorem StunAttr.isXorMapped_not_isMapped (h : a.isXorMapped = true) : a.isMapped = false := by
  have hne : stunAttrXorMappedAddress ≠ stunAttrMappedAddress := by decide
  by_contra hm
  rw [Bool.not_eq_false] at hm
  exact hne ((isXorMapped_iff.1 h).1.1.symm.trans (isMapped_iff.1 hm).1.1)

theorem StunAttr.isPortOnly_not_isMapped (h : a.isPortOnly = true) : a.isMapped = false := by
  have hne : stunAttrXorMappedAddress ≠ stunAttrMappedAddress := by decide
  by_contra hm
  rw [Bool.not_eq_false] at hm
  exact hne ((isPortOnly_iff.1 h).1.1.symm.trans (isMapped_iff.1 hm).1.1)

theorem take_xorMapped (ht : r.1.txnId = txn) (h : a.isXorMapped = true) :
    StunResult.take r a = ({ r.1 with mapped := a.decoded txn },true) := by
  obtain ⟨hxor,hfamily⟩ := StunAttr.isXorMapped_iff.1 h
  unfold StunResult.take StunAttr.decoded
  rw [if_pos hxor,StunAttr.isXorMapped_not_isMapped h,ht]
  rw [if_neg Bool.false_ne_true]
  by_cases hv4 : a.family = 1
  · rw [if_pos hv4]
    exact if_pos hv4
  · rw [if_neg hv4]
    exact (if_neg hv4).trans (if_pos (hfamily.resolve_left hv4))

theorem take_portOnly (h : a.isPortOnly = true) :
    StunResult.take r a = ({ r.1 with mapped := { r.1.mapped with port := a.xorPort } },r.2) := by
  obtain ⟨hxor,hbad⟩ := StunAttr.isPortOnly_iff.1 h
  have hfamily : ¬ (a.family = 1 ∨ a.family = 2 ∧ 20 ≤ a.value.length) := fun hgood =>
    Bool.false_ne_true (hbad.symm.trans (StunAttr.isXorMapped_iff.2 ⟨hxor,hgood⟩))
  unfold StunResult.take
  rw [if_pos hxor]
  exact (if_neg (fun h1 => hfamily (.inl h1))).trans (if_neg (fun h2 => hfamily (.inr h2)))

theorem take_mapped (h : a.isMapped = true) (hr : r.2 = false) :
    StunResult.take r a = ({ r.1 with mapped := a.decoded txn },true) := by
  obtain ⟨⟨htype,hlen⟩,hfamily⟩ := StunAttr.isMapped_iff.1 h
  have hne : stunAttrMappedAddress ≠ stunAttrXorMappedAddress := by decide
  unfold StunResult.take StunAttr.decoded
  rw [if_neg (fun hxor => hne (htype.symm.trans hxor.1)),if_pos ⟨htype,hr,hlen⟩,h]
  exact (if_pos hfamily).trans rfl

/-- Any other attribute leaves the address alone, or there is none yet. -/
theorem take_rest (hx : a.isXorMapped = false) (hp : a.isPortOnly = false)
    (hm : a.isMapped = true → r.2 = true) :
    (StunResult.take r a).2 = r.2 ∧ (StunResult.take r a).1.txnId = r.1.txnId ∧
      (r.2 = true → StunResult.take r a = r) := by
  have hxor : ¬ (a.type = stunAttrXorMappedAddress ∧ 8 ≤ a.value.length) := fun hxor =>
    Bool.false_ne_true (hp.symm.trans (StunAttr.isPortOnly_iff.2 ⟨hxor,hx⟩))
  unfold StunResult.take
  rw [if_neg hxor]
  by_cases hmapped : a.type = stunAttrMappedAddress ∧ r.2 = false ∧ 8 ≤ a.value.length
  · have hfamily : ¬ a.value.getD 1 0 = 1 := by
      intro hfamily
      have hfound := hm (StunAttr.isMapped_iff.2 ⟨⟨hmapped.1,hmapped.2.2⟩,hfamily⟩)
      exact Bool.false_ne_true (hmapped.2.1.symm.trans hfound)
    rw [if_pos hmapped]
    dsimp only
    rw [if_neg hfamily]
    exact ⟨rfl,rfl,fun hfound => absurd (hmapped.2.1.symm.trans hfound) Bool.false_ne_true⟩
  · rw [if_neg hmapped]
    exact ⟨rfl,rfl,fun _ => rfl⟩

end

/-- What the loop has after some attributes. -/
structure Mapping (txn : TransactionId) (attrs : List StunAttr) (r : StunResult × Bool) : Prop where
  txnId : r.1.txnId = txn
  found : r.2 = (mappedSource attrs).isSome
  ip : ∀ s ∈ mappedSource attrs, r.1.mapped.ip = (s.decoded txn).ip
  port : ∀ s ∈ mappedSource attrs,
    r.1.mapped.port = ((strayPort attrs s).map StunAttr.xorPort).getD (s.decoded txn).port

section
variable {txn : TransactionId} {a s : StunAttr} {attrs : List StunAttr} {r : StunResult × Bool}

theorem mappedSource_mem (h : mappedSource attrs = some s) : s ∈ attrs := by
  unfold mappedSource at h
  rcases Option.or_eq_some_iff.1 h with h | ⟨_,h⟩
  · exact (List.mem_filter.1 (List.mem_of_getLast? h)).1
  · exact (List.mem_filter.1 (List.mem_of_mem_head? h)).1

theorem mappedSource_xorMapped (h : a.isXorMapped = true) :
    mappedSource (attrs ++ [a]) = some a := by
  simp [mappedSource,List.filter_append,h]

theorem mappedSource_mapped (h : a.isMapped = true) (hx : a.isXorMapped = false)
    (hnone : mappedSource attrs = none) : mappedSource (attrs ++ [a]) = some a := by
  unfold mappedSource at hnone ⊢
  rw [Option.or_eq_none_iff,List.getLast?_eq_none_iff,List.head?_eq_none_iff] at hnone
  simp [List.filter_append,hnone.1,hnone.2,h,hx]

/-- The source stays, if there is one or the attribute is none. -/
theorem mappedSource_rest (hx : a.isXorMapped = false)
    (hm : a.isMapped = true → mappedSource attrs ≠ none) :
    mappedSource (attrs ++ [a]) = mappedSource attrs := by
  unfold mappedSource at hm ⊢
  rw [List.filter_append,List.filter_append]
  cases hmapped : a.isMapped with
  | false => simp [hx,hmapped]
  | true =>
    have hsome := hm hmapped
    rw [ne_eq,Option.or_eq_none_iff,List.getLast?_eq_none_iff,List.head?_eq_none_iff] at hsome
    simp only [List.filter_cons,hx,hmapped,List.filter_nil,ite_true,Bool.false_eq_true,ite_false,
      List.append_nil]
    cases hxor : attrs.filter StunAttr.isXorMapped with
    | cons b rest => simp [List.getLast?_cons]
    | nil =>
      have hne : attrs.filter StunAttr.isMapped ≠ [] := fun hnil => hsome ⟨hxor,hnil⟩
      rw [List.head?_append_of_ne_nil _ hne]

theorem strayPort_append (hlast : ∀ b ∈ attrs, b.offset < a.offset) (hs : s ∈ attrs) :
    strayPort (attrs ++ [a]) s = if a.isPortOnly then some a else strayPort attrs s := by
  unfold strayPort
  rw [List.filter_append]
  cases hp : a.isPortOnly with
  | false => simp [hp]
  | true => simp [hp,hlast s hs]

theorem strayPort_self (hlast : ∀ b ∈ attrs, b.offset < a.offset) :
    strayPort (attrs ++ [a]) a = none := by
  unfold strayPort
  rw [List.getLast?_eq_none_iff,List.filter_eq_nil_iff]
  intro b hb hstray
  rw [Bool.and_eq_true,decide_eq_true_eq] at hstray
  rcases List.mem_append.1 hb with hb | hb
  · have hlt := hlast b hb
    omega
  · rw [List.mem_singleton.1 hb] at hstray
    omega

theorem Mapping.start (txn : TransactionId) : Mapping txn [] ({ txnId := txn },false) where
  txnId := rfl
  found := rfl
  ip := fun s hs => by cases hs
  port := fun s hs => by cases hs

/-- An attribute the address is taken from. -/
theorem Mapping.taken (h : Mapping txn attrs r) (hlast : ∀ b ∈ attrs, b.offset < a.offset)
    (hsource : mappedSource (attrs ++ [a]) = some a) :
    Mapping txn (attrs ++ [a]) ({ r.1 with mapped := a.decoded txn },true) where
  txnId := h.txnId
  found := by rw [hsource]; rfl
  ip := fun s hs => by
    cases hsource.symm.trans hs
    rfl
  port := fun s hs => by
    cases hsource.symm.trans hs
    rw [strayPort_self hlast]
    rfl

/-- One round of the loop. -/
theorem Mapping.take (h : Mapping txn attrs r) (hlast : ∀ b ∈ attrs, b.offset < a.offset) :
    Mapping txn (attrs ++ [a]) (StunResult.take r a) := by
  by_cases hx : a.isXorMapped = true
  · rw [take_xorMapped h.txnId hx]
    exact h.taken hlast (mappedSource_xorMapped hx)
  · rw [Bool.not_eq_true] at hx
    by_cases hp : a.isPortOnly = true
    · have hsame : mappedSource (attrs ++ [a]) = mappedSource attrs := mappedSource_rest hx
        (fun hm => absurd hm (by rw [StunAttr.isPortOnly_not_isMapped hp]; exact Bool.false_ne_true))
      rw [take_portOnly hp]
      refine ⟨h.txnId,hsame ▸ h.found,hsame ▸ h.ip,fun s hs => ?_⟩
      rw [hsame] at hs
      rw [strayPort_append hlast (mappedSource_mem hs),if_pos hp]
      rfl
    · rw [Bool.not_eq_true] at hp
      by_cases hm : a.isMapped = true ∧ mappedSource attrs = none
      · have hr : r.2 = false := by rw [h.found,hm.2]; rfl
        rw [take_mapped hm.1 hr]
        exact h.taken hlast (mappedSource_mapped hm.1 hx hm.2)
      · have hsource : a.isMapped = true → mappedSource attrs ≠ none := fun ha hnone => hm ⟨ha,hnone⟩
        have hsame := mappedSource_rest hx hsource
        obtain ⟨hfound,htxn,hkept⟩ := take_rest (r := r) hx hp (fun ha => by
          rw [h.found]
          exact Option.isSome_iff_ne_none.2 (hsource ha))
        have hr : ∀ s ∈ mappedSource attrs, StunResult.take r a = r := by
          intro s hs
          refine hkept ?_
          rw [h.found,hs]
          rfl
        refine ⟨htxn.trans h.txnId,hfound.trans (hsame ▸ h.found),fun s hs => ?_,fun s hs => ?_⟩
        · rw [hsame] at hs
          rw [hr s hs]
          exact h.ip s hs
        · rw [hsame] at hs
          rw [hr s hs,strayPort_append hlast (mappedSource_mem hs),if_neg (by simp [hp])]
          exact h.port s hs

theorem Mapping.run (txn : TransactionId) (h : attrs.Pairwise (fun a b => a.offset < b.offset)) :
    Mapping txn attrs (attrs.foldl StunResult.take ({ txnId := txn },false)) := by
  induction attrs using List.reverseRecOn with
  | nil => exact Mapping.start txn
  | append_singleton attrs a ih =>
    obtain ⟨hfront,_,hlast⟩ := List.pairwise_append.1 h
    rw [List.foldl_append]
    exact (ih hfront).take (fun b hb => hlast b hb a (List.mem_singleton_self a))

end

theorem stunAttrs_ordered (data : Bytes) (stop rounds pos : Nat) :
    (stunAttrs data stop rounds pos).Pairwise (fun a b => a.offset < b.offset) ∧
      ∀ a ∈ stunAttrs data stop rounds pos, pos ≤ a.offset := by
  induction rounds generalizing pos with
  | zero => exact ⟨List.Pairwise.nil,fun a ha => by cases ha⟩
  | succ rounds ih =>
    rw [stunAttrs]
    split
    · exact ⟨List.Pairwise.nil,fun a ha => by cases ha⟩
    · obtain ⟨hpairs,hpos⟩ := ih (pos+4+padded (readU16 (data.drop (pos+2))).toNat)
      refine ⟨List.pairwise_cons.2 ⟨fun b hb => ?_,hpairs⟩,fun a ha => ?_⟩
      · have hle := hpos b hb
        dsimp only
        omega
      · rcases List.mem_cons.1 ha with rfl | ha
        · exact Nat.le_refl pos
        · have hle := hpos a ha
          omega

section
variable {data : Bytes}

/-- What `parse_binding_response` returns, by the attributes. -/
theorem parseBindingResponse_some {r : StunResult} : parseBindingResponse data = some r ↔
    stunHeaderOk stunBindingResponse data = true ∧ ∃ s ∈ mappedSource (attributes data),
      r = ⟨⟨(s.decoded (stunTxnId data)).ip,((strayPort (attributes data) s).map
        StunAttr.xorPort).getD (s.decoded (stunTxnId data)).port⟩,stunTxnId data⟩ := by
  have hordered : (attributes data).Pairwise (fun a b => a.offset < b.offset) :=
    (stunAttrs_ordered data (stunEnd data) (stunEnd data) stunHeaderSize).1
  have h := Mapping.run (stunTxnId data) hordered
  unfold parseBindingResponse
  cases hok : stunHeaderOk stunBindingResponse data with
  | false => simp
  | true =>
    rw [if_pos rfl]
    dsimp only
    generalize (attributes data).foldl StunResult.take ({ txnId := stunTxnId data },false) = out at h ⊢
    obtain ⟨⟨⟨ip,port⟩,txn⟩,found⟩ := out
    have htxn := h.txnId
    have hfound := h.found
    have hip := h.ip
    have hport := h.port
    dsimp only at htxn hfound hip hport ⊢
    cases hsource : mappedSource (attributes data) with
    | none =>
      rw [hsource] at hfound
      rw [hfound]
      simp
    | some s =>
      rw [hfound,hsource,htxn,hip s hsource,hport s hsource]
      simp only [Option.isSome_some,ite_true,Option.some.injEq,Option.mem_def,true_and]
      exact ⟨fun hr => ⟨s,rfl,hr.symm⟩,fun ⟨s',hs,hr⟩ => by rw [hr,hs]⟩

theorem FromOneAttribute_iff (data : Bytes) : FromOneAttribute data ↔ PortKept data := by
  constructor
  · intro h hok s hs b hb
    obtain ⟨s',hs',hmapped⟩ := h _ (parseBindingResponse_some.2 ⟨hok,s,hs,rfl⟩)
    have hsame : s' = s := Option.some.inj (hs'.symm.trans hs)
    rw [hsame] at hmapped
    have hport := congrArg StunAddress.port hmapped
    dsimp only at hport
    rw [hb] at hport
    exact hport
  · intro h r hr
    obtain ⟨hok,s,hs,rfl⟩ := parseBindingResponse_some.1 hr
    refine ⟨s,hs,?_⟩
    cases hb : strayPort (attributes data) s with
    | none => rfl
    | some b =>
      have hport := h hok s hs b hb
      dsimp only [Option.map_some,Option.getD_some]
      rw [hport]

end

theorem xorBytes_twice {b key : Bytes} (h : b.length ≤ key.length) :
    xorBytes (xorBytes b key) key = b := by
  induction b generalizing key with
  | nil => cases key <;> rfl
  | cons x b ih =>
    cases key with
    | nil => simp at h
    | cons k key =>
      have hx : x ^^^ k ^^^ k = x := by
        rw [UInt8.xor_assoc,UInt8.xor_self,UInt8.xor_zero]
      change (x ^^^ k ^^^ k) :: xorBytes (xorBytes b key) key = x :: b
      rw [hx,ih (by simpa using h)]

theorem writeU32_read (b : Block 4) : writeU32 (readU32 b.bytes) = b.bytes := by
  obtain ⟨bytes,hsize⟩ := b
  obtain ⟨w,x,y,z,rfl⟩ : ∃ w x y z, bytes = [w,x,y,z] := List.length_eq_four.1 hsize
  have hw := w.toNat_lt
  have hx := x.toNat_lt
  have hy := y.toNat_lt
  have hz := z.toNat_lt
  have hread : (readU32 [w,x,y,z]).toNat =
      256*(256*(256*w.toNat+x.toNat)+y.toNat)+z.toNat := by
    change (UInt32.ofNat (256*(256*(256*w.toNat+x.toNat)+y.toNat)+z.toNat)).toNat = _
    rw [UInt32.toNat_ofNat',Nat.mod_eq_of_lt (by omega)]
  have hbyte : ∀ (n : Nat) (v : UInt8), n%256 = v.toNat → UInt8.ofNat n = v := by
    intro n v hv
    apply UInt8.toNat_inj.1
    rw [UInt8.toNat_ofNat',hv]
  change [UInt8.ofNat ((readU32 [w,x,y,z]).toNat/256/256/256),
    UInt8.ofNat ((readU32 [w,x,y,z]).toNat/256/256),UInt8.ofNat ((readU32 [w,x,y,z]).toNat/256),
    UInt8.ofNat (readU32 [w,x,y,z]).toNat] = [w,x,y,z]
  rw [hread,hbyte _ w (by omega),hbyte _ x (by omega),hbyte _ y (by omega),hbyte _ z (by omega)]

theorem port_xor_twice (port : UInt16) : port ^^^ cookiePort ^^^ cookiePort = port := by
  rw [UInt16.xor_assoc,UInt16.xor_self,UInt16.xor_zero]

section
variable {txn : TransactionId} {addr : StunAddress}

theorem xorMappedAddress_length : (xorMappedAddress txn addr).length ≤ 20 := by
  obtain ⟨b | b,port⟩ := addr
  · simp [xorMappedAddress]
  · simp [xorMappedAddress,xorBytes,xorKey_length]

theorem xorMappedAddress_isXorMapped (pos : Nat) :
    (⟨pos,stunAttrXorMappedAddress,xorMappedAddress txn addr⟩ : StunAttr).isXorMapped = true := by
  rw [StunAttr.isXorMapped_iff]
  obtain ⟨b | b,port⟩ := addr
  · exact ⟨⟨rfl,by simp [xorMappedAddress]⟩,.inl rfl⟩
  · exact ⟨⟨rfl,by simp [xorMappedAddress,xorBytes,xorKey_length]⟩,
      .inr ⟨rfl,by simp [xorMappedAddress,xorBytes,xorKey_length]⟩⟩

theorem xorMappedAddress_decoded (pos : Nat) :
    (⟨pos,stunAttrXorMappedAddress,xorMappedAddress txn addr⟩ : StunAttr).decoded txn = addr := by
  have hplain := StunAttr.isXorMapped_not_isMapped
    (@xorMappedAddress_isXorMapped txn addr pos)
  have hport : (⟨pos,stunAttrXorMappedAddress,xorMappedAddress txn addr⟩ : StunAttr).xorPort =
      addr.port := by
    obtain ⟨b | b,port⟩ := addr
    · exact (congrArg (· ^^^ cookiePort) (readU16_write _ _)).trans (port_xor_twice port)
    · exact (congrArg (· ^^^ cookiePort) (readU16_write _ _)).trans (port_xor_twice port)
  unfold StunAttr.decoded
  rw [hplain,hport,if_neg Bool.false_ne_true]
  obtain ⟨b | b,port⟩ := addr
  · have hread : readU32 (writeU32 (readU32 b.bytes ^^^ stunMagicCookie)) =
        readU32 b.bytes ^^^ stunMagicCookie := by
      simpa using readU32_write (readU32 b.bytes ^^^ stunMagicCookie) []
    have hback : writeU32 (readU32 (writeU32 (readU32 b.bytes ^^^ stunMagicCookie)) ^^^
        stunMagicCookie) = b.bytes := by
      rw [hread,UInt32.xor_assoc,UInt32.xor_self,UInt32.xor_zero,writeU32_read]
    have hfamily : (⟨pos,stunAttrXorMappedAddress,xorMappedAddress txn ⟨.v4 b,port⟩⟩ :
        StunAttr).family = 1 := rfl
    rw [if_pos hfamily]
    change (⟨.v4 (Block.ofBytes 4 (writeU32 (readU32 (writeU32 (readU32 b.bytes ^^^
      stunMagicCookie)) ^^^ stunMagicCookie))),port⟩ : StunAddress) = ⟨.v4 b,port⟩
    rw [hback,Block.ofBytes_bytes]
  · have hkey : b.bytes.length ≤ (xorKey txn).length := by
      rw [xorKey_length,Block.length_bytes]
    have hfamily : (⟨pos,stunAttrXorMappedAddress,xorMappedAddress txn ⟨.v6 b,port⟩⟩ :
        StunAttr).family = 2 := rfl
    rw [hfamily,if_neg (by decide : ¬ (2 : UInt8) = 1)]
    change (⟨.v6 (Block.ofBytes 16 (xorBytes (xorBytes b.bytes (xorKey txn)) (xorKey txn))),
      port⟩ : StunAddress) = ⟨.v6 b,port⟩
    rw [xorBytes_twice hkey,Block.ofBytes_bytes]

end

theorem buildCheckResponse_message (hmac : HmacSha1) (txn : TransactionId) (addr : StunAddress)
    (password : Bytes) : buildCheckResponse hmac txn addr password =
      messageOf stunBindingResponse txn (sealedAttrs hmac stunBindingResponse txn
        [(stunAttrXorMappedAddress,xorMappedAddress txn addr)] password) := by
  have hpad : padded (xorMappedAddress txn addr).length < 65536 := by
    have hlen := @xorMappedAddress_length txn addr
    have hle := (le_padded (xorMappedAddress txn addr).length).2.1
    omega
  rw [← @appendIntegrityAndFingerprint_message _ _ 0,encodeAttrs_single,← appendAttr_eq _ _ hpad]
  rfl

/-- The response to a check tells the address it was built from. -/
theorem parseBindingResponse_build (hmac : HmacSha1) (txn : TransactionId) (addr : StunAddress)
    (password : Bytes) :
    parseBindingResponse (buildCheckResponse hmac txn addr password) = some ⟨addr,txn⟩ := by
  have hsize : (encodeAttrs (sealedAttrs hmac stunBindingResponse txn
      [(stunAttrXorMappedAddress,xorMappedAddress txn addr)] password)).length < 65536 := by
    have hlen := @xorMappedAddress_length txn addr
    have hle := (le_padded (xorMappedAddress txn addr).length).2.1
    rw [sealedAttrs_length,encodeAttrs_single,encodeAttr_length]
    omega
  have hxor := @xorMappedAddress_isXorMapped txn addr 20
  have hother : ∀ a : StunAttr, a.type ≠ stunAttrXorMappedAddress →
      a.isXorMapped = false ∧ a.isPortOnly = false := by
    intro a ha
    simp [StunAttr.isXorMapped,StunAttr.isPortOnly,ha]
  have hdigest : stunAttrMessageIntegrity ≠ stunAttrXorMappedAddress := by decide
  have hprint : stunAttrFingerprint ≠ stunAttrXorMappedAddress := by decide
  have hlist : ∃ i j v w, laidOut 20 (sealedAttrs hmac stunBindingResponse txn
      [(stunAttrXorMappedAddress,xorMappedAddress txn addr)] password) =
      [⟨20,stunAttrXorMappedAddress,xorMappedAddress txn addr⟩,⟨i,stunAttrMessageIntegrity,v⟩,
        ⟨j,stunAttrFingerprint,w⟩] := ⟨_,_,_,_,rfl⟩
  obtain ⟨i,j,v,w,hlist⟩ := hlist
  obtain ⟨hdx,hdp⟩ := hother ⟨i,stunAttrMessageIntegrity,v⟩ hdigest
  obtain ⟨hpx,hpp⟩ := hother ⟨j,stunAttrFingerprint,w⟩ hprint
  rw [buildCheckResponse_message,parseBindingResponse_some,messageOf_attributes hsize,
    messageOf_txnId]
  refine ⟨messageOf_ok hsize,⟨20,stunAttrXorMappedAddress,xorMappedAddress txn addr⟩,?_,?_⟩
  · rw [hlist]
    simp [mappedSource,hxor,hdx,hpx]
  · have hstray : strayPort (laidOut 20 (sealedAttrs hmac stunBindingResponse txn
        [(stunAttrXorMappedAddress,xorMappedAddress txn addr)] password))
        ⟨20,stunAttrXorMappedAddress,xorMappedAddress txn addr⟩ = none := by
      rw [hlist]
      simp [strayPort,hdp,hpp]
    rw [hstray,xorMappedAddress_decoded]
    rfl

/-- A response built from an address is read as that address, and an accepted one tells the address
of one attribute if no other port comes behind it. -/
theorem response_from_one_attribute (hmac : HmacSha1) (txn : TransactionId) (addr : StunAddress)
    (password data : Bytes) :
    parseBindingResponse (buildCheckResponse hmac txn addr password) = some ⟨addr,txn⟩ ∧
      (FromOneAttribute data ↔ PortKept data) :=
  ⟨parseBindingResponse_build hmac txn addr password,FromOneAttribute_iff data⟩

/-- An IPv4 XOR-MAPPED-ADDRESS and behind it one of an unknown family. -/
def strayFamily : Bytes :=
  [1,1,0,24,33,18,164,66,7,7,7,7,7,7,7,7,7,7,7,7,
   0,32,0,8,0,1,50,154,43,18,164,67,0,32,0,8,0,9,0,0,0,0,0,0]

/-- The port is taken from the second. -/
theorem strayFamily_mixed : ¬ FromOneAttribute strayFamily := by
  rw [FromOneAttribute_iff]
  intro h
  exact absurd (h (by decide +kernel) ⟨20,32,[0,1,50,154,43,18,164,67]⟩ (by decide +kernel)
    ⟨32,32,[0,9,0,0,0,0,0,0]⟩ (by decide +kernel)) (by decide +kernel)

end GoodNet.Ice
