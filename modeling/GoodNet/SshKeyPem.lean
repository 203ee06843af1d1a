import GoodNet.SshKey
set_option autoImplicit false

/-! What `try_load_ssh_key` makes of a whole file: the text between the two markers as a reader of
PEM means it, against the places where the code looks for them, and the file that
`make_openssh_pem` of the tests writes. -/

namespace GoodNet
open Codec FirstMatch LengthPrefixed

variable {base64 : Base64Decoder}

/-- The text between the first BEGIN marker and the next END marker behind it. -/
def markedText (pem : Bytes) : Option Bytes :=
  (find beginMarker pem).bind (fun bp =>
    let rest := pem.drop (bp+beginMarker.length)
    (find endMarker rest).map (fun n => rest.take n))

/-- The text behind the first BEGIN marker, to the next END marker or the end of the file. -/
def textBehind (pem : Bytes) : Option Bytes :=
  (find beginMarker pem).map (fun bp =>
    let rest := pem.drop (bp+beginMarker.length)
    match find endMarker rest with
    | some n => rest.take n
    | none => rest)

/-- The first END marker starts before the first BEGIN marker is over. -/
def EndComesFirst (pem : Bytes) : Prop :=
  ∃ bp ep, find beginMarker pem = some bp ∧ find endMarker pem = some ep ∧
    ep < bp+beginMarker.length

/-- A text that decodes to a container with these keys. -/
def Acceptable (base64 : Base64Decoder) (text pub sec : Bytes) : Prop :=
  ∃ raw, base64 text = some raw ∧ IsContainer raw pub sec

/-- The call reads only the blob, takes a file exactly for the key between its markers, whose
public half is that of its secret half, and else leaves its outputs alone. -/
def LoadsMarkedKey (base64 : Base64Decoder) (pem : Bytes) : Prop :=
  ∀ (outPub : Key) (outSec : Block 64), ∃ r,
    tryLoadSshKey base64 (some pem) outPub outSec = some r ∧
    (r.ok = true ↔
      ∃ text pub sec, markedText pem = some text ∧ Acceptable base64 text pub sec) ∧
    (r.ok = true →
      (∃ text, markedText pem = some text ∧
        Acceptable base64 text r.outPub.bytes r.outSec.bytes) ∧
      r.outPub.bytes = r.outSec.bytes.drop 32) ∧
    (r.ok = false → r.outPub = outPub ∧ r.outSec = outSec)

/-- The markers are in order, or no key is behind the first of them; and the two halves of the
key between them belong together. -/
structure WellMarked (base64 : Base64Decoder) (pem : Bytes) : Prop where
  ordered : EndComesFirst pem → ∀ text pub sec, textBehind pem = some text →
    ¬Acceptable base64 text pub sec
  halves : ∀ text pub sec, markedText pem = some text → Acceptable base64 text pub sec →
    pub = sec.drop 32

theorem endMarker_eq : endMarker = 45 :: endMarker.tail := by decide +kernel

theorem endMarker_ne_nil : endMarker ≠ [] := by
  rw [endMarker_eq]
  exact List.cons_ne_nil _ _

theorem parseContainer_nil : parseContainer [] = none := by
  rw [parseContainer,if_pos (by decide +kernel)]

theorem acceptable_iff {text pub sec : Bytes} :
    Acceptable base64 text pub sec ↔
      parseContainer (base64Decode base64 text) = some (pub,sec) := by
  unfold Acceptable base64Decode
  cases hraw : base64 text with
  | none => simp [parseContainer_nil]
  | some raw => simp [parseContainer_eq_some]

theorem IsContainer.lengths {b pub sec : Bytes} (h : IsContainer b pub sec) :
    pub.length = 32 ∧ sec.length = 64 := by
  obtain ⟨_,_,_,_,_,_,_,_,_,_,_,_,_,_,_,_,_,_,_,hp,hs⟩ := h
  exact ⟨hp,hs⟩

theorem Acceptable.unique {text pub sec pub' sec' : Bytes}
    (h : Acceptable base64 text pub sec) (h' : Acceptable base64 text pub' sec') :
    pub = pub' ∧ sec = sec' := by
  have hp := acceptable_iff.mp h
  rw [acceptable_iff.mp h'] at hp
  obtain ⟨rfl,rfl⟩ := Prod.mk.inj (Option.some.inj hp)
  exact ⟨rfl,rfl⟩

/-- With the markers in order the code looks where the key is. -/
theorem loadedKey_of_ordered {pem pub sec : Bytes} (h : ¬EndComesFirst pem) :
    loadedKey base64 pem = some (pub,sec) ↔
      ∃ text, markedText pem = some text ∧ Acceptable base64 text pub sec := by
  unfold loadedKey markedText
  cases hb : find beginMarker pem with
  | none => simp
  | some bp =>
    cases he : find endMarker pem with
    | none => simp [find_drop_none he]
    | some ep =>
      have hle : ¬ep < bp+beginMarker.length := fun hlt => h ⟨bp,ep,hb,he,hlt⟩
      have hrest := find_drop endMarker_ne_nil he (Nat.not_lt.mp hle)
      simp only [Option.bind_some,hrest,Option.map_some,Option.some.injEq,exists_eq_left',
        acceptable_iff,pemText,if_neg hle,Nat.sub_sub]

/-- Else it decodes all that is behind the BEGIN marker. -/
theorem loadedKey_of_endFirst {pem pub sec : Bytes} {bp ep : Nat}
    (hb : find beginMarker pem = some bp) (he : find endMarker pem = some ep)
    (hlt : ep < bp+beginMarker.length) :
    loadedKey base64 pem = some (pub,sec) ↔
      Acceptable base64 (pem.drop (bp+beginMarker.length)) pub sec := by
  unfold loadedKey
  simp only [hb,he,pemText,if_pos hlt,acceptable_iff]

/-- A text with an END marker in it is not decoded. -/
theorem not_acceptable_of_marker (hcorrect : base64.Correct) {text pub sec : Bytes} {n : Nat}
    (h : find endMarker text = some n) : ¬Acceptable base64 text pub sec := by
  rintro ⟨raw,hraw,_⟩
  have hdash : 45 ∈ endMarker := by
    rw [endMarker_eq]
    exact List.mem_cons_self
  rw [hcorrect.refuses text (mem_of_find h hdash)] at hraw
  cases hraw

theorem tryLoadSshKey_found {pem pub sec : Bytes} (h : loadedKey base64 pem = some (pub,sec))
    (hp : pub.length = 32) (hs : sec.length = 64) (outPub : Key) (outSec : Block 64) :
    tryLoadSshKey base64 (some pem) outPub outSec = some ⟨true,⟨pub,hp⟩,⟨sec,hs⟩⟩ := by
  rw [tryLoadSshKey_eq,h]
  exact congrArg some (congrArg₂ (SshLoad.mk true) (Block.ofBytes_bytes ⟨pub,hp⟩)
    (Block.ofBytes_bytes ⟨sec,hs⟩))

theorem loadedKey_lengths {pem pub sec : Bytes} (h : loadedKey base64 pem = some (pub,sec)) :
    pub.length = 32 ∧ sec.length = 64 := by
  unfold loadedKey at h
  split at h
  · exact (parseContainer_eq_some.mp h).lengths
  · cases h

/-- What is asked of a call, in terms of the key that the code finds. -/
theorem loadsMarkedKey_iff {pem : Bytes} :
    LoadsMarkedKey base64 pem ↔
      (∀ pub sec, loadedKey base64 pem = some (pub,sec) ↔
        ∃ text, markedText pem = some text ∧ Acceptable base64 text pub sec) ∧
      ∀ pub sec, loadedKey base64 pem = some (pub,sec) → pub = sec.drop 32 := by
  constructor
  · intro h
    obtain ⟨r,hr,hok,hkey,_⟩ := h (Block.zero 32) (Block.zero 64)
    have hfound : ∀ pub sec, loadedKey base64 pem = some (pub,sec) →
        (∃ text, markedText pem = some text ∧ Acceptable base64 text pub sec) ∧
          pub = sec.drop 32 := by
      intro pub sec hload
      obtain ⟨hp,hs⟩ := loadedKey_lengths hload
      rw [tryLoadSshKey_found hload hp hs] at hr
      cases hr
      exact hkey rfl
    refine ⟨fun pub sec => ⟨fun hload => (hfound pub sec hload).1,?_⟩,
      fun pub sec hload => (hfound pub sec hload).2⟩
    rintro ⟨text,hmarked,hacc⟩
    have htrue := hok.mpr ⟨text,pub,sec,hmarked,hacc⟩
    cases hload : loadedKey base64 pem with
    | none =>
      rw [tryLoadSshKey_eq,hload] at hr
      cases hr
      cases htrue
    | some key =>
      obtain ⟨text',hmarked',hacc'⟩ := (hfound key.1 key.2 hload).1
      have htext := Option.some.inj (hmarked'.symm.trans hmarked)
      subst htext
      obtain ⟨hpub,hsec⟩ := hacc'.unique hacc
      exact congrArg some (Prod.ext hpub hsec)
  · rintro ⟨hiff,hhalves⟩ outPub outSec
    cases hload : loadedKey base64 pem with
    | none =>
      refine ⟨⟨false,outPub,outSec⟩,by rw [tryLoadSshKey_eq,hload],?_,?_,fun _ => ⟨rfl,rfl⟩⟩
      · constructor
        · intro hfalse
          cases hfalse
        · rintro ⟨text,pub,sec,hmarked,hacc⟩
          rw [(hiff pub sec).mpr ⟨text,hmarked,hacc⟩] at hload
          cases hload
      · intro hfalse
        cases hfalse
    | some key =>
      obtain ⟨hp,hs⟩ := loadedKey_lengths hload
      obtain ⟨text,hmarked,hacc⟩ := (hiff key.1 key.2).mp hload
      refine ⟨_,tryLoadSshKey_found hload hp hs outPub outSec,?_,fun _ => ⟨?_,?_⟩,?_⟩
      · exact ⟨fun _ => ⟨text,key.1,key.2,hmarked,hacc⟩,fun _ => rfl⟩
      · exact ⟨text,hmarked,hacc⟩
      · exact hhalves key.1 key.2 hload
      · intro hfalse
        cases hfalse

/-- The markers in the wrong order: with an END marker behind the key too, the key is missed, and
without one it is taken. -/
theorem loadsMarkedKey_of_endFirst (hcorrect : base64.Correct) {pem : Bytes}
    (h : EndComesFirst pem) :
    LoadsMarkedKey base64 pem ↔
      ∀ text pub sec, textBehind pem = some text → ¬Acceptable base64 text pub sec := by
  obtain ⟨bp,ep,hb,he,hlt⟩ := h
  have hload : ∀ pub sec, loadedKey base64 pem = some (pub,sec) ↔
      Acceptable base64 (pem.drop (bp+beginMarker.length)) pub sec :=
    fun _ _ => loadedKey_of_endFirst hb he hlt
  rw [loadsMarkedKey_iff]
  cases hrest : find endMarker (pem.drop (bp+beginMarker.length)) with
  | none =>
    have hmarked : markedText pem = none := by simp [markedText,hb,hrest]
    have hbehind : textBehind pem = some (pem.drop (bp+beginMarker.length)) := by
      simp [textBehind,hb,hrest]
    constructor
    · rintro ⟨hiff,_⟩ text pub sec htext hacc
      have hsame := Option.some.inj (hbehind.symm.trans htext)
      subst hsame
      obtain ⟨_,hnone,_⟩ := (hiff pub sec).mp ((hload pub sec).mpr hacc)
      rw [hmarked] at hnone
      cases hnone
    · intro hno
      have hmissed : ∀ pub sec, loadedKey base64 pem ≠ some (pub,sec) :=
        fun pub sec hl => hno _ pub sec hbehind ((hload pub sec).mp hl)
      exact ⟨fun pub sec => ⟨fun hl => absurd hl (hmissed pub sec),by simp [hmarked]⟩,
        fun pub sec hl => absurd hl (hmissed pub sec)⟩
  | some n =>
    have hsame : textBehind pem = markedText pem := by simp [markedText,textBehind,hb,hrest]
    have hmissed : ∀ pub sec, loadedKey base64 pem ≠ some (pub,sec) :=
      fun pub sec hl => not_acceptable_of_marker hcorrect hrest ((hload pub sec).mp hl)
    rw [hsame]
    constructor
    · rintro ⟨hiff,_⟩ text pub sec htext hacc
      exact hmissed pub sec ((hiff pub sec).mpr ⟨text,htext,hacc⟩)
    · intro hno
      refine ⟨fun pub sec => ⟨fun hl => absurd hl (hmissed pub sec),?_⟩,
        fun pub sec hl => absurd hl (hmissed pub sec)⟩
      rintro ⟨text,htext,hacc⟩
      exact absurd hacc (hno text pub sec htext)

/-- The markers in order: only the two halves of the key may not belong together. -/
theorem loadsMarkedKey_of_ordered {pem : Bytes} (h : ¬EndComesFirst pem) :
    LoadsMarkedKey base64 pem ↔
      ∀ text pub sec, markedText pem = some text → Acceptable base64 text pub sec →
        pub = sec.drop 32 := by
  have hload : ∀ pub sec, loadedKey base64 pem = some (pub,sec) ↔
      ∃ text, markedText pem = some text ∧ Acceptable base64 text pub sec :=
    fun _ _ => loadedKey_of_ordered h
  rw [loadsMarkedKey_iff]
  constructor
  · rintro ⟨_,hhalves⟩ text pub sec htext hacc
    exact hhalves pub sec ((hload pub sec).mpr ⟨text,htext,hacc⟩)
  · intro hhalves
    refine ⟨hload,fun pub sec hl => ?_⟩
    obtain ⟨text,htext,hacc⟩ := (hload pub sec).mp hl
    exact hhalves text pub sec htext hacc

theorem textBehind_of_marked {pem text : Bytes} (h : markedText pem = some text) :
    textBehind pem = some text := by
  unfold markedText at h
  unfold textBehind
  obtain ⟨bp,hb,h⟩ := Option.bind_eq_some_iff.mp h
  obtain ⟨n,hn,rfl⟩ := Option.map_eq_some_iff.mp h
  simp only [hb,hn,Option.map_some]

theorem loadsMarkedKey_iff_wellMarked (hcorrect : base64.Correct) (pem : Bytes) :
    LoadsMarkedKey base64 pem ↔ WellMarked base64 pem := by
  by_cases hfirst : EndComesFirst pem
  · rw [loadsMarkedKey_of_endFirst hcorrect hfirst]
    constructor
    · intro hno
      exact ⟨fun _ => hno,fun text pub sec htext hacc =>
        absurd hacc (hno text pub sec (textBehind_of_marked htext))⟩
    · intro hwell
      exact hwell.ordered hfirst
  · rw [loadsMarkedKey_of_ordered hfirst]
    exact ⟨fun hhalves => ⟨fun h => absurd h hfirst,hhalves⟩,fun hwell => hwell.halves⟩

/-- `write_str` and `write_blob` of `make_openssh_pem`. -/
def writeBlob (d : Bytes) : Bytes := word (UInt32.ofNat d.length) ++ d

/-- `for (uint8_t i = 1; priv.size() % 8 != 0; ++i) priv.push_back(i)`. -/
def padding (n : Nat) : Bytes := (List.range ((8-n%8)%8)).map (fun i => UInt8.ofNat (i+1))

/-- The private section in front of its padding. -/
def opensshFields (pub : Key) (sec : Block 64) : Bytes :=
  let check : UInt32 := 0xDEADBEEF
  word check ++ word check ++ writeBlob (bytesOfString "ssh-ed25519") ++
    writeBlob pub.bytes ++ writeBlob sec.bytes ++ writeBlob (bytesOfString "test-comment")

def opensshPrivate (pub : Key) (sec : Block 64) : Bytes :=
  let priv := opensshFields pub sec
  priv ++ padding priv.length

def opensshBlob (pub : Key) (sec : Block 64) : Bytes :=
  opensshMagic ++ writeBlob (bytesOfString "none") ++ writeBlob (bytesOfString "none") ++
    writeBlob [] ++ word 1 ++
    writeBlob (writeBlob (bytesOfString "ssh-ed25519") ++ writeBlob pub.bytes) ++
    writeBlob (opensshPrivate pub sec)

def makeOpensshPem (pub : Key) (sec : Block 64) : Bytes :=
  let b64 := Base64.encode (opensshBlob pub sec)
  beginMarker ++ [10] ++ Base64.wrap 70 b64.length b64 ++ endMarker ++ [10]

theorem opensshPrivate_length (pub : Key) (sec : Block 64) :
    (opensshPrivate pub sec).length < 4294967296 := by
  have htype : (bytesOfString "ssh-ed25519").length = 11 := by decide +kernel
  have hcomment : (bytesOfString "test-comment").length = 12 := by decide +kernel
  simp only [opensshPrivate,opensshFields,padding,writeBlob,List.length_append,List.length_map,
    List.length_range,word_length,Block.length_bytes,htype,hcomment]
  omega

theorem opensshPrivate_section (pub : Key) (sec : Block 64) :
    IsPrivateSection (opensshPrivate pub sec) pub.bytes sec.bytes := by
  refine ⟨0xDEADBEEF,⟨bytesOfString "ssh-ed25519",by decide +kernel⟩,⟨pub.bytes,by simp⟩,
    ⟨sec.bytes,by simp⟩,
    writeBlob (bytesOfString "test-comment") ++ padding (opensshFields pub sec).length,
    ?_,rfl,rfl,rfl,pub.size_eq,sec.size_eq⟩
  simp only [opensshPrivate,opensshFields,writeBlob,LengthPrefixed.Field.encode,
    List.append_assoc]

theorem opensshBlob_container (pub : Key) (sec : Block 64) :
    IsContainer (opensshBlob pub sec) pub.bytes sec.bytes := by
  have htype : (bytesOfString "ssh-ed25519").length = 11 := by decide +kernel
  refine ⟨⟨bytesOfString "none",by decide +kernel⟩,⟨bytesOfString "none",by decide +kernel⟩,
    ⟨[],by decide⟩,⟨writeBlob (bytesOfString "ssh-ed25519") ++ writeBlob pub.bytes,?_⟩,
    ⟨opensshPrivate pub sec,opensshPrivate_length pub sec⟩,1,[],?_,rfl,by decide,
    opensshPrivate_section pub sec⟩
  · simp only [writeBlob,List.length_append,word_length,Block.length_bytes,htype]
    decide
  · simp only [opensshBlob,writeBlob,LengthPrefixed.Field.encode,List.append_nil]

/-- The lines between the markers of `make_openssh_pem`. -/
def opensshLines (pub : Key) (sec : Block 64) : Bytes :=
  let b64 := Base64.encode (opensshBlob pub sec)
  Base64.wrap 70 b64.length b64

theorem isChar_plain {c : UInt8} (h : Base64.IsChar c) : c ≠ 45 ∧ ignoredChar c = false := by
  have halphabet : ∀ c ∈ Base64.alphabet, c ≠ 45 ∧ ignoredChar c = false := by decide +kernel
  rcases h with h | rfl
  · exact halphabet c h
  · decide

theorem opensshLines_no_dash (pub : Key) (sec : Block 64) : ∀ c ∈ opensshLines pub sec, c ≠ 45 := by
  intro c hc
  rcases Base64.mem_wrap hc with hc | rfl
  · exact (isChar_plain (Base64.encode_isChar _ c hc)).1
  · decide

theorem opensshLines_filter (pub : Key) (sec : Block 64) :
    ([10] ++ opensshLines pub sec).filter (fun c => !ignoredChar c) =
      Base64.encode (opensshBlob pub sec) := by
  rw [List.filter_append,opensshLines]
  refine Base64.filter_wrap (by decide) (Nat.le_refl _) (by decide) (fun c hc => ?_)
  rw [(isChar_plain (Base64.encode_isChar _ c hc)).2]
  rfl

theorem makeOpensshPem_eq (pub : Key) (sec : Block 64) :
    makeOpensshPem pub sec =
      beginMarker ++ 10 :: (opensshLines pub sec ++ endMarker ++ [10]) := by
  simp only [makeOpensshPem,opensshLines,List.append_assoc,List.cons_append,List.nil_append]

theorem find_beginMarker (s : Bytes) : find beginMarker (beginMarker ++ s) = some 0 := rfl

/-- The END marker does not start inside of the BEGIN marker. -/
theorem findFrom_endMarker (s : Bytes) :
    find endMarker (beginMarker ++ 10 :: s) = findFrom endMarker 36 s := rfl

theorem find_endMarker {i : Nat} {text : Bytes} (h : ∀ c ∈ text, c ≠ 45) :
    findFrom endMarker i (text ++ endMarker ++ [10]) = some (i+text.length) := by
  rw [endMarker_eq]
  exact findFrom_fresh h

theorem makeOpensshPem_ordered (pub : Key) (sec : Block 64) :
    ¬EndComesFirst (makeOpensshPem pub sec) := by
  rintro ⟨bp,ep,hb,he,hlt⟩
  have hlen : beginMarker.length = 35 := by decide +kernel
  rw [makeOpensshPem_eq] at hb he
  rw [find_beginMarker] at hb
  rw [findFrom_endMarker,find_endMarker (opensshLines_no_dash pub sec)] at he
  cases hb
  cases he
  omega

theorem makeOpensshPem_marked (pub : Key) (sec : Block 64) :
    markedText (makeOpensshPem pub sec) = some ([10] ++ opensshLines pub sec) := by
  have hdash : ∀ c ∈ [10] ++ opensshLines pub sec, c ≠ 45 := by
    intro c hc
    rcases List.mem_append.mp hc with hc | hc
    · rw [List.mem_singleton.mp hc]
      decide
    · exact opensshLines_no_dash pub sec c hc
  have hrest : (makeOpensshPem pub sec).drop (0+beginMarker.length) =
      ([10] ++ opensshLines pub sec) ++ endMarker ++ [10] := by
    rw [makeOpensshPem_eq,Nat.zero_add,List.drop_left]
    simp only [List.append_assoc,List.cons_append,List.nil_append]
  have hfound : find endMarker (([10] ++ opensshLines pub sec) ++ endMarker ++ [10]) =
      some (0+([10] ++ opensshLines pub sec).length) := find_endMarker hdash
  unfold markedText
  rw [makeOpensshPem_eq,find_beginMarker,← makeOpensshPem_eq,Option.bind_some,hrest]
  dsimp only
  rw [hfound,Option.map_some,Nat.zero_add,List.append_assoc,List.take_left]

/-- Any two halves that `make_openssh_pem` puts into a file are read from it. -/
theorem tryLoadSshKey_makeOpensshPem (hcorrect : base64.Correct) (pub : Key) (sec : Block 64)
    (outPub : Key) (outSec : Block 64) :
    tryLoadSshKey base64 (some (makeOpensshPem pub sec)) outPub outSec =
      some ⟨true,pub,sec⟩ := by
  have hblob := hcorrect.decodes _ _ (opensshLines_filter pub sec)
  have hload : loadedKey base64 (makeOpensshPem pub sec) = some (pub.bytes,sec.bytes) :=
    (loadedKey_of_ordered (makeOpensshPem_ordered pub sec)).mpr
      ⟨_,makeOpensshPem_marked pub sec,_,hblob,opensshBlob_container pub sec⟩
  exact tryLoadSshKey_found hload pub.size_eq sec.size_eq outPub outSec

/-- Files are loaded as they should be exactly when they are well marked, and every key pair is
recovered from the file that `make_openssh_pem` makes of it. -/
theorem tryLoadSshKey_loads (hcorrect : base64.Correct) :
    (∀ pem, LoadsMarkedKey base64 pem ↔ WellMarked base64 pem) ∧
    ∀ (pub : Key) (sec : Block 64), pub.bytes = sec.bytes.drop 32 →
      LoadsMarkedKey base64 (makeOpensshPem pub sec) ∧
      ∀ outPub outSec, tryLoadSshKey base64 (some (makeOpensshPem pub sec)) outPub outSec =
        some ⟨true,pub,sec⟩ := by
  refine ⟨loadsMarkedKey_iff_wellMarked hcorrect,fun pub sec hhalves => ⟨?_,?_⟩⟩
  · rw [loadsMarkedKey_of_ordered (makeOpensshPem_ordered pub sec)]
    intro text p s htext hacc
    have hblob := hcorrect.decodes _ _ (opensshLines_filter pub sec)
    have hsame := Option.some.inj ((makeOpensshPem_marked pub sec).symm.trans htext)
    subst hsame
    obtain ⟨rfl,rfl⟩ := hacc.unique ⟨_,hblob,opensshBlob_container pub sec⟩
    exact hhalves
  · exact tryLoadSshKey_makeOpensshPem hcorrect pub sec

/-- The decoder of the library, on texts without zero bytes. -/
def sampleBase64 : Base64Decoder := Base64.decodeIgnoring ignoredChar

theorem sampleBase64_correct : sampleBase64.Correct where
  decodes blob text h := by
    rw [sampleBase64,Base64.decodeIgnoring,h]
    exact Base64.decode_encode blob
  refuses text hdash := by
    cases hdec : sampleBase64 text with
    | none => rfl
    | some blob =>
      have hmem : 45 ∈ text.filter (fun c => !ignoredChar c) :=
        List.mem_filter.mpr ⟨hdash,by decide⟩
      exact absurd rfl (isChar_plain (Base64.decode_isChar hdec 45 hmem)).1

def storedPub : Key := ⟨List.replicate 32 7,by simp⟩
def storedSec : Block 64 := ⟨List.replicate 32 5 ++ List.replicate 32 7,by simp⟩

theorem storedKey_loaded :
    tryLoadSshKey sampleBase64 (some (makeOpensshPem storedPub storedSec)) (Block.zero 32)
      (Block.zero 64) = some ⟨true,storedPub,storedSec⟩ :=
  ((tryLoadSshKey_loads sampleBase64_correct).2 storedPub storedSec (by decide)).2 _ _

/-- Another secret key, of which the stored public key is not the public half. -/
def foreignSec : Block 64 := ⟨List.replicate 64 9,by simp⟩

/-- A file whose two halves do not belong together is loaded all the same. -/
theorem foreignSec_loaded :
    ¬∀ base64 : Base64Decoder, base64.Correct → ∀ pem, LoadsMarkedKey base64 pem := by
  intro h
  obtain ⟨r,hr,_,hkey,_⟩ := h sampleBase64 sampleBase64_correct
    (makeOpensshPem storedPub foreignSec) (Block.zero 32) (Block.zero 64)
  rw [tryLoadSshKey_makeOpensshPem sampleBase64_correct] at hr
  cases hr
  exact absurd (hkey rfl).2 (by decide)

/-- The END marker in front of the BEGIN marker, and nothing behind the lines. -/
def swappedMarkers (pub : Key) (sec : Block 64) : Bytes :=
  endMarker ++ 10 :: (beginMarker ++ 10 :: opensshLines pub sec)

/-- Such a file is loaded too, although no text stands between its markers. -/
theorem swappedMarkers_loaded (hcorrect : base64.Correct) (pub : Key) (sec : Block 64) :
    (∀ outPub outSec, tryLoadSshKey base64 (some (swappedMarkers pub sec)) outPub outSec =
      some ⟨true,pub,sec⟩) ∧ markedText (swappedMarkers pub sec) = none := by
  have hbegin : find beginMarker (swappedMarkers pub sec) = some 34 := rfl
  have hend : find endMarker (swappedMarkers pub sec) = some 0 := rfl
  have hlen : beginMarker.length = 35 := by decide +kernel
  have hrest : (swappedMarkers pub sec).drop (34+beginMarker.length) =
      [10] ++ opensshLines pub sec := rfl
  have hblob := hcorrect.decodes _ _ (opensshLines_filter pub sec)
  have hload : loadedKey base64 (swappedMarkers pub sec) = some (pub.bytes,sec.bytes) :=
    (loadedKey_of_endFirst hbegin hend (by omega)).mpr
      ⟨_,hrest ▸ hblob,opensshBlob_container pub sec⟩
  refine ⟨tryLoadSshKey_found hload pub.size_eq sec.size_eq,?_⟩
  unfold markedText
  rw [hbegin,Option.bind_some,hrest]
  dsimp only
  cases hfound : find endMarker ([10] ++ opensshLines pub sec) with
  | none => rfl
  | some n =>
    have hdash : 45 ∈ [10] ++ opensshLines pub sec :=
      mem_of_find hfound (by rw [endMarker_eq]; exact List.mem_cons_self)
    rcases List.mem_append.mp hdash with h | h
    · exact absurd h (by decide)
    · exact absurd rfl (opensshLines_no_dash pub sec 45 h)

end GoodNet
