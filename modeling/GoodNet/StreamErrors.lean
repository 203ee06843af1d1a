import GoodNet.Reassembly
set_option autoImplicit false

/-! A stream that goes wrong on a connection whose connector has yet to close it. -/

namespace GoodNet
open Codec Framing

def Parsed.isError : Parsed → Bool
  | .frame .. => false
  | .error _ => true

/-- The bytes of the stream that a frame was read from, when `fed` have come in. -/
def Parsed.range (fed : Nat) : Parsed → Option (Nat × Nat)
  | .frame avail hdr _ => some (fed-avail,fed-avail+(headerSize+hdr.payloadLen.toNat))
  | .error _ => none

def dispatchedRanges (found : List (Nat × Parsed)) : List (Nat × Nat) :=
  found.filterMap (fun p => p.2.range p.1)

/-- No range of bytes is dispatched twice, and nothing is after an error. -/
structure DispatchedOnce (found : List (Nat × Parsed)) : Prop where
  once : (dispatchedRanges found).Nodup
  stopped : found.Pairwise (fun p q => p.2.isError = true → q.2.isError = true)

/-- A bad header in the bytes at hand has no complete frame in front of it there. -/
def Call.clean (peer : Nat) (st : Impl) (c : Call) : Bool :=
  c.foreign peer &&
    match c with
    | .event _ => true
    | .data id chunk _ => st.resolveTransport id != peer || (st.find peer).all (fun r =>
        let buf := r.recvBuf ++ chunk
        isWholeFrame r chunk || decide (maxRecvBuf < buf.length) ||
          decide (lookFrame (frameScanner.cut buf).2 ≠ .bad) || (frameScanner.cut buf).1.isEmpty)

/-- A buffer that nothing will ever be dispatched from again. -/
def Jammed (buf : Bytes) : Prop := lookFrame buf = .bad ∨ maxRecvBuf < buf.length

theorem Jammed.append {buf : Bytes} (h : Jammed buf) (chunk : Bytes) : Jammed (buf ++ chunk) := by
  rcases h with h | h
  · exact Or.inl (frameScanner.bad_append h chunk)
  · right
    rw [List.length_append]
    omega

theorem Jammed.not_empty {buf : Bytes} (h : Jammed buf) : buf ≠ [] := by
  rintro rfl
  rcases h with h | h
  · cases h
  · simp at h

section
variable {env : Env} {peer : Nat} {st : Impl} {r : ConnectionRecord}

theorem Call.clean_foreign {c : Call} (h : c.clean peer st = true) : c.foreign peer = true :=
  (Bool.and_eq_true_iff.mp h).1

theorem Impl.handleData_idle {id : Nat} {chunk : Bytes} (others : List (List Event))
    (h : st.shuttingDown = true ∨ st.find (st.resolveTransport id) = none) :
    st.handleData env id chunk others = (st,[]) := by
  unfold handleData
  split
  · rfl
  · rename_i hs
    rcases h with h | h
    · exact absurd h hs
    · dsimp only
      rw [h]

/-- Once the record is gone, its stream is over. -/
theorem Impl.parsed_gone {calls : List Call} (fed : Nat) (hp : peer < st.nextId)
    (hr : st.find peer = none) : st.parsed env peer fed calls = [] := by
  induction calls generalizing st fed with
  | nil => rfl
  | cons c cs ih =>
    obtain ⟨hn,hback⟩ := (Call.step_ticks st c : Ticks env st _).present hp
    have hgone : (c.step env st).find peer = none := by
      cases hr' : (c.step env st).find peer with
      | none => rfl
      | some r' =>
        obtain ⟨r,hr₀⟩ := hback r' hr'
        rw [hr] at hr₀
        cases hr₀
    have hnone : c.parsedFor env st peer = [] := by
      cases c with
      | event e => rfl
      | data id chunk others =>
        by_cases hid : st.resolveTransport id = peer
        · rw [Call.parsedFor_chunk others hid,handleData_idle others (Or.inr (by rw [hid]; exact hr))]
        · exact if_neg hid
    rw [parsed,hnone,ih _ (Nat.lt_of_lt_of_le hp hn) hgone]
    rfl

/-- A step that fails, and leaves no way on. -/
structure Fails (peer : Nat) (d : Impl × List Parsed) : Prop where
  errors : ∀ p ∈ d.2, p.isError = true
  jammed : ∀ r', d.1.find peer = some r' → Jammed r'.recvBuf

theorem Fails.of_ends {buf : Bytes} {d : Impl × List Parsed}
    (he : ParseEnds peer st buf [] buf d) (hb : lookFrame buf = .bad) : Fails peer d := by
  refine ⟨fun p hm => ?_,fun r' hr' => ?_⟩
  · rcases he.parsed with h | ⟨_,k,h⟩
    · rw [h,parsedFrames,parsedEnd,if_pos hb] at hm
      cases List.mem_singleton.mp hm
      rfl
    · rw [h,parsedFrames,List.take_nil] at hm
      cases hm
  · rw [he.buffer r' hr',leftover,if_pos hb]
    exact Or.inl hb

theorem Fails.overflow {buf : Bytes} {d : Impl × List Parsed} (hbig : maxRecvBuf < buf.length)
    (hparsed : d.2 = [.error .recvBufOverflow])
    (hbuf : ∀ r', d.1.find peer = some r' → r'.recvBuf = buf) : Fails peer d := by
  refine ⟨fun p hm => ?_,fun r' hr' => ?_⟩
  · rw [hparsed] at hm
    cases List.mem_singleton.mp hm
    rfl
  · rw [hbuf r' hr']
    exact Or.inr hbig

theorem isWholeFrame_rest {chunk rest : Bytes} {us : List Bytes} (hw : isWholeFrame r chunk = true)
    (hc : Cuts frameScanner (r.recvBuf ++ chunk) us rest) : rest = [] := by
  obtain ⟨hempty,hwhole⟩ := isWholeFrame_cuts hw
  rw [hempty] at hc
  exact (hc.unique hwhole).2

theorem Jammed.chunk {id : Nat} {chunk : Bytes} {others : List (List Event)}
    (hj : Jammed r.recvBuf) (hp : peer < st.nextId) (hid : st.resolveTransport id = peer)
    (hr : st.find peer = some r) (hf : ∀ e ∈ others.flatten, e.foreign peer = true) :
    Fails peer (st.handleData env id chunk others) := by
  cases hs : st.shuttingDown with
  | true =>
    rw [Impl.handleData_idle others (Or.inl hs)]
    refine ⟨fun p hm => (by cases hm),fun r' hr' => ?_⟩
    have hsame : some r = some r' := hr.symm.trans hr'
    cases hsame
    exact hj
  | false =>
    rcases Impl.handleData_cases env chunk hp hs hid hr hf with
      ⟨_,hbig,_,hparsed,hbuf⟩ | ⟨hfits,us,rest,hcut,hend⟩
    · exact Fails.overflow hbig hparsed hbuf
    · have hbad : lookFrame (r.recvBuf ++ chunk) = .bad := by
        rcases hj.append chunk with hbad | hbig
        · exact hbad
        · rcases hfits with hw | hfits
          · exact absurd (isWholeFrame_cuts hw).1 hj.not_empty
          · omega
      obtain ⟨rfl,rfl⟩ := hcut.unique (.stop (frameScanner.stuck_of_bad hbad))
      exact Fails.of_ends hend hbad

/-- From a jammed buffer on a run finds errors only. -/
theorem Impl.parsed_jammed {calls : List Call} (fed : Nat) (hp : peer < st.nextId)
    (hj : ∀ r, st.find peer = some r → Jammed r.recvBuf)
    (hok : st.throughout env (Call.clean peer) calls = true) :
    ∀ p ∈ st.parsed env peer fed calls, p.2.isError = true := by
  induction calls generalizing st fed with
  | nil => exact fun p hm => by cases hm
  | cons c cs ih =>
    cases hr : st.find peer with
    | none =>
      rw [parsed_gone fed hp hr]
      exact fun p hm => by cases hm
    | some r =>
      obtain ⟨hnow,hlater⟩ := Bool.and_eq_true_iff.mp hok
      have hp₁ := Nat.lt_of_lt_of_le hp ((Call.step_ticks st c : Ticks env st _).present hp).1
      intro p hm
      rcases List.mem_append.mp hm with hm | hm
      · obtain ⟨q,hq,rfl⟩ := List.mem_map.mp hm
        rcases Call.stream_cases (Call.clean_foreign hnow) hp with
          ⟨_,hnone,_⟩ | ⟨id,chunk,others,rfl,hid,hf⟩
        · rw [hnone] at hq
          cases hq
        · rw [Call.parsedFor_chunk others hid] at hq
          exact ((hj r hr).chunk hp hid hr hf).errors q hq
      · refine ih _ hp₁ (fun r' hr' => ?_) hlater p hm
        rcases Call.stream_cases (Call.clean_foreign hnow) hp with
          ⟨_,_,hu⟩ | ⟨id,chunk,others,rfl,hid,hf⟩
        · rw [hu.present hr hr']
          exact hj r hr
        · exact ((hj r hr).chunk hp hid hr hf).jammed r' hr'

theorem dispatchedRanges_append (a b : List (Nat × Parsed)) :
    dispatchedRanges (a ++ b) = dispatchedRanges a ++ dispatchedRanges b := List.filterMap_append

theorem dispatchedRanges_errors {found : List (Nat × Parsed)}
    (h : ∀ p ∈ found, p.2.isError = true) : dispatchedRanges found = [] := by
  refine List.filterMap_eq_nil_iff.mpr (fun p hp => ?_)
  have herr := h p hp
  cases hq : p.2 with
  | frame avail hdr payload => rw [hq] at herr; cases herr
  | error why => rfl

/-- The frames of a cut lie one after the other in the stream, also when the loop is left
after some of them. -/
theorem parsedFrames_laid {b rest : Bytes} {us : List Bytes} (hc : Cuts frameScanner b us rest)
    {fed : Nat} (hb : b.length ≤ fed) (k : Nat) :
    Laid (fed-b.length) (fed-rest.length)
      (dispatchedRanges (((parsedFrames rest us).take k).map (fun p => (fed,p)))) := by
  induction hc generalizing k with
  | stop hs => simp [parsedFrames,dispatchedRanges,Laid]
  | @unit b rest n us hv hc ih =>
    obtain ⟨h1,_,_,hn,hle⟩ := lookFrame_unit hv
    have hlen := congrArg List.length (Cuts.unit hv hc).flatten
    have htail := congrArg List.length hc.flatten
    rw [List.length_append] at htail
    cases k with
    | zero =>
      simp only [List.take_zero,List.map_nil]
      show fed-b.length ≤ fed-rest.length
      rw [List.length_drop] at htail
      omega
    | succ k =>
      have hdec : Header.decode (b.take n) = Header.decode b :=
        Header.decode_take (by rw [hn]; exact Nat.le_add_right _ _) hle
      have hn' : headerSize+(Header.decode b).payloadLen.toNat = n := hn.symm
      have hpos := frameScanner.unit_pos hv
      have hnext := ih (by rw [List.length_drop]; omega) k
      rw [parsedFrames,hlen,hdec,List.take_succ_cons,List.map_cons]
      have hcons : dispatchedRanges ((fed,.frame b.length (Header.decode b)
            ((b.take n).drop headerSize)) ::
          ((parsedFrames rest us).take k).map (fun p => (fed,p))) =
          (fed-b.length,fed-b.length+(headerSize+(Header.decode b).payloadLen.toNat)) ::
            dispatchedRanges (((parsedFrames rest us).take k).map (fun p => (fed,p))) := rfl
      rw [hcons,hn']
      refine ⟨Nat.le_refl _,Nat.lt_add_of_pos_right hpos,?_⟩
      have hstart : fed-(b.drop n).length = fed-b.length+n := by
        rw [List.length_drop]
        omega
      rwa [hstart] at hnext

theorem parsedFrames_no_error (rest : Bytes) (us : List Bytes) :
    ∀ p ∈ parsedFrames rest us, p.isError = false := by
  induction us with
  | nil => exact fun p hm => by cases hm
  | cons u us ih =>
    intro p hm
    rcases List.mem_cons.mp hm with rfl | hm
    · rfl
    · exact ih p hm

/-- A step that goes well: frames in order up to where the buffer now begins. -/
structure Advances (peer lo fed : Nat) (d : Impl × List Parsed) : Prop where
  frames : ∀ p ∈ d.2, p.isError = false
  laid : ∃ mid, Laid lo mid (dispatchedRanges (d.2.map (fun p => (fed,p)))) ∧
    ∀ r', d.1.find peer = some r' → r'.recvBuf.length ≤ fed ∧ mid ≤ fed-r'.recvBuf.length

theorem Advances.of_ends {buf rest : Bytes} {us : List Bytes} {d : Impl × List Parsed} {fed : Nat}
    (hc : Cuts frameScanner buf us rest) (he : ParseEnds peer st buf us rest d)
    (hb : lookFrame rest ≠ .bad) (hfed : buf.length ≤ fed) :
    Advances peer (fed-buf.length) fed d := by
  have hsome : ∃ k, d.2 = (parsedFrames rest us).take k := by
    rcases he.parsed with h | ⟨_,k,h⟩
    · refine ⟨(parsedFrames rest us).length,?_⟩
      rw [h,parsedEnd,if_neg hb,List.append_nil,List.take_length]
    · exact ⟨k,h⟩
  obtain ⟨k,hk⟩ := hsome
  refine ⟨fun p hm => ?_,fed-rest.length,?_,fun r' hr' => ?_⟩
  · rw [hk] at hm
    exact parsedFrames_no_error rest us p (List.mem_of_mem_take hm)
  · rw [hk]
    exact parsedFrames_laid hc hfed k
  · have hlen := congrArg List.length hc.flatten
    rw [he.buffer r' hr',leftover,if_neg hb]
    rw [List.length_append] at hlen
    exact ⟨by omega,Nat.le_refl _⟩

theorem Call.clean_chunk {id fed : Nat} {chunk : Bytes} {others : List (List Event)}
    (hok : Call.clean peer st (.data id chunk others) = true)
    (hid : st.resolveTransport id = peer) (hp : peer < st.nextId) (hr : st.find peer = some r)
    (hfed : r.recvBuf.length ≤ fed) :
    Advances peer (fed-r.recvBuf.length) (fed+chunk.length) (st.handleData env id chunk others) ∨
      Fails peer (st.handleData env id chunk others) := by
  simp only [clean,foreign,hid,hr,bne_self_eq_false,Bool.false_or,Bool.and_eq_true,
    Option.all_some,Bool.or_eq_true,decide_eq_true_eq,List.isEmpty_iff] at hok
  obtain ⟨hf,hclean⟩ := hok
  have hf := List.all_eq_true.mp hf
  cases hs : st.shuttingDown with
  | true =>
    rw [Impl.handleData_idle others (Or.inl hs)]
    refine Or.inl ⟨fun p hm => (by cases hm),fed-r.recvBuf.length,Nat.le_refl _,fun r' hr' => ?_⟩
    have hsame : some r = some r' := hr.symm.trans hr'
    cases hsame
    exact ⟨by omega,by omega⟩
  | false =>
    rcases Impl.handleData_cases env chunk hp hs hid hr hf with
      ⟨_,hbig,_,hparsed,hbuf⟩ | ⟨hfits,us,rest,hcut,hend⟩
    · exact Or.inr (Fails.overflow hbig hparsed hbuf)
    · by_cases hb : lookFrame rest = .bad
      · -- a bad header: by the condition it stands at the front of the bytes at hand
        obtain ⟨hus,hrest⟩ := hcut.unique (frameScanner.cuts (r.recvBuf ++ chunk))
        have hpart : ¬ isWholeFrame r chunk = true := fun hw => by
          rw [isWholeFrame_rest hw hcut] at hb
          cases hb
        have hfits := hfits.resolve_left hpart
        have hnone : us = [] := by
          rcases hclean with ((hw | hbig) | hgood) | hnone
          · exact absurd hw hpart
          · omega
          · exact absurd (hrest ▸ hb) hgood
          · exact hus.trans hnone
        subst hnone
        have hall : rest = r.recvBuf ++ chunk := hcut.flatten
        rw [hall] at hend hb
        exact Or.inr (Fails.of_ends hend hb)
      · left
        have hlen : (r.recvBuf ++ chunk).length ≤ fed+chunk.length := by
          rw [List.length_append]
          omega
        have hadv := Advances.of_ends hcut hend hb hlen
        have hlo : fed+chunk.length-(r.recvBuf ++ chunk).length = fed-r.recvBuf.length := by
          rw [List.length_append]
          omega
        rwa [hlo] at hadv

/-- By induction on the calls: what has been dispatched lies in order in front of what is
left, and after a failure there is no more of it. -/
theorem Impl.parsed_once {calls : List Call} (fed : Nat) (hp : peer < st.nextId)
    (hr : st.find peer = some r) (hfed : r.recvBuf.length ≤ fed)
    (hok : st.throughout env (Call.clean peer) calls = true) :
    (∃ hi, Laid (fed-r.recvBuf.length) hi (dispatchedRanges (st.parsed env peer fed calls))) ∧
      (st.parsed env peer fed calls).Pairwise
        (fun p q => p.2.isError = true → q.2.isError = true) := by
  induction calls generalizing st r fed with
  | nil => exact ⟨⟨_,Nat.le_refl _⟩,List.Pairwise.nil⟩
  | cons c cs ih =>
    obtain ⟨hnow,hlater⟩ := Bool.and_eq_true_iff.mp hok
    have hp₁ := Nat.lt_of_lt_of_le hp ((Call.step_ticks st c : Ticks env st _).present hp).1
    have hstep : Advances peer (fed-r.recvBuf.length) (fed+(c.bytesFor st peer).length)
        (c.step env st,c.parsedFor env st peer) ∨
        Fails peer (c.step env st,c.parsedFor env st peer) := by
      rcases Call.stream_cases (Call.clean_foreign hnow) hp with
        ⟨hb,hq,hu⟩ | ⟨id,chunk,others,rfl,hid,hf⟩
      · rw [hb,hq]
        refine Or.inl ⟨fun p hm => (by cases hm),fed-r.recvBuf.length,Nat.le_refl _,fun r' hr' => ?_⟩
        rw [hu.present hr hr']
        exact ⟨hfed,Nat.le_refl _⟩
      · rw [Call.bytesFor_chunk chunk others hid,Call.parsedFor_chunk others hid]
        exact Call.clean_chunk hnow hid hp hr hfed
    rw [parsed,dispatchedRanges_append]
    rcases hstep with hadv | hfail
    · obtain ⟨mid,hlaid,hbuf⟩ := hadv.laid
      have hfirst : ((c.parsedFor env st peer).map
          (fun p => (fed+(c.bytesFor st peer).length,p))).Pairwise
          (fun p q => p.2.isError = true → q.2.isError = true) := by
        refine List.pairwise_of_forall_mem_list (fun p hm q _ he => ?_)
        obtain ⟨x,hx,rfl⟩ := List.mem_map.mp hm
        rw [hadv.frames x hx] at he
        cases he
      cases hr' : (c.step env st).find peer with
      | none =>
        rw [parsed_gone _ hp₁ hr']
        simp only [List.append_nil]
        refine ⟨⟨mid,?_⟩,hfirst⟩
        simpa [dispatchedRanges] using hlaid
      | some r' =>
        obtain ⟨hlen,hmid⟩ := hbuf r' hr'
        obtain ⟨⟨hi,hrest⟩,hpair⟩ := ih _ hp₁ hr' hlen hlater
        refine ⟨⟨hi,hlaid.append (hrest.weaken hmid)⟩,List.pairwise_append.mpr
          ⟨hfirst,hpair,fun p hm q _ he => ?_⟩⟩
        obtain ⟨x,hx,rfl⟩ := List.mem_map.mp hm
        rw [hadv.frames x hx] at he
        cases he
    · have herr : ∀ p ∈ (c.parsedFor env st peer).map
          (fun p => (fed+(c.bytesFor st peer).length,p)), p.2.isError = true := by
        intro p hm
        obtain ⟨x,hx,rfl⟩ := List.mem_map.mp hm
        exact hfail.errors x hx
      have hrest := parsed_jammed (fed+(c.bytesFor st peer).length) hp₁ hfail.jammed hlater
      rw [dispatchedRanges_errors herr,dispatchedRanges_errors hrest]
      refine ⟨⟨_,Nat.le_refl _⟩,List.pairwise_of_forall_mem_list (fun p _ q hq _ => ?_)⟩
      rcases List.mem_append.mp hq with hq | hq
      · exact herr q hq
      · exact hrest q hq

end

/-- Over every run on one connection in which no call meets a bad header behind complete
frames, however long the close takes. -/
theorem stream_dispatched_once (env : Env) (identity : NodeIdentity) (opening calls : List Call)
    (peer : Nat) (r₀ : ConnectionRecord)
    (hopen : ((Impl.start identity).run env opening).find peer = some r₀)
    (hempty : r₀.recvBuf = [])
    (hok : ((Impl.start identity).run env opening).throughout env (Call.clean peer) calls = true) :
    DispatchedOnce (((Impl.start identity).run env opening).parsed env peer 0 calls) := by
  have hp := (run_sound env identity opening).fresh peer r₀ hopen
  obtain ⟨⟨hi,hlaid⟩,hstop⟩ := Impl.parsed_once 0 hp hopen (by rw [hempty]; exact Nat.le_refl _) hok
  exact ⟨hlaid.nodup,hstop⟩

/-- Twenty bytes that are no header. -/
def noHeader : Bytes := List.replicate 20 0

/-- A frame, then rubbish, then more rubbish. -/
def rubbishLater : List Call := [.data 1 (wires threeFrames) [],.data 1 noHeader [],.data 1 [0] []]

set_option maxRecDepth 10000 in
theorem stream_dispatched_once_rubbish :
    DispatchedOnce (((Impl.start NodeIdentity.bob).run (Env.sample false) bobListens).parsed
      (Env.sample false) 1 0 rubbishLater) := by
  have hopen : (((Impl.start NodeIdentity.bob).run (Env.sample false) bobListens).find 1).any
      (fun r => r.recvBuf.isEmpty) = true := by decide +kernel
  obtain ⟨r₀,hr₀,hempty⟩ := (Option.any_eq_true _ _).mp hopen
  exact stream_dispatched_once (Env.sample false) NodeIdentity.bob bobListens rubbishLater 1 r₀ hr₀
    (List.isEmpty_iff.mp hempty) (by decide +kernel)

/-- A frame and rubbish in one chunk, then one more byte. -/
def rubbishAtOnce : List Call :=
  [.data 1 ((Frame.sample 1 [1,2,3] three_bytes_fit).wire ++ noHeader) [],.data 1 [0] []]

set_option maxRecDepth 10000 in
/-- The frame is dispatched, the error reported, and the frame dispatched again. -/
theorem frame_dispatched_twice :
    dispatchedRanges (((Impl.start NodeIdentity.bob).run (Env.sample false) bobListens).parsed
        (Env.sample false) 1 0 rubbishAtOnce) = [(0,23),(0,23)] ∧
      (((Impl.start NodeIdentity.bob).run (Env.sample false) bobListens).parsed
        (Env.sample false) 1 0 rubbishAtOnce).map (fun p => p.2.isError) =
        [false,true,false,true] ∧
      ¬ DispatchedOnce (((Impl.start NodeIdentity.bob).run (Env.sample false) bobListens).parsed
        (Env.sample false) 1 0 rubbishAtOnce) := by
  have hranges : dispatchedRanges (((Impl.start NodeIdentity.bob).run (Env.sample false)
      bobListens).parsed (Env.sample false) 1 0 rubbishAtOnce) = [(0,23),(0,23)] := by
    decide +kernel
  refine ⟨hranges,by decide +kernel,fun h => ?_⟩
  have honce := h.once
  rw [hranges] at honce
  exact absurd honce (by decide)

end GoodNet
