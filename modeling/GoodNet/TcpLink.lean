import GoodNet.TcpRead
import GoodNet.Reassembly
set_option autoImplicit false

/-! A TCP connection from end to end: the writer at one end, the bytes under way, the reader at
the other and the core behind it. -/

namespace GoodNet
open Codec Framing Interleaving

/-- One direction of a connection. `inFlight` has been put on the sender's socket and has not come
in at the reader's. -/
structure TcpLink where
  sender : TcpConnection := {}
  inFlight : Bytes := []
  reader : TcpReader := {}
  deriving DecidableEq, Repr

inductive TcpLinkStep where
  | write (a : WriteStep)
  | deliver (n : Nat)
  | readSome (n : Nat)
  | fail (ec : ReadError)
  deriving DecidableEq, Repr

def TcpLink.act (l : TcpLink) : TcpLinkStep → TcpLink
  | .write a =>
    { l with
      sender := l.sender.act a,
      inFlight := l.inFlight ++ (l.sender.act a).socket.drop l.sender.socket.length }
  | .deliver n =>
    { l with
      inFlight := l.inFlight.drop n,
      reader := l.reader.act (.arrive (l.inFlight.take n)) }
  | .readSome n => { l with reader := l.reader.act (.readSome n) }
  | .fail ec => { l with reader := l.reader.act (.fail ec) }

/-- A frame that the reader takes. -/
def Frame.Carried (f : Frame) : Prop := f.Valid ∧ f.payload.length ≤ tcpMaxPayload

instance (f : Frame) : Decidable f.Carried :=
  inferInstanceAs (Decidable (f.Valid ∧ f.payload.length ≤ tcpMaxPayload))

/-- What the sender has put on its socket has come in or is under way. -/
structure TcpLink.Flows (errs : ReadError → Prop) (l : TcpLink) : Prop where
  paced : l.sender.Paced
  conserved : l.sender.socket = l.reader.arrived ++ l.inFlight
  reads : ∃ units last, l.reader.Reads errs units last

/-- Nothing is left to write, to bring or to read. -/
def TcpLink.Rests (l : TcpLink) : Prop :=
  l.sender.writing = false ∧ l.inFlight = [] ∧ l.reader.socket = []

section
variable {errs : ReadError → Prop} {l : TcpLink} {frames : List Frame}

theorem TcpConnection.act_socket (c : TcpConnection) (a : WriteStep) :
    c.socket <+: (c.act a).socket := by
  cases a with
  | enqueue frames => simp [act,enqueue]
  | startWrite =>
    simp only [act,startWrite]
    split
    · simp
    · split <;> simp
  | transmit i n =>
    simp only [act,transmit]
    split <;> simp
  | complete i =>
    simp only [act,complete]
    split
    · simp
    · split <;> simp

theorem TcpLink.Flows.act (h : l.Flows errs) {a : TcpLinkStep}
    (ha : ∀ ec, a = .fail ec → errs ec) : (l.act a).Flows errs := by
  obtain ⟨units,last,hr⟩ := h.reads
  cases a with
  | write a =>
    refine ⟨h.paced.act a,?_,h.reads⟩
    obtain ⟨more,hmore⟩ := l.sender.act_socket a
    have hc := h.conserved
    simp only [TcpLink.act]
    rw [← hmore,List.drop_left,← List.append_assoc,← hc]
  | deliver n =>
    refine ⟨h.paced,?_,hr.act (a := .arrive _) (fun ec hec => by cases hec)⟩
    have hc := h.conserved
    simp [TcpLink.act,TcpReader.act,hc]
  | readSome n =>
    refine ⟨h.paced,?_,hr.act (a := .readSome n) (fun ec hec => by cases hec)⟩
    simp only [TcpLink.act]
    rw [TcpReader.act_arrived,ReadStep.segment,List.append_nil]
    exact h.conserved
  | fail ec =>
    refine ⟨h.paced,?_,hr.act (a := .fail ec) (fun ec' hec => ?_)⟩
    · simp only [TcpLink.act]
      rw [TcpReader.act_arrived,ReadStep.segment,List.append_nil]
      exact h.conserved
    · cases hec
      exact ha ec rfl

theorem TcpLink.flows_run (errs : ReadError → Prop) (steps : List TcpLinkStep)
    (he : ∀ ec, .fail ec ∈ steps → errs ec) (h : l.Flows errs) :
    (Interleaving.run TcpLink.act l steps).Flows errs := by
  induction steps generalizing l with
  | nil => exact h
  | cons a steps ih =>
    exact ih (fun ec hec => he ec (List.mem_cons_of_mem a hec))
      (h.act (fun ec hec => he ec (hec ▸ List.mem_cons_self)))

theorem TcpLink.flows_new : ({} : TcpLink).Flows errs :=
  ⟨TcpConnection.paced_new,rfl,_,_,TcpReader.reads_new⟩

theorem Frame.Carried.body {f : Frame} (h : f.Carried) :
    tcpBody (f.wire.take headerSize) = some f.header.payloadLen.toNat := by
  obtain ⟨⟨hmagic,hver⟩,hlen⟩ := h
  rw [f.length_eq] at hlen
  have hd : Header.decode f.wire = f.header := Header.decode_encode f.header f.payload
  have hsize : headerSize ≤ f.wire.length := by
    rw [wire_length]
    exact Nat.le_add_right _ _
  unfold tcpBody
  rw [Header.decode_take (Nat.le_refl _) hsize,hd,if_neg (not_not.mpr hmagic),
    if_neg (not_not.mpr hver),if_neg (Nat.not_lt.mpr hlen)]

theorem Frame.Carried.look {f : Frame} (h : f.Carried) :
    tcpScanner.look f.wire = .unit f.wire.length := by
  have hsize : tcpLayout.size+f.header.payloadLen.toNat = f.wire.length := by
    rw [f.wire_length,tcpLayout_size,Frame.total]
  have hbody : tcpLayout.body (f.wire.take tcpLayout.size) = some f.header.payloadLen.toNat := by
    rw [tcpLayout_body,tcpLayout_size,h.body]
  rw [Layout.scanner_look,tcpLayout.look_whole hbody hsize.le,hsize]

theorem cuts_carried (hv : ∀ f ∈ frames, f.Carried) :
    Cuts tcpScanner (wires frames) (frames.map Frame.wire) [] := by
  have hstuck : tcpScanner.Stuck [] := by
    intro n hn
    simp [tcpLayout.look_header (b := ([] : Bytes)) (by decide)] at hn
  have hcut : Cuts tcpScanner ((frames.map Frame.wire).flatten ++ []) (frames.map Frame.wire) [] := by
    refine Cuts.of_units (fun u hu => ?_) hstuck
    obtain ⟨f,hf,rfl⟩ := List.mem_map.mp hu
    exact (hv f hf).look
  rwa [List.append_nil] at hcut

/-- The beginning of a stream of frames is cut into the first of them and is not refused. -/
theorem cut_of_carried {arrived missing : Bytes} (hv : ∀ f ∈ frames, f.Carried)
    (hs : arrived ++ missing = wires frames) :
    (tcpScanner.cut arrived).1 <+: frames.map Frame.wire ∧
      tcpScanner.look (tcpScanner.cut arrived).2 ≠ .bad ∧
      (missing = [] → (tcpScanner.cut arrived).1 = frames.map Frame.wire) := by
  have hcut := tcpScanner.cuts arrived
  have hrest := tcpScanner.cuts ((tcpScanner.cut arrived).2 ++ missing)
  have hall := hcut.append hrest
  rw [hs] at hall
  have hsame := (hall.unique (cuts_carried hv)).1
  refine ⟨⟨_,hsame⟩,fun hbad => ?_,fun hm => ?_⟩
  · have hlong := hcut.bad_append hbad missing
    rw [hs] at hlong
    have hnone := (hlong.unique (cuts_carried hv)).2
    rw [(List.append_eq_nil_iff.mp hnone).1,Layout.scanner_look,
      tcpLayout.look_header (by decide)] at hbad
    cases hbad
  · rw [hm,List.append_nil] at hs
    rw [hs]
    exact ((tcpScanner.cuts _).unique (cuts_carried hv)).1

/-- What the reader says about the beginning of a stream of frames. -/
theorem readNotes_carried {arrived missing : Bytes} (hv : ∀ f ∈ frames, f.Carried)
    (hs : arrived ++ missing = wires frames) :
    readNotes arrived = (tcpScanner.cut arrived).1.map ReadNote.data := by
  unfold readNotes
  rw [if_neg (cut_of_carried hv hs).2.1,List.append_nil]

theorem TcpLink.Flows.stream (h : l.Flows errs)
    (hf : l.sender.enqueued = frames.map Frame.wire) :
    ∃ missing, l.reader.arrived ++ missing = wires frames ∧
      (l.sender.writing = false → l.inFlight = [] → missing = []) := by
  have hbytes := h.paced.bytes
  rw [h.conserved,hf,List.append_assoc] at hbytes
  refine ⟨_,hbytes,fun hw hi => ?_⟩
  cases h.paced.phase with
  | idle _ hs ho hq => simp [ho,hq,hi]
  | starting hw' hs ho => simp [hw] at hw'
  | writing w hw' hs ho => simp [hw] at hw'

end

/-- The frames that one end enqueues are told to the core of the other end whole, each once and in
the order they were enqueued in, whatever the two sockets and the network make of the bytes; a
read that fails cuts the sequence off between two frames. When nothing is left to write,
to bring or to read, all of them have been told. -/
theorem tcp_link_keeps_frames (steps : List TcpLinkStep) (frames : List Frame)
    (hv : ∀ f ∈ frames, f.Carried)
    (hf : (Interleaving.run TcpLink.act {} steps).sender.enqueued = frames.map Frame.wire) :
    let l := Interleaving.run TcpLink.act {} steps
    (∃ told, told <+: frames ∧
      (l.reader.notes = told.map (fun f => .data f.wire) ∨ ∃ ec, .fail ec ∈ steps ∧
        l.reader.notes = told.map (fun f => .data f.wire) ++ [.disconnect ec.reported])) ∧
    ((∀ ec, .fail ec ∉ steps) → l.Rests →
      l.reader.notes = frames.map (fun f => .data f.wire)) := by
  dsimp only
  have hfirst : ∀ us : List Bytes, us <+: frames.map Frame.wire →
      ∃ told, told <+: frames ∧ us.map ReadNote.data = told.map (fun f => .data f.wire) := by
    rintro us ⟨more,hus⟩
    obtain ⟨told,others,rfl,rfl,_⟩ := List.map_eq_append_iff.mp hus.symm
    exact ⟨told,⟨others,rfl⟩,by simp⟩
  constructor
  · have h := TcpLink.flows_run (fun ec => .fail ec ∈ steps) steps (fun _ hec => hec)
      TcpLink.flows_new
    generalize Interleaving.run TcpLink.act {} steps = l at h hf ⊢
    obtain ⟨units,last,hr⟩ := h.reads
    obtain ⟨missing,hs,_⟩ := h.stream hf
    have hcut := (cut_of_carried hv hs).1
    rcases hr.notes_prefix with hp | ⟨ec,he,hn,hu⟩
    · rw [readNotes_carried hv hs] at hp
      have hk := List.prefix_iff_eq_take.mp hp
      rw [← List.map_take] at hk
      obtain ⟨told,htold,hmap⟩ := hfirst _ ((List.take_prefix _ _).trans hcut)
      exact ⟨told,htold,Or.inl (hk.trans hmap)⟩
    · obtain ⟨told,htold,hmap⟩ := hfirst _ (hu.trans hcut)
      exact ⟨told,htold,Or.inr ⟨ec,he,by rw [hn,hmap]⟩⟩
  · intro hno hrest
    have h := TcpLink.flows_run (fun _ => False) steps (fun ec hec => hno ec hec)
      TcpLink.flows_new
    generalize Interleaving.run TcpLink.act {} steps = l at h hf hrest ⊢
    obtain ⟨hw,hi,hsock⟩ := hrest
    obtain ⟨units,last,hr⟩ := h.reads
    obtain ⟨missing,hs,hnone⟩ := h.stream hf
    rw [hr.notes_drained (Or.inl hsock),readNotes_carried hv hs,
      (cut_of_carried hv hs).2.2 (hnone hw hi)]
    simp

/-- Both ends of a connection that carries a frame with a payload and one without, in pieces. -/
def linkSteps : List TcpLinkStep :=
  [.write (.enqueue (threeFrames.map Frame.wire)),.write .startWrite,.write (.transmit 0 30),
    .deliver 21,.readSome 20,.readSome 20,.write (.transmit 0 100),.write (.complete 0),
    .deliver 100,.readSome 2,.readSome 50,.readSome 50,.readSome 50]

set_option maxRecDepth 10000 in
theorem tcp_link_keeps_frames_pieces :
    ∃ told, told <+: threeFrames ∧
      ((Interleaving.run TcpLink.act {} linkSteps).reader.notes =
          told.map (fun f => .data f.wire) ∨ ∃ ec, .fail ec ∈ linkSteps ∧
        (Interleaving.run TcpLink.act {} linkSteps).reader.notes =
          told.map (fun f => .data f.wire) ++ [.disconnect ec.reported]) :=
  (tcp_link_keeps_frames linkSteps threeFrames (by decide +kernel) (by decide +kernel)).1

/-- The chunk that a call brings in for `peer`. -/
def Call.chunksFor (st : Impl) (peer : Nat) : Call → List Bytes
  | .event _ => []
  | .data id chunk _ => if st.resolveTransport id = peer then [chunk] else []

/-- The chunks of a run, in the order of the calls. -/
def Impl.chunks (env : Env) (peer : Nat) : Impl → List Call → List Bytes
  | _, [] => []
  | st, c :: cs => c.chunksFor st peer ++ chunks env peer (c.step env st) cs

/-- Nobody else works on `peer` meanwhile, and no shutdown has begun. -/
def Call.handled (peer : Nat) (st : Impl) (c : Call) : Bool :=
  c.foreign peer &&
    match c with
    | .event _ => true
    | .data id _ _ => st.resolveTransport id != peer || !st.shuttingDown

def ReadNote.spanOf : ReadNote → Option Bytes
  | .data span => some span
  | .disconnect _ => none

theorem ReadNote.span_data (units : List Bytes) :
    (units.map ReadNote.data).filterMap ReadNote.spanOf = units := by
  induction units with
  | nil => rfl
  | cons u units ih => simp [ReadNote.spanOf,ih]

theorem TcpReader.Reads.spans {errs : ReadError → Prop} {c : TcpReader} {units : List Bytes}
    {last : List ReadNote} (h : c.Reads errs units last) :
    c.notes.filterMap ReadNote.spanOf = units := by
  rw [h.notes,List.filterMap_append,ReadNote.span_data]
  cases h.stands with
  | header hp hl => simp
  | body plen hp hs hb hl => simp
  | refused hp hb => simp [ReadNote.spanOf]
  | failed ec he hp hb => simp [ReadNote.spanOf]

section
variable {env : Env} {peer : Nat} {st : Impl} {r r' : ConnectionRecord}

/-- A unit of the reader is a frame for the core, whatever its size. -/
theorem tcp_unit_whole {u : Bytes} (h : tcpScanner.look u = .unit u.length) :
    lookFrame u = .unit u.length ∧ (r.recvBuf = [] → isWholeFrame r u = true) := by
  rw [Layout.scanner_look] at h
  rcases tcpLayout.look_cases u with ⟨hl,_⟩ | ⟨hl,_⟩ | ⟨n,hl,hb,hle⟩
  · simp [hl] at h
  · simp [hl] at h
  · rw [hl,Verdict.unit.injEq] at h
    have hsize : headerSize ≤ u.length := by
      rw [← h]
      exact Nat.le_add_right _ _
    have hdec : Header.decode (u.take headerSize) = Header.decode u :=
      Header.decode_take (Nat.le_refl _) hsize
    have hbody : tcpBody (u.take headerSize) = some n := hb
    simp only [tcpBody,hdec,ne_eq,Option.ite_none_left_eq_some,not_not,Option.some.injEq] at hbody
    obtain ⟨hmagic,hver,_,hlen⟩ := hbody
    have htotal : headerSize+(Header.decode u).payloadLen.toNat = u.length := by
      rw [hlen]
      exact h
    refine ⟨?_,fun hempty => ?_⟩
    · rw [lookFrame_of hsize hmagic hver (Nat.le_of_eq htotal)]
      exact congrArg Verdict.unit htotal
    · simp [isWholeFrame,hempty,hsize,htotal,hmagic,hver]

/-- One call: the chunk it brings is dispatched as it is. -/
theorem Call.handled_chunk {id : Nat} {chunk : Bytes} {others : List (List Event)}
    (hok : Call.handled peer st (.data id chunk others) = true)
    (hid : st.resolveTransport id = peer) (hp : peer < st.nextId) (hr : st.find peer = some r)
    (hr' : (st.handleData env id chunk others).1.find peer = some r')
    (hempty : r.recvBuf = []) (hu : tcpScanner.look chunk = .unit chunk.length) :
    r'.recvBuf = [] ∧ (st.handleData env id chunk others).2.map Parsed.pair = [unitPair chunk] := by
  obtain ⟨hlook,hwhole⟩ := tcp_unit_whole (r := r) hu
  have hcut : Cuts frameScanner chunk [chunk] [] := (isWholeFrame_cuts (hwhole hempty)).2
  have hsmooth : Call.smooth peer st (.data id chunk others) = true := by
    simp only [handled,Bool.and_eq_true] at hok
    simp only [smooth,Bool.and_eq_true,hr,Option.all_some,hwhole hempty,Bool.true_or,Bool.and_true]
    exact hok
  have hclean : ∀ us rest, Cuts frameScanner (r.recvBuf ++ chunk) us rest → lookFrame rest ≠ .bad := by
    intro us rest hc
    rw [hempty,List.nil_append] at hc
    rw [← (hcut.unique hc).2]
    simp [lookFrame_nil]
  obtain ⟨us,hus,hpairs⟩ := Call.smooth_chunk hsmooth hid hp hr hr' hclean
  rw [hempty,List.nil_append] at hus
  obtain ⟨hunits,hrest⟩ := hcut.unique hus
  exact ⟨hrest.symm,by rw [hpairs,← hunits]; rfl⟩

/-- By induction on the calls: the buffer stays empty and every chunk is one packet. -/
theorem Impl.run_whole {calls : List Call} (fed : Nat) (hp : peer < st.nextId)
    (hr : st.find peer = some r) (hr' : (st.run env calls).find peer = some r')
    (hok : st.throughout env (Call.handled peer) calls = true) (hempty : r.recvBuf = [])
    (hu : ∀ u ∈ st.chunks env peer calls, tcpScanner.look u = .unit u.length) :
    r'.recvBuf = [] ∧
      (st.parsed env peer fed calls).map (fun p => p.2.pair) =
        (st.chunks env peer calls).map unitPair := by
  induction calls generalizing st r fed with
  | nil =>
    have hsame : some r = some r' := hr.symm.trans hr'
    cases hsame
    exact ⟨hempty,rfl⟩
  | cons c cs ih =>
    obtain ⟨hnow,hlater⟩ := Bool.and_eq_true_iff.mp hok
    obtain ⟨hn,_⟩ := (Call.step_ticks st c : Ticks env st _).present hp
    have hp₁ := Nat.lt_of_lt_of_le hp hn
    obtain ⟨r₁,hr₁⟩ := ((run_ticks (c.step env st) cs).present hp₁).2 r' hr'
    have hrest : ∀ u ∈ (c.step env st).chunks env peer cs,
        tcpScanner.look u = .unit u.length := fun u hm => hu u (List.mem_append_right _ hm)
    rcases Call.stream_cases (Bool.and_eq_true_iff.mp hnow).1 hp with
      ⟨hb,hq,hu₁⟩ | ⟨id,chunk,others,rfl,hid,hf⟩
    · have hsame := hu₁.present hr hr₁
      obtain ⟨hend,hpairs⟩ := ih (fed+(c.bytesFor st peer).length) hp₁ hr₁ hr' hlater
        (hsame.trans hempty) hrest
      have hnone : c.chunksFor st peer = [] := by
        cases c with
        | event e => rfl
        | data id chunk others =>
          by_cases hid : st.resolveTransport id = peer
          · have hbytes := Call.bytesFor_chunk chunk others hid
            rw [hb] at hbytes
            subst hbytes
            have hempty' := hu [] (by simp [chunks,Call.chunksFor,hid])
            simp [tcpLayout.look_header (b := ([] : Bytes)) (by decide)] at hempty'
          · simp [Call.chunksFor,hid]
      refine ⟨hend,?_⟩
      simp only [parsed,chunks,hq,hnone,List.map_nil,List.nil_append]
      exact hpairs
    · have hmem : chunk ∈ st.chunks env peer (.data id chunk others :: cs) := by
        simp [chunks,Call.chunksFor,hid]
      obtain ⟨hkept,hone⟩ := Call.handled_chunk hnow hid hp hr hr₁ hempty (hu chunk hmem)
      obtain ⟨hend,hpairs⟩ := ih (fed+(Call.bytesFor st peer (.data id chunk others)).length)
        hp₁ hr₁ hr' hlater hkept hrest
      refine ⟨hend,?_⟩
      simp only [parsed,chunks,Call.parsedFor_chunk others hid,List.map_append,List.map_map,hpairs]
      simp only [Call.chunksFor,hid,ite_true,List.map_cons,List.map_nil,← hone]
      rfl

end

/-- The other end's frames reach `dispatch_packet` one by one and in order: the core handles what
the reader has told it so far, among any other calls, and keeps none of it in the receive
buffer, so that no limit of that buffer applies. -/
theorem tcp_frames_dispatched (env : Env) (identity : NodeIdentity) (opening calls : List Call)
    (peer : Nat) (r₀ r : ConnectionRecord) (steps : List TcpLinkStep) (frames : List Frame)
    (hopen : ((Impl.start identity).run env opening).find peer = some r₀)
    (hempty : r₀.recvBuf = []) (hv : ∀ f ∈ frames, f.Carried)
    (hf : (Interleaving.run TcpLink.act {} steps).sender.enqueued = frames.map Frame.wire)
    (hc : (((Impl.start identity).run env opening).chunks env peer calls).map ReadNote.data <+:
      (Interleaving.run TcpLink.act {} steps).reader.notes)
    (hok : ((Impl.start identity).run env opening).throughout env (Call.handled peer) calls = true)
    (hr : (((Impl.start identity).run env opening).run env calls).find peer = some r) :
    ∃ told, told <+: frames ∧ r.recvBuf = [] ∧
      (((Impl.start identity).run env opening).parsed env peer 0 calls).map (fun p => p.2.pair) =
        told.map (fun f => some (f.header,f.payload)) := by
  have hp := (run_sound env identity opening).fresh peer r₀ hopen
  have hlink := TcpLink.flows_run (fun _ => True) steps (fun _ _ => trivial) TcpLink.flows_new
  generalize (Impl.start identity).run env opening = st at *
  generalize Interleaving.run TcpLink.act {} steps = l at hf hc hlink
  obtain ⟨units,last,hreads⟩ := hlink.reads
  obtain ⟨missing,hs,_⟩ := hlink.stream hf
  have hunits : st.chunks env peer calls <+: units := by
    have hspans := hc.filterMap ReadNote.spanOf
    rwa [hreads.spans,ReadNote.span_data] at hspans
  obtain ⟨hend,hpairs⟩ := Impl.run_whole 0 hp hopen hr hok hempty
    (fun u hu => hreads.whole u (hunits.subset hu))
  have hcut : units <+: frames.map Frame.wire :=
    List.IsPrefix.trans ⟨_,hreads.cut.1.symm⟩ (cut_of_carried hv hs).1
  obtain ⟨told,others,rfl,hchunks,_⟩ := List.map_eq_append_iff.mp (hunits.trans hcut).choose_spec.symm
  refine ⟨told,⟨others,rfl⟩,hend,?_⟩
  rw [hpairs,← hchunks,List.map_map]
  exact List.map_congr_left (fun f _ => unitPair_wire f)

/-- The first two of the frames that the reader tells the core of. -/
def linkCalls : List Call :=
  (threeFrames.take 2).map (fun f => .data 1 f.wire [])

set_option maxRecDepth 10000 in
theorem tcp_frames_dispatched_two :
    ∃ r, (((Impl.start NodeIdentity.bob).run (Env.sample false) bobListens).run
        (Env.sample false) linkCalls).find 1 = some r ∧
      ∃ told, told <+: threeFrames ∧ r.recvBuf = [] ∧
        (((Impl.start NodeIdentity.bob).run (Env.sample false) bobListens).parsed
            (Env.sample false) 1 0 linkCalls).map (fun p => p.2.pair) =
          told.map (fun f => some (f.header,f.payload)) := by
  have hopen : (((Impl.start NodeIdentity.bob).run (Env.sample false) bobListens).find 1).any
      (fun r => r.recvBuf.isEmpty) = true := by decide +kernel
  have hend : ((((Impl.start NodeIdentity.bob).run (Env.sample false) bobListens).run
      (Env.sample false) linkCalls).find 1).isSome = true := by decide +kernel
  obtain ⟨r₀,hr₀,hempty⟩ := (Option.any_eq_true _ _).mp hopen
  obtain ⟨r,hr⟩ := Option.isSome_iff_exists.mp hend
  exact ⟨r,hr,tcp_frames_dispatched (Env.sample false) NodeIdentity.bob bobListens linkCalls 1 r₀ r
    linkSteps threeFrames hr₀ (List.isEmpty_iff.mp hempty) (by decide +kernel) (by decide +kernel)
    (by decide +kernel) (by decide +kernel) hr⟩

end GoodNet
