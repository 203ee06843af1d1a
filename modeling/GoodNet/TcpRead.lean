import GoodNet.TcpWrite
import GoodNet.FrameStream
import GoodNet.Lib.HeaderFrames
set_option autoImplicit false

/-! The reading side of `plugins/connectors/tcp/tcp.cpp`. An `async_read` fills `frame_buf` up to
the size it has been given, in as many pieces as the socket makes of it, and its handler decides
what is read next: `start_read_header` and `start_read_body` take turns. -/

namespace GoodNet
open Codec Framing Interleaving

/-- `MAX_PAYLOAD`. -/
def tcpMaxPayload : Nat := 64*1024*1024

/-- What a connector tells the core about one of its connections. -/
inductive ReadNote where
  | data (span : Bytes)
  | disconnect (error : Int)
  deriving DecidableEq, Repr

/-- The error codes `on_read_error` tells apart. -/
inductive ReadError where
  | eof
  | operationAborted
  | other (value : Int)
  deriving DecidableEq, Repr

def ReadError.reported : ReadError → Int
  | .eof => 0
  | .operationAborted => 0
  | .other value => value

inductive ReadPhase where
  | header
  | body (plen : Nat)
  | closed
  deriving DecidableEq, Repr

/-- The size of `frame_buf` in each phase. -/
def ReadPhase.size : ReadPhase → Nat
  | .header => headerSize
  | .body plen => headerSize+plen
  | .closed => 0

/-- `frameBuf` is what has been filled of the buffer, `socket` what has come in and has not been
read; `notes` and `arrived` are the history. -/
structure TcpReader where
  phase : ReadPhase := .header
  frameBuf : Bytes := []
  socket : Bytes := []
  notes : List ReadNote := []
  arrived : Bytes := []
  deriving DecidableEq, Repr

def TcpReader.tell (c : TcpReader) (note : ReadNote) : TcpReader :=
  { c with notes := c.notes ++ [note] }

/-- `notify_data` with the whole buffer, then `start_read_header`. -/
def TcpReader.notifyData (c : TcpReader) : TcpReader :=
  { c.tell (.data c.frameBuf) with phase := .header, frameBuf := [] }

def TcpReader.onProtocolError (c : TcpReader) : TcpReader :=
  { c.tell (.disconnect 1) with phase := .closed }

def TcpReader.onReadError (c : TcpReader) (ec : ReadError) : TcpReader :=
  { c.tell (.disconnect ec.reported) with phase := .closed }

/-- The handler of `start_read_header`. -/
def TcpReader.onHeader (c : TcpReader) : TcpReader :=
  let hdr := Header.decode c.frameBuf
  if hdr.magic ≠ gnetMagic then c.onProtocolError
  else if hdr.protoVer ≠ gnetProtoVer then c.onProtocolError
  else
    let plen := hdr.payloadLen.toNat
    if plen = 0 then c.notifyData
    else if tcpMaxPayload < plen then c.onProtocolError
    else { c with phase := .body plen }

/-- The handler of the `async_read` under way. -/
def TcpReader.completed (c : TcpReader) : TcpReader :=
  match c.phase with
  | .header => c.onHeader
  | .body _ => c.notifyData
  | .closed => c

def TcpReader.room (c : TcpReader) : Nat := c.phase.size-c.frameBuf.length

/-- Up to `n` bytes more go from the socket into the buffer. -/
def TcpReader.fill (c : TcpReader) (n : Nat) : TcpReader :=
  { c with
    frameBuf := c.frameBuf ++ c.socket.take (min n c.room),
    socket := c.socket.drop (min n c.room) }

def TcpReader.readSome (c : TcpReader) (n : Nat) : TcpReader :=
  if (c.fill n).frameBuf.length = c.phase.size then (c.fill n).completed else c.fill n

inductive ReadStep where
  | arrive (segment : Bytes)
  | readSome (n : Nat)
  | fail (ec : ReadError)
  deriving DecidableEq, Repr

def TcpReader.act (c : TcpReader) : ReadStep → TcpReader
  | .arrive segment => { c with socket := c.socket ++ segment, arrived := c.arrived ++ segment }
  | .readSome n => c.readSome n
  | .fail ec => if c.phase = .closed then c else c.onReadError ec

/-- What a step brings in. -/
def ReadStep.segment : ReadStep → Bytes
  | .arrive segment => segment
  | .readSome _ | .fail _ => []

/-- The stream that a run brings in, segment by segment. -/
def arrivedBytes (steps : List ReadStep) : Bytes := steps.flatMap ReadStep.segment

/-- What a header has to say for the reader to go on: the length of the body. -/
def tcpBody (b : Bytes) : Option Nat :=
  if (Header.decode b).magic ≠ gnetMagic then none
  else if (Header.decode b).protoVer ≠ gnetProtoVer then none
  else if tcpMaxPayload < (Header.decode b).payloadLen.toNat then none
  else some (Header.decode b).payloadLen.toNat

def tcpLayout : Layout UInt8 := ⟨headerSize,by decide,tcpBody⟩

theorem tcpLayout_size : tcpLayout.size = headerSize := rfl

theorem tcpLayout_body (b : Bytes) : tcpLayout.body b = tcpBody b := rfl

abbrev tcpScanner : Scanner UInt8 := tcpLayout.scanner

/-- What a stream makes the reader tell the core in the end. -/
def readNotes (stream : Bytes) : List ReadNote :=
  (tcpScanner.cut stream).1.map ReadNote.data ++
    if tcpScanner.look (tcpScanner.cut stream).2 = .bad then [.disconnect 1] else []

/-- Where the reader stands between two frames, and what it has said about it; `errs` are the
errors a read may have failed with. -/
inductive TcpReader.Stands (errs : ReadError → Prop) (c : TcpReader) : List ReadNote → Prop where
  | header (hp : c.phase = .header) (hl : c.frameBuf.length < headerSize) : c.Stands errs []
  | body (plen : Nat) (hp : c.phase = .body plen) (hs : headerSize ≤ c.frameBuf.length)
      (hb : tcpBody (c.frameBuf.take headerSize) = some plen)
      (hl : c.frameBuf.length < headerSize+plen) : c.Stands errs []
  | refused (hp : c.phase = .closed) (hb : tcpScanner.look c.frameBuf = .bad) :
      c.Stands errs [.disconnect 1]
  | failed (ec : ReadError) (he : errs ec) (hp : c.phase = .closed)
      (hb : tcpScanner.look c.frameBuf = .short) : c.Stands errs [.disconnect ec.reported]

/-- Everything read so far is whole frames, each handed on, and a beginning of the next. -/
structure TcpReader.Reads (errs : ReadError → Prop) (c : TcpReader) (units : List Bytes)
    (last : List ReadNote) : Prop where
  whole : ∀ u ∈ units, tcpScanner.look u = .unit u.length
  arrived : c.arrived = units.flatten ++ c.frameBuf ++ c.socket
  notes : c.notes = units.map ReadNote.data ++ last
  stands : c.Stands errs last

section
variable {errs : ReadError → Prop} {c : TcpReader} {units : List Bytes} {last : List ReadNote}

theorem TcpReader.reads_new : ({} : TcpReader).Reads errs [] [] :=
  ⟨by simp,rfl,rfl,.header rfl (by decide)⟩

theorem TcpReader.Stands.stuck (h : c.Stands errs last) : tcpScanner.Stuck c.frameBuf := by
  intro n hn
  cases h with
  | header hp hl => simp [tcpLayout.look_header hl] at hn
  | body plen hp hs hb hl => simp [tcpLayout.look_partial hb hl] at hn
  | refused hp hb => simp [hb] at hn
  | failed ec he hp hb => simp [hb] at hn

theorem tcpBody_decode {b : Bytes} (h : b.length = headerSize) :
    tcpBody (b.take headerSize) = tcpBody b := by
  rw [List.take_of_length_le (by omega)]

theorem TcpReader.fill_length (c : TcpReader) (n : Nat) (h : c.frameBuf.length ≤ c.phase.size) :
    (c.fill n).frameBuf.length ≤ c.phase.size := by
  simp [fill,room]
  omega

theorem TcpReader.fill_arrived (c : TcpReader) (n : Nat) :
    (c.fill n).frameBuf ++ (c.fill n).socket = c.frameBuf ++ c.socket := by
  simp [fill]

/-- The buffer is whole: it is handed on. -/
theorem TcpReader.Reads.notifyData (hw : ∀ u ∈ units, tcpScanner.look u = .unit u.length)
    (ha : c.arrived = units.flatten ++ c.frameBuf ++ c.socket)
    (hn : c.notes = units.map ReadNote.data)
    (hl : tcpScanner.look c.frameBuf = .unit c.frameBuf.length) :
    c.notifyData.Reads errs (units ++ [c.frameBuf]) [] := by
  refine ⟨fun u hu => ?_,?_,?_,.header rfl (by simp [TcpReader.notifyData,headerSize])⟩
  · rcases List.mem_append.mp hu with hu | hu
    · exact hw u hu
    · rw [List.mem_singleton.mp hu]
      exact hl
  · simpa [TcpReader.notifyData,tell] using ha
  · simp [TcpReader.notifyData,tell,hn]

/-- The header is whole: the five ways its handler goes on. -/
theorem TcpReader.Reads.onHeader (hw : ∀ u ∈ units, tcpScanner.look u = .unit u.length)
    (ha : c.arrived = units.flatten ++ c.frameBuf ++ c.socket)
    (hn : c.notes = units.map ReadNote.data) (hl : c.frameBuf.length = headerSize) :
    ∃ units' last', c.onHeader.Reads errs units' last' := by
  have hrefuse : tcpBody c.frameBuf = none →
      c.onProtocolError.Reads errs units [.disconnect 1] := by
    intro hb
    refine ⟨hw,ha,?_,.refused rfl ?_⟩
    · simp [TcpReader.onProtocolError,tell,hn]
    · exact tcpLayout.look_refused (Nat.le_of_eq hl.symm) ((tcpBody_decode hl).trans hb)
  unfold TcpReader.onHeader
  dsimp only
  split
  · rename_i hm
    exact ⟨_,_,hrefuse (by simp [tcpBody,hm])⟩
  · rename_i hm
    split
    · rename_i hv
      exact ⟨_,_,hrefuse (by simp [tcpBody,hv])⟩
    · rename_i hv
      split
      · rename_i hz
        have hb : tcpBody c.frameBuf = some 0 := by
          simp [tcpBody,not_not.mp hm,not_not.mp hv,hz]
        refine ⟨_,_,TcpReader.Reads.notifyData hw ha hn ?_⟩
        rw [hl]
        exact tcpLayout.look_whole ((tcpBody_decode hl).trans hb) (Nat.le_of_eq hl.symm)
      · rename_i hz
        split
        · rename_i hbig
          exact ⟨_,_,hrefuse (by simp [tcpBody,hbig])⟩
        · rename_i hbig
          refine ⟨units,[],hw,ha,by simp [hn],.body _ rfl (Nat.le_of_eq hl.symm) ?_ ?_⟩
          · rw [tcpBody_decode hl]
            simp [tcpBody,not_not.mp hm,not_not.mp hv,hbig]
          · change c.frameBuf.length < _
            omega

theorem TcpReader.readSome_closed (hp : c.phase = .closed) (n : Nat) : c.readSome n = c := by
  cases c
  simp only at hp
  simp [readSome,fill,room,completed,hp,ReadPhase.size]

theorem TcpReader.Reads.readSome (h : c.Reads errs units last) (n : Nat) :
    ∃ units' last', (c.readSome n).Reads errs units' last' := by
  have hsplit := c.fill_arrived n
  have ha : (c.fill n).arrived = units.flatten ++ (c.fill n).frameBuf ++ (c.fill n).socket := by
    rw [List.append_assoc,hsplit,← List.append_assoc]
    exact h.arrived
  have hfilled : ∀ last', c.notes = units.map ReadNote.data ++ last' →
      (c.fill n).Stands errs last' → (c.fill n).Reads errs units last' :=
    fun last' hn hs => ⟨h.whole,ha,hn,hs⟩
  have hnotes := h.notes
  cases h.stands with
  | header hp hl =>
    simp only [List.append_nil] at hnotes
    have hle := c.fill_length n (by simp [hp,ReadPhase.size]; omega)
    unfold TcpReader.readSome
    simp only [hp,ReadPhase.size] at hle ⊢
    split
    · rename_i hfull
      simpa [completed,show (c.fill n).phase = .header from hp] using
        TcpReader.Reads.onHeader h.whole ha hnotes hfull
    · exact ⟨_,_,hfilled [] (by simpa using hnotes) (.header hp (by omega))⟩
  | body plen hp hs hb hl =>
    simp only [List.append_nil] at hnotes
    have hle := c.fill_length n (by simp [hp,ReadPhase.size]; omega)
    have hhead : tcpBody ((c.fill n).frameBuf.take headerSize) = some plen := by
      rw [← hb]
      exact congrArg tcpBody (List.take_append_of_le_length hs)
    have hgrown : headerSize ≤ (c.fill n).frameBuf.length := by
      simp [fill]
      omega
    unfold TcpReader.readSome
    simp only [hp,ReadPhase.size] at hle ⊢
    split
    · rename_i hfull
      have hlook : tcpScanner.look (c.fill n).frameBuf = .unit (c.fill n).frameBuf.length := by
        rw [hfull]
        exact tcpLayout.look_whole hhead (Nat.le_of_eq hfull.symm)
      simpa [completed,show (c.fill n).phase = .body plen from hp] using
        ⟨_,_,TcpReader.Reads.notifyData h.whole ha hnotes hlook⟩
    · exact ⟨_,_,hfilled [] (by simpa using hnotes) (.body plen hp hgrown hhead (by omega))⟩
  | refused hp hb =>
    exact ⟨_,_,(TcpReader.readSome_closed hp n).symm ▸ h⟩
  | failed ec he hp hb =>
    exact ⟨_,_,(TcpReader.readSome_closed hp n).symm ▸ h⟩

theorem TcpReader.Reads.arrive (h : c.Reads errs units last) (segment : Bytes) :
    (c.act (.arrive segment)).Reads errs units last := by
  refine ⟨h.whole,?_,h.notes,?_⟩
  · simp [TcpReader.act,h.arrived]
  · cases h.stands with
    | header hp hl => exact .header hp hl
    | body plen hp hs hb hl => exact .body plen hp hs hb hl
    | refused hp hb => exact .refused hp hb
    | failed ec he hp hb => exact .failed ec he hp hb

theorem TcpReader.Reads.fail (h : c.Reads errs units last) {ec : ReadError} (he : errs ec) :
    ∃ last', (c.act (.fail ec)).Reads errs units last' := by
  have hnotes := h.notes
  have hfail : c.notes = units.map ReadNote.data → tcpScanner.look c.frameBuf = .short →
      (c.onReadError ec).Reads errs units [.disconnect ec.reported] := by
    intro hn hb
    refine ⟨h.whole,h.arrived,?_,.failed ec he rfl hb⟩
    simp [onReadError,tell,hn]
  cases h.stands with
  | header hp hl =>
    simp only [List.append_nil] at hnotes
    simpa [TcpReader.act,hp] using ⟨_,hfail hnotes (tcpLayout.look_header hl)⟩
  | body plen hp hs hb hl =>
    simp only [List.append_nil] at hnotes
    simpa [TcpReader.act,hp] using ⟨_,hfail hnotes (tcpLayout.look_partial hb hl)⟩
  | refused hp hb => simpa [TcpReader.act,hp] using ⟨_,h⟩
  | failed ec' he' hp hb => simpa [TcpReader.act,hp] using ⟨_,h⟩

theorem TcpReader.Reads.act (h : c.Reads errs units last) {a : ReadStep}
    (ha : ∀ ec, a = .fail ec → errs ec) :
    ∃ units' last', (c.act a).Reads errs units' last' := by
  cases a with
  | arrive segment => exact ⟨_,_,h.arrive segment⟩
  | readSome n => exact h.readSome n
  | fail ec => exact ⟨_,h.fail (ha ec rfl)⟩

/-- What has come in is cut where the reader has cut it, and then goes on from its buffer. -/
theorem TcpReader.Reads.cut (h : c.Reads errs units last) :
    (tcpScanner.cut c.arrived).1 = units ++ (tcpScanner.cut (c.frameBuf ++ c.socket)).1 ∧
      (tcpScanner.cut c.arrived).2 = (tcpScanner.cut (c.frameBuf ++ c.socket)).2 := by
  have hread : Cuts tcpScanner (units.flatten ++ c.frameBuf) units c.frameBuf :=
    Cuts.of_units h.whole h.stands.stuck
  have hall := hread.append (tcpScanner.cuts (c.frameBuf ++ c.socket))
  rw [← h.arrived] at hall
  exact (tcpScanner.cuts c.arrived).unique hall

/-- What is still to come follows what has been said already. -/
theorem TcpReader.Reads.notes_prefix (h : c.Reads errs units last) :
    c.notes <+: readNotes c.arrived ∨ ∃ ec, errs ec ∧
      c.notes = units.map ReadNote.data ++ [.disconnect ec.reported] ∧
      units <+: (tcpScanner.cut c.arrived).1 := by
  obtain ⟨hunits,hrest⟩ := h.cut
  have hnotes := h.notes
  unfold readNotes
  rw [hunits,hrest,hnotes]
  cases h.stands with
  | header hp hl => exact Or.inl (by simp)
  | body plen hp hs hb hl => exact Or.inl (by simp)
  | refused hp hb =>
    have hbad := tcpScanner.bad_append hb c.socket
    simp [Scanner.cut_stuck (tcpScanner.stuck_of_bad hbad),hbad]
  | failed ec he hp hb => exact Or.inr ⟨ec,he,rfl,by simp⟩

/-- Nothing is left to read: everything has been said. -/
theorem TcpReader.Reads.notes_drained (h : c.Reads (fun _ => False) units last)
    (hd : c.socket = [] ∨ c.phase = .closed) : c.notes = readNotes c.arrived := by
  obtain ⟨hunits,hrest⟩ := h.cut
  have hnotes := h.notes
  unfold readNotes
  rw [hunits,hrest,hnotes]
  have hstuck := h.stands.stuck
  cases h.stands with
  | header hp hl =>
    have hs : c.socket = [] := by simpa [hp] using hd
    simp [hs,Scanner.cut_stuck hstuck,tcpLayout.look_header hl]
  | body plen hp hs hb hl =>
    have hs : c.socket = [] := by simpa [hp] using hd
    simp [hs,Scanner.cut_stuck hstuck,tcpLayout.look_partial hb hl]
  | refused hp hb =>
    have hbad := tcpScanner.bad_append hb c.socket
    simp [Scanner.cut_stuck (tcpScanner.stuck_of_bad hbad),hbad]
  | failed ec he hp hb => exact he.elim

end

theorem TcpReader.readSome_arrived (c : TcpReader) (n : Nat) :
    (c.readSome n).arrived = c.arrived := by
  simp only [readSome,completed,onHeader]
  split
  · split
    · split
      · rfl
      · split
        · rfl
        · split
          · rfl
          · split <;> rfl
    · rfl
    · rfl
  · rfl

theorem TcpReader.act_arrived (c : TcpReader) (a : ReadStep) :
    (c.act a).arrived = c.arrived ++ a.segment := by
  cases a with
  | arrive segment => rfl
  | readSome n => simp [act,ReadStep.segment,readSome_arrived]
  | fail ec =>
    simp only [act,ReadStep.segment,List.append_nil]
    split <;> rfl

theorem TcpReader.run_arrived (c : TcpReader) (steps : List ReadStep) :
    (Interleaving.run TcpReader.act c steps).arrived = c.arrived ++ arrivedBytes steps := by
  induction steps generalizing c with
  | nil => simp [Interleaving.run,arrivedBytes]
  | cons a steps ih =>
    have hrest := ih (c.act a)
    rw [act_arrived,List.append_assoc] at hrest
    exact hrest

theorem reader_reads (errs : ReadError → Prop) (steps : List ReadStep)
    (he : ∀ ec, .fail ec ∈ steps → errs ec) {c : TcpReader}
    (h : ∃ units last, c.Reads errs units last) :
    ∃ units last, (Interleaving.run TcpReader.act c steps).Reads errs units last := by
  induction steps generalizing c with
  | nil => exact h
  | cons a steps ih =>
    obtain ⟨units,last,h⟩ := h
    exact ih (fun ec hec => he ec (List.mem_cons_of_mem a hec))
      (h.act (fun ec hec => he ec (hec ▸ List.mem_cons_self)))

/-- However the network cuts the stream and however little a read takes from the socket, the core
is told of the frames of the stream one by one, and of its first fault; a read that fails puts
an end to this after some of the frames. Once all has been read, all has been told. -/
theorem tcp_reader_follows_stream (steps : List ReadStep) :
    let c := Interleaving.run TcpReader.act {} steps
    let stream := arrivedBytes steps
    (c.notes <+: readNotes stream ∨ ∃ ec frames, .fail ec ∈ steps ∧
      frames <+: (tcpScanner.cut stream).1 ∧
      c.notes = frames.map ReadNote.data ++ [.disconnect ec.reported]) ∧
    ((∀ ec, .fail ec ∉ steps) → c.socket = [] ∨ c.phase = .closed →
      c.notes = readNotes stream) := by
  dsimp only
  have hstream : (Interleaving.run TcpReader.act {} steps).arrived = arrivedBytes steps :=
    TcpReader.run_arrived {} steps
  rw [← hstream]
  constructor
  · obtain ⟨units,last,h⟩ := reader_reads (fun ec => .fail ec ∈ steps) steps
      (fun ec hec => hec) ⟨_,_,TcpReader.reads_new⟩
    rcases h.notes_prefix with hp | ⟨ec,he,hn,hu⟩
    · exact Or.inl hp
    · exact Or.inr ⟨ec,units,he,hu,hn⟩
  · intro hno hd
    obtain ⟨units,last,h⟩ := reader_reads (fun _ => False) steps
      (fun ec hec => hno ec hec) ⟨_,_,TcpReader.reads_new⟩
    exact h.notes_drained hd

/-- A frame in two segments, the second of which goes on with rubbish. -/
def brokenStream : List ReadStep :=
  let frame := (frameHeader 0 msgTypeChat 2 1).encode ++ [104,105]
  [.arrive (frame.take 7),.readSome 20,.arrive (frame.drop 7 ++ List.replicate 30 9),.readSome 20,
    .readSome 20,.readSome 20,.readSome 20]

theorem tcp_reader_follows_stream_broken :
    let c := Interleaving.run TcpReader.act {} brokenStream
    c.notes = [.data ((frameHeader 0 msgTypeChat 2 1).encode ++ [104,105]),.disconnect 1] ∧
      c.notes = readNotes (arrivedBytes brokenStream) := by
  refine ⟨by decide +kernel,(tcp_reader_follows_stream brokenStream).2 (fun ec => ?_) (.inr ?_)⟩
  · simp [brokenStream]
  · decide +kernel

end GoodNet
