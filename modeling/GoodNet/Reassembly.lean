import GoodNet.FrameStream
import GoodNet.SessionTrace
set_option autoImplicit false

/-! Streams of bytes over whole runs: however a stream is cut into chunks, its frames reach
`dispatch_packet` in order, and what is left of this once the stream has gone wrong. -/

namespace GoodNet
open Codec Framing

/-- The bytes a call brings in for `peer`. -/
def Call.bytesFor (st : Impl) (peer : Nat) : Call → Bytes
  | .event _ => []
  | .data id chunk _ => if st.resolveTransport id = peer then chunk else []

def Call.parsedFor (env : Env) (st : Impl) (peer : Nat) : Call → List Parsed
  | .event _ => []
  | .data id chunk others =>
    if st.resolveTransport id = peer then (st.handleData env id chunk others).2 else []

/-- The stream of a run: all bytes for `peer`, in the order of the calls. -/
def Impl.received (env : Env) (peer : Nat) : Impl → List Call → Bytes
  | _, [] => []
  | st, c :: cs => c.bytesFor st peer ++ received env peer (c.step env st) cs

/-- What a run finds in the stream of `peer`, each time with the number of bytes that have
come in by then; `fed` of them before the run. -/
def Impl.parsed (env : Env) (peer : Nat) : Impl → Nat → List Call → List (Nat × Parsed)
  | _, _, [] => []
  | st, fed, c :: cs =>
    (c.parsedFor env st peer).map (fun p => (fed+(c.bytesFor st peer).length,p)) ++
      parsed env peer (c.step env st) (fed+(c.bytesFor st peer).length) cs

/-- A condition on every call of a run and the state that it meets. -/
def Impl.throughout (env : Env) (ok : Impl → Call → Bool) : Impl → List Call → Bool
  | _, [] => true
  | st, c :: cs => ok st c && throughout env ok (c.step env st) cs

/-- No other `handle_data` works on `peer` while this call runs. -/
def Call.foreign (peer : Nat) : Call → Bool
  | .event e => e.foreign peer
  | .data _ _ others => others.flatten.all (Event.foreign peer)

section
variable {env : Env} {peer : Nat} {st st' : Impl} {r r' : ConnectionRecord}

theorem Tick.present (h : Tick env st st') (hp : peer < st.nextId) :
    st.nextId ≤ st'.nextId ∧
      ∀ r', st'.find peer = some r' → ∃ r, st.find peer = some r := by
  cases h with
  | micro h =>
    have hu : Undisturbed peer st st' := h.undisturbed hp
    refine ⟨hu.nextId,fun r' hr' => ?_⟩
    obtain ⟨r,hr,_⟩ := hu.buffer r' hr'
    exact ⟨r,hr⟩
  | buffer id bytes =>
    refine ⟨Nat.le_refl _,fun r' hr' => ?_⟩
    obtain ⟨r,hr,_⟩ := Impl.find_modify_some hr'
    exact ⟨r,hr⟩

/-- A record that is there in the end was there all along. -/
theorem Ticks.present (h : Ticks env st st') (hp : peer < st.nextId) :
    st.nextId ≤ st'.nextId ∧
      ∀ r', st'.find peer = some r' → ∃ r, st.find peer = some r := by
  induction h with
  | refl => exact ⟨Nat.le_refl _,fun r' hr' => ⟨r',hr'⟩⟩
  | tail _ hs ih =>
    obtain ⟨hn,hback⟩ := hs.present (Nat.lt_of_lt_of_le hp ih.1)
    refine ⟨Nat.le_trans ih.1 hn,fun r' hr' => ?_⟩
    obtain ⟨r₁,hr₁⟩ := hback r' hr'
    exact ih.2 r₁ hr₁

/-- A call has nothing to do with the stream of `peer`, or brings a chunk of it. -/
theorem Call.stream_cases {c : Call} (hf : c.foreign peer = true) (hp : peer < st.nextId) :
    (c.bytesFor st peer = [] ∧ c.parsedFor env st peer = [] ∧
      Undisturbed peer st (c.step env st)) ∨
    ∃ id chunk others, c = .data id chunk others ∧ st.resolveTransport id = peer ∧
      ∀ e ∈ others.flatten, e.foreign peer = true := by
  cases c with
  | event e => exact Or.inl ⟨rfl,rfl,Event.undisturbed hf hp⟩
  | data id chunk others =>
    have hothers : ∀ e ∈ others.flatten, e.foreign peer = true := List.all_eq_true.mp hf
    by_cases hid : st.resolveTransport id = peer
    · exact Or.inr ⟨id,chunk,others,rfl,hid,hothers⟩
    · refine Or.inl ⟨if_neg hid,if_neg hid,?_⟩
      obtain ⟨events,h,he⟩ := st.handleData_events env id chunk others
      show Undisturbed peer st (st.handleData env id chunk others).1
      rw [h]
      refine Impl.perform_undisturbed (fun e hm => ?_) hp
      rcases he e hm with hc | hm
      · simp [Event.foreign,hc,hid]
      · exact hothers e hm

theorem Call.bytesFor_chunk {id : Nat} (chunk : Bytes) (others : List (List Event))
    (hid : st.resolveTransport id = peer) :
    Call.bytesFor st peer (.data id chunk others) = chunk := if_pos hid

theorem Call.parsedFor_chunk {id : Nat} {chunk : Bytes} (others : List (List Event))
    (hid : st.resolveTransport id = peer) : Call.parsedFor env st peer (.data id chunk others) =
      (st.handleData env id chunk others).2 := if_pos hid

def Parsed.pair : Parsed → Option (Header × Bytes)
  | .frame _ hdr payload => some (hdr,payload)
  | .error _ => none

def unitPair (u : Bytes) : Option (Header × Bytes) := some (Header.decode u,u.drop headerSize)

theorem parsedFrames_pairs (rest : Bytes) (us : List Bytes) :
    (parsedFrames rest us).map Parsed.pair = us.map unitPair := by
  induction us with
  | nil => rfl
  | cons u us ih =>
    rw [parsedFrames,List.map_cons,ih]
    rfl

/-- No shutdown has begun and the bytes kept back stay within their limit. -/
def Call.smooth (peer : Nat) (st : Impl) (c : Call) : Bool :=
  c.foreign peer &&
    match c with
    | .event _ => true
    | .data id chunk _ => st.resolveTransport id != peer || !st.shuttingDown &&
        (st.find peer).all (fun r =>
          isWholeFrame r chunk || decide ((r.recvBuf ++ chunk).length ≤ maxRecvBuf))

/-- The stream breaks off inside a valid frame at worst. -/
def Sane (stream : Bytes) : Prop :=
  ∀ a c, a ++ c = stream → ∀ us rest, Cuts frameScanner a us rest → lookFrame rest ≠ .bad

/-- A smooth call on a sane stream dispatches what its chunk completes, and keeps the rest. -/
theorem Call.smooth_chunk {id : Nat} {chunk : Bytes} {others : List (List Event)}
    (hok : Call.smooth peer st (.data id chunk others) = true)
    (hid : st.resolveTransport id = peer) (hp : peer < st.nextId) (hr : st.find peer = some r)
    (hr' : (st.handleData env id chunk others).1.find peer = some r')
    (hsane : ∀ us rest, Cuts frameScanner (r.recvBuf ++ chunk) us rest → lookFrame rest ≠ .bad) :
    ∃ us, Cuts frameScanner (r.recvBuf ++ chunk) us r'.recvBuf ∧
      (st.handleData env id chunk others).2.map Parsed.pair = us.map unitPair := by
  simp only [smooth,foreign,hid,hr,bne_self_eq_false,Bool.false_or,Bool.and_eq_true,
    Bool.not_eq_true',Option.all_some,Bool.or_eq_true,decide_eq_true_eq] at hok
  obtain ⟨hf,hs,hfits⟩ := hok
  rcases Impl.handleData_cases env chunk hp hs hid hr (List.all_eq_true.mp hf) with
    ⟨hw,hbig,_⟩ | ⟨_,us,rest,hcut,hend⟩
  · rw [hw] at hfits
    rcases hfits with h | h
    · cases h
    · omega
  · have hgood := hsane us rest hcut
    have hbuf := hend.buffer r' hr'
    rw [leftover,if_neg hgood] at hbuf
    refine ⟨us,hbuf ▸ hcut,?_⟩
    rcases hend.parsed with h | ⟨hn,_⟩
    · rw [h,parsedEnd,if_neg hgood,List.append_nil,parsedFrames_pairs]
    · rw [hn] at hr'
      cases hr'

theorem Call.smooth_foreign {c : Call} (h : c.smooth peer st = true) : c.foreign peer = true :=
  (Bool.and_eq_true_iff.mp h).1

/-- By induction on the calls: the stream so far is cut into what has been dispatched and
what is in the buffer. -/
theorem Impl.run_reassembles {calls : List Call} {before : Bytes} {us : List Bytes} (fed : Nat)
    (hp : peer < st.nextId) (hr : st.find peer = some r)
    (hr' : (st.run env calls).find peer = some r')
    (hok : st.throughout env (Call.smooth peer) calls = true)
    (hcut : Cuts frameScanner before us r.recvBuf)
    (hsane : Sane (before ++ st.received env peer calls)) :
    ∃ vs, Cuts frameScanner (before ++ st.received env peer calls) (us ++ vs) r'.recvBuf ∧
      (st.parsed env peer fed calls).map (fun p => p.2.pair) = vs.map unitPair := by
  induction calls generalizing st r before us fed with
  | nil =>
    have hsame : some r = some r' := hr.symm.trans hr'
    cases hsame
    exact ⟨[],by simpa [received] using hcut,rfl⟩
  | cons c cs ih =>
    obtain ⟨hnow,hlater⟩ := Bool.and_eq_true_iff.mp hok
    obtain ⟨hn,_⟩ := (Call.step_ticks st c : Ticks env st _).present hp
    have hp₁ := Nat.lt_of_lt_of_le hp hn
    obtain ⟨r₁,hr₁⟩ := ((run_ticks (c.step env st) cs).present hp₁).2 r' hr'
    simp only [received] at hsane ⊢
    rcases Call.stream_cases (Call.smooth_foreign hnow) hp with
      ⟨hb,hq,hu⟩ | ⟨id,chunk,others,rfl,hid,hf⟩
    · have hsame := hu.present hr hr₁
      rw [hb,List.nil_append] at hsane ⊢
      simp only [parsed,hb,hq,List.map_nil,List.nil_append]
      exact ih _ hp₁ hr₁ hr' hlater (hsame ▸ hcut) hsane
    · have hb := Call.bytesFor_chunk chunk others hid
      rw [hb,← List.append_assoc] at hsane ⊢
      obtain ⟨ws,hws,hpairs⟩ := Call.smooth_chunk hnow hid hp hr hr₁
        (fun vs rest hvs => hsane _ _ rfl _ rest (hcut.append hvs))
      obtain ⟨vs,hvs,hrest⟩ := ih (fed+chunk.length) hp₁ hr₁ hr' hlater (hcut.append hws) hsane
      refine ⟨ws ++ vs,by rwa [← List.append_assoc],?_⟩
      simp only [parsed,hb,Call.parsedFor_chunk others hid,List.map_append,List.map_map]
      rw [hrest,← hpairs]
      rfl

def wires (frames : List Frame) : Bytes := (frames.map Frame.wire).flatten

theorem cuts_wires {frames : List Frame} (hv : ∀ f ∈ frames, f.Valid) :
    Cuts frameScanner (wires frames) (frames.map Frame.wire) [] := by
  have hstuck : frameScanner.Stuck [] := fun n hn => by cases hn
  have hcut : Cuts frameScanner ((frames.map Frame.wire).flatten ++ []) (frames.map Frame.wire) [] := by
    refine Cuts.of_units (fun u hu => ?_) hstuck
    obtain ⟨f,hf,rfl⟩ := List.mem_map.mp hu
    exact f.look_wire (hv f hf)
  rwa [List.append_nil] at hcut

theorem sane_of_frames {frames : List Frame} {stream missing : Bytes}
    (hv : ∀ f ∈ frames, f.Valid) (hs : stream ++ missing = wires frames) : Sane stream := by
  intro a c hac us rest hcut hbad
  have hlong := hcut.bad_append hbad (c ++ missing)
  rw [← List.append_assoc,hac,hs] at hlong
  have hnone := (hlong.unique (cuts_wires hv)).2
  obtain ⟨rfl,_⟩ := List.append_eq_nil_iff.mp hnone
  cases hbad

theorem unitPair_wire (f : Frame) : unitPair f.wire = some (f.header,f.payload) := by
  have hd : Header.decode f.wire = f.header := Header.decode_encode f.header f.payload
  have hp : f.wire.drop headerSize = f.payload := by
    unfold Frame.wire
    rw [← f.header.encode_length,List.drop_left]
  unfold unitPair
  rw [hd,hp]

/-- Frames of which a stuck buffer holds the beginning: the first is not complete there. -/
theorem todo_incomplete {todo : List Frame} {buf missing : Bytes} (hv : ∀ f ∈ todo, f.Valid)
    (hs : frameScanner.Stuck buf) (hb : buf ++ missing = wires todo) :
    ∀ f ∈ todo.head?, buf.length < f.total := by
  intro f hf
  cases todo with
  | nil => cases hf
  | cons g todo =>
    cases hf
    by_contra hlen
    have hle : f.wire.length ≤ buf.length := by
      rw [Frame.wire_length]
      exact Nat.le_of_not_lt hlen
    have hb' : buf ++ missing = f.wire ++ wires todo := hb
    have htake : buf.take f.wire.length = f.wire := by
      have := congrArg (List.take f.wire.length) hb'
      rwa [List.take_append_of_le_length hle,List.take_left] at this
    have hlook := frameScanner.unit_append (f.look_wire (hv f List.mem_cons_self))
      (buf.drop f.wire.length)
    nth_rewrite 1 [← htake] at hlook
    rw [List.take_append_drop] at hlook
    exact hs _ hlook

/-- What has been cut off a stream of frames is the first of them, and the remainder is the
beginning of the next. -/
theorem frames_of_cuts {frames : List Frame} {stream missing rest : Bytes} {vs : List Bytes}
    (hv : ∀ f ∈ frames, f.Valid) (hstream : stream ++ missing = wires frames)
    (hcut : Cuts frameScanner stream vs rest) :
    ∃ done todo, frames = done ++ todo ∧
      vs.map unitPair = done.map (fun f => some (f.header,f.payload)) ∧
      stream = wires done ++ rest ∧ (∀ f ∈ todo.head?, rest.length < f.total) ∧
      (missing = [] → todo = []) := by
  -- whatever the missing bytes bring, the units found so far are the first of the frames
  have hall := hcut.append (frameScanner.cuts (rest ++ missing))
  rw [hstream] at hall
  obtain ⟨done,todo,rfl,rfl,htodo⟩ := List.map_eq_append_iff.mp (hall.unique (cuts_wires hv)).1.symm
  have hrest : rest ++ missing = wires todo := by
    have hsplit := hcut.flatten
    rw [← hsplit,List.append_assoc] at hstream
    simpa [wires] using hstream
  have hnext := todo_incomplete (fun f hf => hv f (List.mem_append_right done hf)) hcut.stuck hrest
  refine ⟨done,todo,rfl,?_,hcut.flatten.symm,hnext,fun hm => ?_⟩
  · rw [List.map_map]
    exact List.map_congr_left (fun f _ => unitPair_wire f)
  · cases todo with
    | nil => rfl
    | cons f todo =>
      have hlen := hnext f rfl
      rw [hm,List.append_nil] at hrest
      rw [hrest] at hlen
      simp [wires] at hlen

/-- Any valid frames, cut into chunks in any way: what reaches `dispatch_packet` is the
frames that have come in completely, in order and each once, and the buffer holds the rest. -/
theorem frames_reassembled (env : Env) (identity : NodeIdentity) (opening calls : List Call)
    (peer : Nat) (r₀ r : ConnectionRecord) (frames : List Frame) (missing : Bytes)
    (hopen : ((Impl.start identity).run env opening).find peer = some r₀)
    (hempty : r₀.recvBuf = []) (hv : ∀ f ∈ frames, f.Valid)
    (hstream : ((Impl.start identity).run env opening).received env peer calls ++ missing =
      wires frames)
    (hok : ((Impl.start identity).run env opening).throughout env (Call.smooth peer) calls = true)
    (hr : (((Impl.start identity).run env opening).run env calls).find peer = some r) :
    ∃ done todo, frames = done ++ todo ∧
      (((Impl.start identity).run env opening).parsed env peer 0 calls).map (fun p => p.2.pair) =
        done.map (fun f => some (f.header,f.payload)) ∧
      ((Impl.start identity).run env opening).received env peer calls = wires done ++ r.recvBuf ∧
      (∀ f ∈ todo.head?, r.recvBuf.length < f.total) ∧ (missing = [] → todo = []) := by
  have hp := (run_sound env identity opening).fresh peer r₀ hopen
  generalize (Impl.start identity).run env opening = st at *
  have hstart : Cuts frameScanner [] [] r₀.recvBuf := by
    rw [hempty]
    exact .stop (fun n hn => by cases hn)
  obtain ⟨vs,hcut,hpairs⟩ := Impl.run_reassembles 0 hp hopen hr hok hstart
    (sane_of_frames hv (by simpa using hstream))
  simp only [List.nil_append] at hcut
  obtain ⟨done,todo,hsplit,hdone,hreceived,hnext,hlast⟩ := frames_of_cuts hv hstream hcut
  exact ⟨done,todo,hsplit,hpairs.trans hdone,hreceived,hnext,hlast⟩

end

def Frame.sample (packetId : UInt64) (payload : Bytes) (h : payload.length < 2^32) : Frame where
  header := frameHeader 0 msgTypeChat payload.length packetId
  payload := payload
  length_eq := by
    unfold frameHeader
    exact (UInt32.toNat_ofNat_of_lt h).symm

theorem three_bytes_fit : ([1,2,3] : Bytes).length < 2^32 := by decide

/-- A connection that has said nothing yet. -/
def bobListens : List Call := [.tcp,.event (.connected (Endpoint.sample "a" 0))]

def threeFrames : List Frame :=
  [Frame.sample 1 [1,2,3] three_bytes_fit,Frame.sample 2 [] (by decide),Frame.sample 3 [4] (by decide)]

/-- The first frame comes alone, the second in two pieces, the third not to its end. -/
def threeChunks : List Call :=
  [.data 1 ((wires threeFrames).take 23) [],.data 1 (((wires threeFrames).drop 23).take 7) [],
    .data 1 (((wires threeFrames).drop 30).take 18) []]

set_option maxRecDepth 10000 in
theorem frames_reassembled_pieces :
    ∃ r, (((Impl.start NodeIdentity.bob).run (Env.sample false) bobListens).run
        (Env.sample false) threeChunks).find 1 = some r ∧
      ∃ done todo, threeFrames = done ++ todo ∧
        (((Impl.start NodeIdentity.bob).run (Env.sample false) bobListens).parsed
            (Env.sample false) 1 0 threeChunks).map (fun p => p.2.pair) =
          done.map (fun f => some (f.header,f.payload)) ∧
        ((Impl.start NodeIdentity.bob).run (Env.sample false) bobListens).received
          (Env.sample false) 1 threeChunks = wires done ++ r.recvBuf := by
  have hopen : (((Impl.start NodeIdentity.bob).run (Env.sample false) bobListens).find 1).any
      (fun r => r.recvBuf.isEmpty) = true := by decide +kernel
  have hend : ((((Impl.start NodeIdentity.bob).run (Env.sample false) bobListens).run
      (Env.sample false) threeChunks).find 1).isSome = true := by decide +kernel
  obtain ⟨r₀,hr₀,hempty⟩ := (Option.any_eq_true _ _).mp hopen
  obtain ⟨r,hr⟩ := Option.isSome_iff_exists.mp hend
  obtain ⟨done,todo,hsplit,hpairs,hrest,_⟩ := frames_reassembled (Env.sample false)
    NodeIdentity.bob bobListens threeChunks 1 r₀ r threeFrames ((wires threeFrames).drop 48)
    hr₀ (List.isEmpty_iff.mp hempty) (by decide +kernel) (by decide +kernel) (by decide +kernel) hr
  exact ⟨r,hr,done,todo,hsplit,hpairs,hrest⟩

end GoodNet
