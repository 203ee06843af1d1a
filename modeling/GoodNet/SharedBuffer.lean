import GoodNet.Reassembly
set_option autoImplicit false

/-! Several transports of one peer. `handle_data` resolves each of them to the same record
before it looks at the bytes, so their streams meet in one receive buffer. -/

namespace GoodNet
open Codec Framing

/-- The transport on which a call brings in bytes for `peer`. -/
def Call.transportFor (st : Impl) (peer : Nat) : Call → Option Nat
  | .event _ => none
  | .data id _ _ => if st.resolveTransport id = peer then some id else none

/-- The stream of one transport. -/
def Impl.receivedFrom (env : Env) (peer transport : Nat) : Impl → List Call → Bytes
  | _, [] => []
  | st, c :: cs =>
    (if c.transportFor st peer = some transport then c.bytesFor st peer else []) ++
      receivedFrom env peer transport (c.step env st) cs

/-- What a run finds for `peer`, each time with the transport that brought the chunk. -/
def Impl.dispatched (env : Env) (peer : Nat) : Impl → List Call → List (Option Nat × Parsed)
  | _, [] => []
  | st, c :: cs =>
    (c.parsedFor env st peer).map (fun p => (c.transportFor st peer,p)) ++
      dispatched env peer (c.step env st) cs

/-- The part of it that belongs to one transport, in its order. -/
def Impl.dispatchedFrom (env : Env) (peer transport : Nat) (st : Impl) (calls : List Call) :
    List Parsed :=
  ((st.dispatched env peer calls).filter (fun d => d.1 == some transport)).map Prod.snd

/-- A chunk comes in only when nothing is buffered or the bytes buffered are of its own
transport; `last` brought in the chunk before. -/
def Impl.unmixed (env : Env) (peer : Nat) : Option Nat → Impl → List Call → Bool
  | _, _, [] => true
  | last, st, c :: cs =>
    match c.transportFor st peer with
    | none => unmixed env peer last (c.step env st) cs
    | some transport =>
      ((st.find peer).all (fun r => r.recvBuf.isEmpty) || last == some transport) &&
        unmixed env peer (some transport) (c.step env st) cs

/-- One transport's share of a run: its frames in order and each once, as far as they have
come in completely, and nothing else. -/
def Impl.Reassembled (env : Env) (peer transport : Nat) (st : Impl) (calls : List Call)
    (frames : List Frame) : Prop :=
  ∃ done todo rest, frames = done ++ todo ∧
    (st.dispatchedFrom env peer transport calls).map Parsed.pair =
      done.map (fun f => some (f.header,f.payload)) ∧
    st.receivedFrom env peer transport calls = wires done ++ rest ∧
    ∀ f ∈ todo.head?, rest.length < f.total

section
variable {env : Env} {peer : Nat} {st st' : Impl} {r r' : ConnectionRecord}

theorem Impl.dispatchedFrom_cons (st : Impl) (transport : Nat) (c : Call) (cs : List Call) :
    st.dispatchedFrom env peer transport (c :: cs) =
      (if c.transportFor st peer = some transport then c.parsedFor env st peer else []) ++
        (c.step env st).dispatchedFrom env peer transport cs := by
  unfold dispatchedFrom
  rw [dispatched,List.filter_append,List.map_append]
  congr 1
  by_cases h : c.transportFor st peer = some transport
  · rw [if_pos h,h,List.filter_map]
    simp [Function.comp_def]
  · rw [if_neg h,List.filter_map]
    simp [Function.comp_def,h]

theorem Call.transportFor_foreign {c : Call} (h : c.transportFor st peer = none) :
    c.bytesFor st peer = [] ∧ c.parsedFor env st peer = [] := by
  cases c with
  | event e => exact ⟨rfl,rfl⟩
  | data id chunk others =>
    have hid : ¬ st.resolveTransport id = peer := by
      intro hid
      simp [transportFor,hid] at h
    exact ⟨if_neg hid,if_neg hid⟩

theorem Call.transportFor_some {c : Call} {transport : Nat}
    (h : c.transportFor st peer = some transport) :
    ∃ chunk others, c = .data transport chunk others ∧ st.resolveTransport transport = peer := by
  cases c with
  | event e => cases h
  | data id chunk others =>
    by_cases hid : st.resolveTransport id = peer
    · have hsame : id = transport := by simpa [transportFor,hid] using h
      rw [← hsame]
      exact ⟨chunk,others,rfl,hid⟩
    · simp [transportFor,hid] at h

theorem Impl.dispatched_transport (st : Impl) (calls : List Call) :
    ∀ d ∈ st.dispatched env peer calls, ∃ t, d.1 = some t := by
  induction calls generalizing st with
  | nil =>
    intro d hd
    cases hd
  | cons c cs ih =>
    intro d hd
    rcases List.mem_append.mp hd with hd | hd
    · obtain ⟨p,hp,rfl⟩ := List.mem_map.mp hd
      cases htr : c.transportFor st peer with
      | none =>
        rw [(Call.transportFor_foreign htr).2] at hp
        cases hp
      | some t => exact ⟨t,rfl⟩
    · exact ih _ d hd

/-- By induction on the calls: the stream of each transport is cut into what has been
dispatched of it and a remainder, which is in the buffer if the transport was the last to
bring bytes and empty else. -/
theorem Impl.run_merges {calls : List Call} {before : Nat → Bytes} {us : Nat → List Bytes}
    {last : Option Nat} (hp : peer < st.nextId) (hr : st.find peer = some r)
    (hr' : (st.run env calls).find peer = some r')
    (hok : st.throughout env (Call.smooth peer) calls = true)
    (hmix : st.unmixed env peer last calls = true)
    (hnone : last = none → r.recvBuf = [])
    (hcut : ∀ t, Cuts frameScanner (before t) (us t) (if last = some t then r.recvBuf else []))
    (hsane : ∀ t, Sane (before t ++ st.receivedFrom env peer t calls)) :
    ∃ (vs : Nat → List Bytes) (rest : Nat → Bytes), ∀ t,
      Cuts frameScanner (before t ++ st.receivedFrom env peer t calls) (us t ++ vs t) (rest t) ∧
      (st.dispatchedFrom env peer t calls).map Parsed.pair = (vs t).map unitPair := by
  induction calls generalizing st r before us last with
  | nil =>
    refine ⟨fun _ => [],fun t => if last = some t then r.recvBuf else [],fun t => ⟨?_,rfl⟩⟩
    simpa [receivedFrom] using hcut t
  | cons c cs ih =>
    obtain ⟨hnow,hlater⟩ := Bool.and_eq_true_iff.mp hok
    obtain ⟨hn,_⟩ := (Call.step_ticks st c : Ticks env st _).present hp
    have hp₁ := Nat.lt_of_lt_of_le hp hn
    obtain ⟨r₁,hr₁⟩ := ((run_ticks (c.step env st) cs).present hp₁).2 r' hr'
    cases htr : c.transportFor st peer with
    | none =>
      have hu : Undisturbed peer st (c.step env st) := by
        rcases Call.stream_cases (Call.smooth_foreign hnow) hp with
          ⟨_,_,hu⟩ | ⟨id,chunk,others,rfl,hid,_⟩
        · exact hu
        · simp [Call.transportFor,hid] at htr
      have hsame := hu.present hr hr₁
      simp only [unmixed,htr] at hmix
      simp only [receivedFrom,htr,reduceCtorEq,ite_false,List.nil_append,dispatchedFrom_cons] at hsane ⊢
      exact ih hp₁ hr₁ hr' hlater hmix (fun hl => hsame.trans (hnone hl))
        (fun t => hsame ▸ hcut t) hsane
    | some transport =>
      obtain ⟨chunk,others,rfl,hid⟩ := Call.transportFor_some htr
      simp only [unmixed,htr,hr,Option.all_some,Bool.and_eq_true,Bool.or_eq_true,
        List.isEmpty_iff,beq_iff_eq] at hmix
      obtain ⟨hown,hmix⟩ := hmix
      have hbytes := Call.bytesFor_chunk chunk others hid
      have hmine : Cuts frameScanner (before transport) (us transport) r.recvBuf := by
        have h := hcut transport
        split at h
        · exact h
        · rename_i hl
          rwa [hown.resolve_right hl]
      simp only [receivedFrom,htr,hbytes,dispatchedFrom_cons,Call.parsedFor_chunk others hid]
        at hsane ⊢
      have hpiece := hsane transport
      rw [if_pos rfl,← List.append_assoc] at hpiece
      obtain ⟨ws,hws,hpairs⟩ := Call.smooth_chunk hnow hid hp hr hr₁
        (fun vs rest hvs => hpiece _ _ rfl _ rest (hmine.append hvs))
      have hnext : ∀ t, Cuts frameScanner
          (before t ++ if some transport = some t then chunk else [])
          (us t ++ if some transport = some t then ws else [])
          (if some transport = some t then r₁.recvBuf else []) := by
        intro t
        by_cases ht : some transport = some t
        · rw [if_pos ht,if_pos ht,if_pos ht,← Option.some.inj ht]
          exact hmine.append hws
        · rw [if_neg ht,if_neg ht,if_neg ht,List.append_nil,List.append_nil]
          have hother := hcut t
          split at hother
          · rename_i hl
            rw [hl] at hown
            rwa [hown.resolve_right (fun h => ht h.symm)] at hother
          · exact hother
      obtain ⟨vs,rest,hall⟩ := ih hp₁ hr₁ hr' hlater hmix (fun hl => by cases hl) hnext
        (fun t => by rw [List.append_assoc]; exact hsane t)
      refine ⟨fun t => (if some transport = some t then ws else []) ++ vs t,rest,fun t => ?_⟩
      obtain ⟨hfound,htail⟩ := hall t
      rw [List.append_assoc,List.append_assoc] at hfound
      refine ⟨hfound,?_⟩
      rw [List.map_append,List.map_append,htail]
      congr 1
      by_cases ht : some transport = some t
      · rw [if_pos ht,if_pos ht]
        exact hpairs
      · rw [if_neg ht,if_neg ht]
        rfl

/-- The streams of the transports of a peer, each of valid frames cut anywhere, come in
interleaved. If no chunk meets bytes of another transport in the buffer, every transport's
frames are dispatched as if it were the only one. -/
theorem streams_merged (env : Env) (identity : NodeIdentity) (opening calls : List Call)
    (peer : Nat) (r₀ r : ConnectionRecord) (frames : Nat → List Frame) (missing : Nat → Bytes)
    (hopen : ((Impl.start identity).run env opening).find peer = some r₀)
    (hempty : r₀.recvBuf = []) (hv : ∀ t, ∀ f ∈ frames t, f.Valid)
    (hstream : ∀ t, ((Impl.start identity).run env opening).receivedFrom env peer t calls ++
      missing t = wires (frames t))
    (hok : ((Impl.start identity).run env opening).throughout env (Call.smooth peer) calls = true)
    (hmix : ((Impl.start identity).run env opening).unmixed env peer none calls = true)
    (hr : (((Impl.start identity).run env opening).run env calls).find peer = some r) :
    (∀ d ∈ ((Impl.start identity).run env opening).dispatched env peer calls,
      ∃ t, d.1 = some t) ∧
    ∀ t, ((Impl.start identity).run env opening).Reassembled env peer t calls (frames t) := by
  have hp := (run_sound env identity opening).fresh peer r₀ hopen
  generalize (Impl.start identity).run env opening = st at *
  refine ⟨Impl.dispatched_transport st calls,fun t => ?_⟩
  have hstart : ∀ t : Nat, Cuts frameScanner [] [] (if none = some t then r₀.recvBuf else []) :=
    fun t => .stop (fun n hn => by cases hn)
  obtain ⟨vs,rest,hall⟩ := Impl.run_merges hp hopen hr hok hmix (fun _ => hempty) hstart
    (fun t => sane_of_frames (hv t) (by simpa using hstream t))
  obtain ⟨hcut,hpairs⟩ := hall t
  rw [List.nil_append,List.nil_append] at hcut
  obtain ⟨done,todo,hsplit,hdone,hreceived,hnext,_⟩ := frames_of_cuts (hv t) (hstream t) hcut
  exact ⟨done,todo,rest t,hsplit,hpairs.trans hdone,hreceived,hnext⟩

end

/-- A transport on which nothing comes in has an empty stream. -/
theorem Impl.receivedFrom_silent {env : Env} {peer transport : Nat} {calls : List Call}
    (h : ∀ c ∈ calls, ∀ chunk others, c ≠ .data transport chunk others) (st : Impl) :
    st.receivedFrom env peer transport calls = [] := by
  induction calls generalizing st with
  | nil => rfl
  | cons c cs ih =>
    have htr : ¬ c.transportFor st peer = some transport := by
      intro htr
      obtain ⟨chunk,others,hc,_⟩ := Call.transportFor_some htr
      exact h c List.mem_cons_self chunk others hc
    rw [receivedFrom,if_neg htr,List.nil_append]
    exact ih (fun d hd => h d (List.mem_cons_of_mem c hd)) _

/-- The responder of the sample exchange gets a second transport to the initiator, 2. -/
def bobHasTwoTransports : List Call := bobConfirms ++
  [.event (.addTransport (bytesToHex NodeIdentity.alice.userPubkey.bytes)
    (Endpoint.sample "c" 0) "ws")]

def onFirst : Frame := Frame.sample 5 [1,2,3] three_bytes_fit
def onSecond : Frame := Frame.sample 6 [4] (Nat.le_of_ble_eq_true rfl)

/-- The frame of each transport; there are no others. -/
def twoStreams (transport : Nat) : List Frame :=
  if transport = 1 then [onFirst] else if transport = 2 then [onSecond] else []

/-- The first transport finishes its frame before the second one begins. -/
def takeTurns : List Call :=
  [.data 1 (onFirst.wire.take 10) [],.data 1 (onFirst.wire.drop 10) [],.data 2 onSecond.wire []]

set_option maxRecDepth 10000 in
theorem streams_merged_turns :
    ((Impl.start NodeIdentity.bob).run (Env.sample false) bobHasTwoTransports).Reassembled
      (Env.sample false) 1 2 takeTurns [onSecond] := by
  -- the run is evaluated once for everything that is read off it
  obtain ⟨hopen,hend,hfirst,hsecond,hok,hmix⟩ :
      (((Impl.start NodeIdentity.bob).run (Env.sample false) bobHasTwoTransports).find 1).any
        (fun r => r.recvBuf.isEmpty) = true ∧
      ((((Impl.start NodeIdentity.bob).run (Env.sample false) bobHasTwoTransports).run
        (Env.sample false) takeTurns).find 1).isSome = true ∧
      ((Impl.start NodeIdentity.bob).run (Env.sample false) bobHasTwoTransports).receivedFrom
        (Env.sample false) 1 1 takeTurns ++ [] = wires (twoStreams 1) ∧
      ((Impl.start NodeIdentity.bob).run (Env.sample false) bobHasTwoTransports).receivedFrom
        (Env.sample false) 1 2 takeTurns ++ [] = wires (twoStreams 2) ∧
      ((Impl.start NodeIdentity.bob).run (Env.sample false) bobHasTwoTransports).throughout
        (Env.sample false) (Call.smooth 1) takeTurns = true ∧
      ((Impl.start NodeIdentity.bob).run (Env.sample false) bobHasTwoTransports).unmixed
        (Env.sample false) 1 none takeTurns = true := by
    decide +kernel
  obtain ⟨r₀,hr₀,hempty⟩ := (Option.any_eq_true _ _).mp hopen
  obtain ⟨r,hr⟩ := Option.isSome_iff_exists.mp hend
  have hv : ∀ t, ∀ f ∈ twoStreams t, f.Valid := by
    intro t f hf
    unfold twoStreams at hf
    split at hf
    · rw [List.mem_singleton.mp hf]
      decide
    · split at hf
      · rw [List.mem_singleton.mp hf]
        decide
      · cases hf
  have hstream : ∀ t, ((Impl.start NodeIdentity.bob).run (Env.sample false)
      bobHasTwoTransports).receivedFrom (Env.sample false) 1 t takeTurns ++ [] =
        wires (twoStreams t) := by
    intro t
    by_cases h1 : t = 1
    · rw [h1]
      exact hfirst
    · by_cases h2 : t = 2
      · rw [h2]
        exact hsecond
      · rw [Impl.receivedFrom_silent (by simp [takeTurns,h1,h2,eq_comm])]
        simp [twoStreams,h1,h2,wires]
  have hall := (streams_merged (Env.sample false) NodeIdentity.bob bobHasTwoTransports takeTurns 1 r₀ r
    twoStreams (fun _ => []) hr₀ (List.isEmpty_iff.mp hempty) hv hstream hok hmix hr).2 2
  exact hall

/-- The second transport's frame comes in the middle of the first one's. -/
def crossChunks : List Call :=
  [.data 1 (onFirst.wire.take 10) [],.data 2 onSecond.wire [],.data 1 (onFirst.wire.drop 10) []]

set_option maxRecDepth 10000 in
/-- Both streams are complete, and the frame of the second transport is never dispatched. -/
theorem crossed_streams_lost :
    (∀ t ∈ [1,2], ((Impl.start NodeIdentity.bob).run (Env.sample false)
      bobHasTwoTransports).receivedFrom (Env.sample false) 1 t crossChunks = wires (twoStreams t)) ∧
    ((Impl.start NodeIdentity.bob).run (Env.sample false) bobHasTwoTransports).throughout
      (Env.sample false) (Call.smooth 1) crossChunks = true ∧
    ¬ ((Impl.start NodeIdentity.bob).run (Env.sample false) bobHasTwoTransports).Reassembled
      (Env.sample false) 1 2 crossChunks [onSecond] := by
  obtain ⟨hstreams,hok,hnone⟩ :
      (∀ t ∈ [1,2], ((Impl.start NodeIdentity.bob).run (Env.sample false)
        bobHasTwoTransports).receivedFrom (Env.sample false) 1 t crossChunks =
          wires (twoStreams t)) ∧
      ((Impl.start NodeIdentity.bob).run (Env.sample false) bobHasTwoTransports).throughout
        (Env.sample false) (Call.smooth 1) crossChunks = true ∧
      ((Impl.start NodeIdentity.bob).run (Env.sample false)
        bobHasTwoTransports).dispatchedFrom (Env.sample false) 1 2 crossChunks = [] := by
    decide +kernel
  refine ⟨hstreams,hok,?_⟩
  rintro ⟨done,todo,rest,hsplit,hpairs,hrest,hnext⟩
  have hbytes : ((Impl.start NodeIdentity.bob).run (Env.sample false)
      bobHasTwoTransports).receivedFrom (Env.sample false) 1 2 crossChunks = onSecond.wire :=
    (hstreams 2 (by simp)).trans (List.append_nil _)
  rw [hnone] at hpairs
  have hdone : done = [] := List.map_eq_nil_iff.mp hpairs.symm
  rw [hdone,List.nil_append] at hsplit
  rw [hbytes,hdone] at hrest
  have hshort := hnext onSecond (by rw [← hsplit]; rfl)
  have hlen : rest.length = onSecond.total := by
    rw [← Frame.wire_length,hrest]
    simp [wires]
  omega

end GoodNet
