import GoodNet.ManagerSteps
import GoodNet.Lib.Framing
import Mathlib.Data.List.GetD
set_option autoImplicit false

/-! One call of `handle_data` against the frames its bytes spell out. -/

namespace GoodNet
open Codec Framing

theorem Header.decode_append {b : Bytes} (h : headerSize ≤ b.length) (c : Bytes) :
    Header.decode (b ++ c) = Header.decode b := by
  unfold headerSize at h
  have hdrop : ∀ i n : Nat, i+n ≤ 20 → ((b ++ c).drop i).take n = (b.drop i).take n := by
    intro i n hi
    rw [List.drop_append_of_le_length (by omega),
      List.take_append_of_le_length (by rw [List.length_drop]; omega)]
  have hget : ∀ i : Nat, i < 20 → (b ++ c).getD i 0 = b.getD i 0 := fun i hi =>
    List.getD_append _ _ _ _ (by omega)
  have hmagic := hdrop 0 4 (by omega)
  simp only [List.drop_zero] at hmagic
  simp only [decode,hmagic,hget 4 (by omega),hget 5 (by omega),hdrop 6 2 (by omega),
    hdrop 8 4 (by omega),hdrop 12 8 (by omega)]

/-- How long the frame is whose header stands at the front. -/
def frameLength (b : Bytes) : Nat := headerSize+(Header.decode b).payloadLen.toNat

/-- The checks of the loop in `handle_data`, in its order. -/
def lookFrame (b : Bytes) : Verdict :=
  if b.length < headerSize then .short
  else if (Header.decode b).magic ≠ gnetMagic then .bad
  else if (Header.decode b).protoVer ≠ gnetProtoVer then .bad
  else if b.length < frameLength b then .short
  else .unit (frameLength b)

theorem lookFrame_unit {b : Bytes} {n : Nat} (h : lookFrame b = .unit n) :
    headerSize ≤ b.length ∧ (Header.decode b).magic = gnetMagic ∧
      (Header.decode b).protoVer = gnetProtoVer ∧ n = frameLength b ∧ n ≤ b.length := by
  unfold lookFrame at h
  split at h
  · cases h
  · rename_i h1
    split at h
    · cases h
    · rename_i h2
      split at h
      · cases h
      · rename_i h3
        split at h
        · cases h
        · rename_i h4
          cases h
          exact ⟨by omega,not_not.mp h2,not_not.mp h3,rfl,by omega⟩

theorem lookFrame_bad {b : Bytes} (h : lookFrame b = .bad) : headerSize ≤ b.length ∧
    ((Header.decode b).magic ≠ gnetMagic ∨ (Header.decode b).protoVer ≠ gnetProtoVer) := by
  unfold lookFrame at h
  split at h
  · cases h
  · rename_i h1
    refine ⟨by omega,?_⟩
    split at h
    · rename_i h2
      exact Or.inl h2
    · split at h
      · rename_i h3
        exact Or.inr h3
      · split at h
        · cases h
        · cases h

theorem lookFrame_of {b : Bytes} (h1 : headerSize ≤ b.length)
    (h2 : (Header.decode b).magic = gnetMagic) (h3 : (Header.decode b).protoVer = gnetProtoVer)
    (h4 : frameLength b ≤ b.length) : lookFrame b = .unit (frameLength b) := by
  unfold lookFrame
  rw [if_neg (by omega),if_neg (not_not.mpr h2),if_neg (not_not.mpr h3),if_neg (by omega)]

theorem lookFrame_nil : lookFrame [] = .short := rfl

def frameScanner : Scanner UInt8 where
  look := lookFrame
  unit_pos h := by
    obtain ⟨_,_,_,rfl,_⟩ := lookFrame_unit h
    unfold frameLength headerSize
    omega
  unit_le h := (lookFrame_unit h).2.2.2.2
  unit_append h c := by
    obtain ⟨h1,h2,h3,rfl,h4⟩ := lookFrame_unit h
    have hd := Header.decode_append h1 c
    have hlen : frameLength _ = frameLength _ := congrArg (fun h => headerSize+h.payloadLen.toNat) hd
    rw [← hlen]
    exact lookFrame_of (by rw [List.length_append]; omega) (hd ▸ h2) (hd ▸ h3)
      (by rw [hlen,List.length_append]; omega)
  bad_append h c := by
    obtain ⟨h1,h2⟩ := lookFrame_bad h
    have hd := Header.decode_append h1 c
    unfold lookFrame
    rw [hd,if_neg (by rw [List.length_append]; omega)]
    split
    · rfl
    · rename_i hm
      rw [if_pos (h2.resolve_left hm)]

/-- A frame that `handle_data` accepts. -/
def Frame.Valid (f : Frame) : Prop :=
  f.header.magic = gnetMagic ∧ f.header.protoVer = gnetProtoVer

instance (f : Frame) : Decidable f.Valid :=
  inferInstanceAs (Decidable (f.header.magic = gnetMagic ∧ f.header.protoVer = gnetProtoVer))

theorem frameScanner_look : frameScanner.look = lookFrame := rfl

theorem Frame.look_wire {f : Frame} (h : f.Valid) :
    frameScanner.look f.wire = .unit f.wire.length := by
  have hd : Header.decode f.wire = f.header := Header.decode_encode f.header f.payload
  have hlen : frameLength f.wire = f.wire.length := by
    rw [wire_length]
    unfold frameLength total
    rw [hd]
  have hlook := lookFrame_of (b := f.wire) (by rw [wire_length]; exact Nat.le_add_right _ _)
    (by rw [hd]; exact h.1) (by rw [hd]; exact h.2) (by rw [hlen])
  rw [frameScanner_look,hlook,hlen]

/-- Calls that are no part of a `handle_data` on this connection. -/
def Event.foreign (peer : Nat) (e : Event) : Bool := e.concerns != some peer

/-- The record of `peer`, if it is still there, has the bytes it had. -/
structure Undisturbed (peer : Nat) (st st' : Impl) : Prop where
  nextId : st.nextId ≤ st'.nextId
  buffer : ∀ r', st'.find peer = some r' → ∃ r, st.find peer = some r ∧ r'.recvBuf = r.recvBuf

section
variable {env : Env} {peer : Nat} {st st' st'' : Impl}

theorem Undisturbed.refl (st : Impl) : Undisturbed peer st st :=
  ⟨Nat.le_refl _,fun r' hr' => ⟨r',hr',rfl⟩⟩

theorem Undisturbed.trans (h : Undisturbed peer st st') (h' : Undisturbed peer st' st'') :
    Undisturbed peer st st'' := by
  refine ⟨Nat.le_trans h.nextId h'.nextId,fun r'' hr'' => ?_⟩
  obtain ⟨r',hr',hb'⟩ := h'.buffer r'' hr''
  obtain ⟨r,hr,hb⟩ := h.buffer r' hr'
  exact ⟨r,hr,hb'.trans hb⟩

theorem Undisturbed.present (h : Undisturbed peer st st') {r : ConnectionRecord}
    (hr : st.find peer = some r) {r' : ConnectionRecord} (hr' : st'.find peer = some r') :
    r'.recvBuf = r.recvBuf := by
  obtain ⟨r₀,hr₀,hb⟩ := h.buffer r' hr'
  rw [hr] at hr₀
  cases hr₀
  exact hb

/-- No small step writes a receive buffer, and an id is not given out again. -/
theorem Micro.undisturbed (h : Micro env st st') (hp : peer < st.nextId) :
    Undisturbed peer st st' := by
  have hnext := h.nextId_le
  have hkeep : Impl.Keeps ConnectionRecord.recvBuf st st' → Undisturbed peer st st' :=
    fun hk => ⟨hnext,hk peer⟩
  cases h with
  | silent h => exact hkeep (h.agrees (fun r => rfl)).keeps
  | @frame id msgType payload h =>
    exact hkeep ((st.sendFrame_outward env id msgType payload).agrees (fun r => rfl)).keeps
  | direct msgType h => exact hkeep (Impl.Keeps.of_records rfl)
  | connect ep =>
    refine ⟨hnext,fun r' hr' => ⟨r',?_,rfl⟩⟩
    rwa [Impl.openConnection_find_ne (Nat.ne_of_lt hp)] at hr'
  | attach ep scheme h he =>
    exact hkeep (Impl.attachTransport_agrees _ ep scheme (fun r paths => rfl)).keeps
  | disconnect id => exact hkeep (st.handleDisconnect_keeps id (fun r => rfl))
  | duplicate h => exact hkeep (st.removeDuplicate_keeps _ _)
  | read msg h => exact hkeep (Impl.readNoise_agrees _ _ _ _ _ (fun _ _ => rfl)).keeps
  | write payload h hl hok hk => exact hkeep (Impl.writeNoise_agrees _ _ _ (fun _ _ => rfl)).keeps
  | @authenticate id hs hp schemes h hrs =>
    have hk : Impl.Agrees ConnectionRecord.recvBuf st (st.modify id (st.authenticate hp schemes)) :=
      Impl.Agrees.modify id (fun r => (st.authenticate_keeps hp schemes r).2.2.2.2.2.2.2)
    exact hkeep hk.keeps
  | commit h hh ha hd hf => exact hkeep (Impl.commitSession_agrees (fun r => rfl)).keeps
  | rekey id => exact hkeep (Impl.rekeySession_agrees id (fun _ _ _ => rfl)).keeps
  | refuse h he ho => exact hkeep (Impl.openPayload_agrees ho (fun _ _ => rfl)).keeps
  | receive sink h he ho => exact hkeep (Impl.openPayload_agrees ho (fun _ _ => rfl)).keeps

theorem Steps.undisturbed (h : Steps env st st') (hp : peer < st.nextId) :
    Undisturbed peer st st' := by
  induction h with
  | refl => exact Undisturbed.refl st
  | tail _ hs ih => exact ih.trans (hs.undisturbed (Nat.lt_of_lt_of_le hp ih.nextId))

theorem Event.undisturbed {e : Event} (he : e.foreign peer = true) (hp : peer < st.nextId) :
    Undisturbed peer st (e.step env st) := by
  cases hb : e.isBuffered with
  | false => exact (Event.step_steps st hb).undisturbed hp
  | true =>
    cases e with
    | buffered id bytes =>
      have hne : peer ≠ id := fun h => by simp [foreign,concerns,h] at he
      refine ⟨Nat.le_refl _,fun r' hr' => ⟨r',?_,rfl⟩⟩
      simpa [step,Impl.setRecvBuf,Impl.find_modify,hne] using hr'
    | _ => cases hb

theorem Impl.perform_undisturbed {events : List Event} (he : ∀ e ∈ events, e.foreign peer = true)
    (hp : peer < st.nextId) : Undisturbed peer st (st.perform env events) := by
  induction events generalizing st with
  | nil => exact Undisturbed.refl st
  | cons e events ih =>
    have hfirst : Undisturbed peer st (e.step env st) :=
      Event.undisturbed (he e List.mem_cons_self) hp
    exact hfirst.trans (ih (fun x hx => he x (List.mem_cons_of_mem e hx))
      (Nat.lt_of_lt_of_le hp hfirst.nextId))

end

/-- What the loop reports for the units it cuts off, each with the bytes from its start on. -/
def parsedFrames (rest : Bytes) : List Bytes → List Parsed
  | [] => []
  | u :: us => .frame ((u :: us).flatten ++ rest).length (Header.decode u) (u.drop headerSize) ::
      parsedFrames rest us

def parseError (rest : Bytes) : DropReason :=
  if (Header.decode rest).magic ≠ gnetMagic then .badMagic else .badProtoVer

/-- What it reports last, on bytes that it can cut no further. -/
def parsedEnd (rest : Bytes) : List Parsed :=
  if lookFrame rest = .bad then [.error (parseError rest)] else []

/-- What it leaves in the buffer: an error returns before anything is erased. -/
def leftover (buf rest : Bytes) : Bytes := if lookFrame rest = .bad then buf else rest

structure ParseEnds (peer : Nat) (st : Impl) (buf : Bytes) (us : List Bytes) (rest : Bytes)
    (d : Impl × List Parsed) : Prop where
  nextId : st.nextId ≤ d.1.nextId
  parsed : d.2 = parsedFrames rest us ++ parsedEnd rest ∨
    d.1.find peer = none ∧ ∃ k, d.2 = (parsedFrames rest us).take k
  buffer : ∀ r', d.1.find peer = some r' → r'.recvBuf = leftover buf rest

section
variable {env : Env} {peer : Nat} {st st' : Impl} {r : ConnectionRecord} {fuel consumed : Nat}
  {others : List (List Event)}

theorem Impl.parseLoop_short (hr : st.find peer = some r)
    (h : lookFrame (r.recvBuf.drop consumed) = .short) :
    st.parseLoop env peer (fuel+1) consumed others =
      (st.setRecvBuf peer (r.recvBuf.drop consumed),[]) := by
  unfold parseLoop
  rw [hr]
  unfold lookFrame at h
  dsimp only
  split at h
  · rename_i h1
    rw [if_pos h1]
  · rename_i h1
    split at h
    · cases h
    · rename_i h2
      split at h
      · cases h
      · rename_i h3
        split at h
        · rename_i h4
          rw [if_neg h1,if_neg h2,if_neg h3]
          exact if_pos h4
        · cases h

theorem Impl.parseLoop_bad (hr : st.find peer = some r)
    (h : lookFrame (r.recvBuf.drop consumed) = .bad) :
    st.parseLoop env peer (fuel+1) consumed others =
      (st.protocolError env peer (parseError (r.recvBuf.drop consumed)),
        [.error (parseError (r.recvBuf.drop consumed))]) := by
  obtain ⟨h1,h2⟩ := lookFrame_bad h
  unfold parseLoop parseError
  rw [hr]
  dsimp only
  rw [if_neg (Nat.not_lt.mpr h1)]
  split
  · rfl
  · rename_i hm
    rw [if_pos (h2.resolve_left hm)]

theorem Header.decode_take {b : Bytes} {n : Nat} (h : headerSize ≤ n) (hn : n ≤ b.length) :
    Header.decode (b.take n) = Header.decode b := by
  have happ := decode_append (b := b.take n) (by rw [List.length_take]; omega) (b.drop n)
  rwa [List.take_append_drop,eq_comm] at happ

theorem Impl.parseLoop_unit {n : Nat} {u : Bytes} (hr : st.find peer = some r)
    (h : lookFrame (r.recvBuf.drop consumed) = .unit n)
    (hu : u = (r.recvBuf.drop consumed).take n)
    (hst : st' = (st.dispatchPacket env peer (Header.decode u) (u.drop headerSize)).perform env
      (others.headD [])) :
    st.parseLoop env peer (fuel+1) consumed others =
      ((st'.parseLoop env peer fuel (consumed+n) others.tail).1,
        .frame (r.recvBuf.drop consumed).length (Header.decode u) (u.drop headerSize) ::
          (st'.parseLoop env peer fuel (consumed+n) others.tail).2) := by
  obtain ⟨h1,h2,h3,hn,h4⟩ := lookFrame_unit h
  have hfull : frameLength (r.recvBuf.drop consumed) ≤ (r.recvBuf.drop consumed).length := hn ▸ h4
  have hdec : Header.decode u = Header.decode (r.recvBuf.drop consumed) := by
    rw [hu]
    exact Header.decode_take (by rw [hn]; exact Nat.le_add_right _ _) h4
  have hpay : u.drop headerSize = ((r.recvBuf.drop consumed).drop headerSize).take
      (Header.decode (r.recvBuf.drop consumed)).payloadLen.toNat := by
    rw [hu,hn,List.drop_take]
    unfold frameLength
    rw [Nat.add_sub_cancel_left]
  rw [hst,hdec,hpay,hn]
  conv_lhs => unfold parseLoop
  rw [hr]
  dsimp only
  rw [if_neg (Nat.not_lt.mpr h1),if_neg (not_not.mpr h2),if_neg (not_not.mpr h3)]
  exact if_neg (Nat.not_lt.mpr hfull)

theorem Impl.setRecvBuf_find (hr : st.find peer = some r) (bytes : Bytes) :
    (st.setRecvBuf peer bytes).find peer = some { r with recvBuf := bytes } := by
  unfold setRecvBuf
  rw [find_modify_self,hr,Option.map_some]

theorem Impl.dispatch_undisturbed (hp : peer < st.nextId) (hdr : Header) (payload : Bytes)
    {events : List Event} (he : ∀ e ∈ events, e.foreign peer = true) :
    Undisturbed peer st ((st.dispatchPacket env peer hdr payload).perform env events) := by
  have hd : Undisturbed peer st (st.dispatchPacket env peer hdr payload) :=
    (dispatchNested_steps dispatchDepth st peer hdr payload).undisturbed hp
  exact hd.trans (perform_undisturbed he (Nat.lt_of_lt_of_le hp hd.nextId))

theorem ParseEnds.stop {buf : Bytes} (hp : peer < st.nextId) (hr : st.find peer = some r)
    (hs : frameScanner.Stuck (r.recvBuf.drop consumed)) (hb : r.recvBuf = buf) :
    ParseEnds peer st buf [] (r.recvBuf.drop consumed)
      (st.parseLoop env peer (fuel+1) consumed others) := by
  cases hv : lookFrame (r.recvBuf.drop consumed) with
  | short =>
    rw [Impl.parseLoop_short hr hv]
    refine ⟨Nat.le_refl _,Or.inl (by simp [parsedFrames,parsedEnd,hv]),fun r' hr' => ?_⟩
    rw [Impl.setRecvBuf_find hr] at hr'
    cases hr'
    simp [leftover,hv]
  | bad =>
    have hu : Undisturbed peer st
        (st.protocolError env peer (parseError (r.recvBuf.drop consumed))) :=
      (Impl.protocolError_steps st peer _).undisturbed hp
    rw [Impl.parseLoop_bad hr hv]
    refine ⟨hu.nextId,Or.inl (by simp [parsedFrames,parsedEnd,hv]),fun r' hr' => ?_⟩
    rw [hu.present hr hr']
    unfold leftover
    rw [if_pos hv,hb]
  | unit n => exact absurd hv (hs n)

theorem foreign_tail (hf : ∀ e ∈ others.flatten, e.foreign peer = true) :
    (∀ e ∈ others.headD [], e.foreign peer = true) ∧
      ∀ e ∈ others.tail.flatten, e.foreign peer = true := by
  cases others with
  | nil => exact ⟨fun e he => (by cases he),hf⟩
  | cons now later =>
    exact ⟨fun e he => hf e (List.mem_append_left _ he),
      fun e he => hf e (List.mem_append_right now he)⟩

/-- The loop follows the cut of the bytes in front of it, unless the record goes away. -/
theorem Impl.parseLoop_ends {b rest : Bytes} {us : List Bytes} (hc : Cuts frameScanner b us rest)
    {buf : Bytes} (hp : peer < st.nextId) (hr : st.find peer = some r) (hbuf : r.recvBuf = buf)
    (hb : r.recvBuf.drop consumed = b) (hfuel : us.length < fuel)
    (hf : ∀ e ∈ others.flatten, e.foreign peer = true) :
    ParseEnds peer st buf us rest (st.parseLoop env peer fuel consumed others) := by
  induction hc generalizing st r fuel consumed others with
  | stop hs =>
    subst hb
    obtain ⟨fuel,rfl⟩ := Nat.exists_eq_succ_of_ne_zero (Nat.ne_of_gt hfuel)
    exact ParseEnds.stop hp hr hs hbuf
  | @unit b rest n us hv hc ih =>
    subst hb
    obtain ⟨fuel,rfl⟩ := Nat.exists_eq_succ_of_ne_zero (Nat.ne_of_gt (Nat.lt_of_le_of_lt
      (Nat.zero_le _) hfuel))
    obtain ⟨hnow,hlater⟩ := foreign_tail hf
    have hlen : (((r.recvBuf.drop consumed).take n :: us).flatten ++ rest).length =
        (r.recvBuf.drop consumed).length := by rw [(Cuts.unit hv hc).flatten]
    rw [parseLoop_unit hr hv rfl rfl]
    generalize (r.recvBuf.drop consumed).take n = u at hlen ⊢
    have hu : Undisturbed peer st ((st.dispatchPacket env peer (Header.decode u)
        (u.drop headerSize)).perform env (others.headD [])) := dispatch_undisturbed hp _ _ hnow
    generalize (st.dispatchPacket env peer (Header.decode u) (u.drop headerSize)).perform env
      (others.headD []) = st' at hu ⊢
    cases hr' : st'.find peer with
    | none =>
      -- the dispatch has removed the record: the loop returns at once
      have hgone : st'.parseLoop env peer fuel (consumed+n) others.tail = (st',[]) := by
        cases fuel with
        | zero => rfl
        | succ fuel =>
          unfold parseLoop
          rw [hr']
      rw [hgone]
      refine ⟨hu.nextId,Or.inr ⟨hr',1,?_⟩,fun r₁ hr₁ => ?_⟩
      · rw [parsedFrames,hlen]
        rfl
      · rw [hr'] at hr₁
        cases hr₁
    | some r' =>
      have hsame := hu.present hr hr'
      have hnext := ih (Nat.lt_of_lt_of_le hp hu.nextId) hr' (hsame.trans hbuf)
        (by rw [hsame,List.drop_drop]) (Nat.lt_of_succ_lt_succ hfuel) hlater
      refine ⟨Nat.le_trans hu.nextId hnext.nextId,?_,hnext.buffer⟩
      rcases hnext.parsed with h | ⟨hn,k,h⟩
      · left
        rw [h,parsedFrames,hlen]
        rfl
      · right
        refine ⟨hn,k+1,?_⟩
        rw [h,parsedFrames,hlen]
        rfl

theorem isWholeFrame_cuts {chunk : Bytes} (h : isWholeFrame r chunk = true) :
    r.recvBuf = [] ∧ Cuts frameScanner chunk [chunk] [] := by
  simp only [isWholeFrame,Bool.and_eq_true,List.isEmpty_iff,decide_eq_true_eq,beq_iff_eq] at h
  obtain ⟨⟨⟨⟨hempty,h1⟩,h4⟩,h2⟩,h3⟩ := h
  have hlook : lookFrame chunk = .unit chunk.length := by
    rw [lookFrame_of h1 h2 h3 (Nat.le_of_eq h4.symm)]
    exact congrArg Verdict.unit h4.symm
  refine ⟨hempty,?_⟩
  have hstuck : frameScanner.Stuck [] := fun n hn => by cases hn
  have hcut : Cuts frameScanner ([chunk].flatten ++ []) [chunk] [] := by
    refine Cuts.of_units (fun u hu => ?_) hstuck
    rw [List.mem_singleton.mp hu]
    exact hlook
  simpa using hcut

/-- One call: an overflow, or the frames that the bytes now in hand spell out. -/
theorem Impl.handleData_cases {id : Nat} (env : Env) (chunk : Bytes) (hp : peer < st.nextId)
    (hs : st.shuttingDown = false) (hid : st.resolveTransport id = peer)
    (hr : st.find peer = some r) (hf : ∀ e ∈ others.flatten, e.foreign peer = true) :
    (isWholeFrame r chunk = false ∧ maxRecvBuf < (r.recvBuf ++ chunk).length ∧
      st.nextId ≤ (st.handleData env id chunk others).1.nextId ∧
      (st.handleData env id chunk others).2 = [.error .recvBufOverflow] ∧
      ∀ r', (st.handleData env id chunk others).1.find peer = some r' →
        r'.recvBuf = r.recvBuf ++ chunk) ∨
    ((isWholeFrame r chunk = true ∨ (r.recvBuf ++ chunk).length ≤ maxRecvBuf) ∧
      ∃ us rest, Cuts frameScanner (r.recvBuf ++ chunk) us rest ∧
        ParseEnds peer st (r.recvBuf ++ chunk) us rest (st.handleData env id chunk others)) := by
  unfold handleData
  simp only [hs,Bool.false_eq_true,ite_false,hid,hr]
  cases hw : isWholeFrame r chunk with
  | true =>
    obtain ⟨hempty,hcut⟩ := isWholeFrame_cuts hw
    have hu : Undisturbed peer st ((st.dispatchPacket env peer (Header.decode chunk)
        (chunk.drop headerSize)).perform env (others.headD [])) :=
      dispatch_undisturbed hp _ _ (foreign_tail hf).1
    refine Or.inr ⟨Or.inl rfl,[chunk],[],?_,hu.nextId,Or.inl ?_,fun r' hr' => ?_⟩
    · rwa [hempty]
    · simp [parsedFrames,parsedEnd,lookFrame_nil]
    · rw [hu.present hr hr',hempty]
      simp [leftover,lookFrame_nil]
  | false =>
    have hset := setRecvBuf_find hr (r.recvBuf ++ chunk)
    simp only [Bool.false_eq_true,ite_false,false_or,true_and]
    split
    · rename_i hbig
      have hu : Undisturbed peer (st.setRecvBuf peer (r.recvBuf ++ chunk))
          ((st.setRecvBuf peer (r.recvBuf ++ chunk)).protocolError env peer .recvBufOverflow) :=
        (protocolError_steps _ peer _).undisturbed hp
      exact Or.inl ⟨hbig,hu.nextId,rfl,fun r' hr' => hu.present hset hr'⟩
    · rename_i hfits
      have hcut := frameScanner.cuts (r.recvBuf ++ chunk)
      have hp' : peer < (st.setRecvBuf peer (r.recvBuf ++ chunk)).nextId := hp
      have hend : ParseEnds peer (st.setRecvBuf peer (r.recvBuf ++ chunk)) (r.recvBuf ++ chunk) _ _
          ((st.setRecvBuf peer (r.recvBuf ++ chunk)).parseLoop env peer
            ((r.recvBuf ++ chunk).length+1) 0 others) :=
        parseLoop_ends hcut hp' hset rfl List.drop_zero (Nat.lt_succ_of_le hcut.length_le) hf
      exact Or.inr ⟨Nat.le_of_not_lt hfits,_,_,hcut,hend.nextId,hend.parsed,hend.buffer⟩

end

end GoodNet
