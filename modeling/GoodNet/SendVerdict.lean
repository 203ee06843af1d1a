import GoodNet.PayloadRoundTrip
import Mathlib.Data.List.ReduceOption
set_option autoImplicit false

/-! What `send` tells its caller. `send_frame` may refuse a frame because of a shutdown, a
record that is gone or a full queue, and returns nothing; `send` has answered for all frames
once its own checks are passed. Other threads may do anything between the steps of a call. -/

namespace GoodNet
open Codec

/-- What other threads do before a call of `send_frame`, between its `build_frame` and its
`try_push`, and between that and its `flush_queue`. -/
structure Meddling where
  before : Impl → Impl := id
  between : Impl → Impl := id
  after : Impl → Impl := id

/-- A frame that `try_push` has accepted, with the record and the settings it was built by. -/
structure Pushed where
  owner : ConnectionRecord
  compression : Compression
  frame : Bytes

/-- `send_frame` with the frame that it pushed, if it did. -/
def Impl.sendPart (env : Env) (m : Meddling) (st : Impl) (id : Nat) (msgType : UInt32)
    (part : Bytes) : Impl × Option Pushed :=
  let st := m.before st
  if st.shuttingDown then (st,none)
  else
    match st.find id with
    | none => (st,none)
    | some r =>
      let frame := r.frame env.sodium env.zstd st.compression msgType part
      let q := (m.between (st.buildFrame env id msgType part).1).getOrCreateQueue id
      let pushed := q.2.tryPush frame
      if pushed.2 then
        ((m.after (q.1.setQueue id pushed.1)).flushQueue env id,some ⟨r,st.compression,frame⟩)
      else (q.1.emit (.drop id .perConnLimitExceeded),none)

/-- The parts of a payload one by one, and what became of each. -/
def Impl.sendParts (env : Env) (id : Nat) (msgType : UInt32) :
    (Nat → Meddling) → Impl → List Bytes → Impl × List (Option Pushed)
  | _, st, [] => (st,[])
  | others, st, part :: parts =>
    let one := st.sendPart env (others 0) id msgType part
    let rest := one.1.sendParts env id msgType (fun n => others (n+1)) parts
    (rest.1,one.2 :: rest.2)

namespace SendCall

/-- The connection whose `send_frame` the call gets to, if it does. -/
def admitted (st : Impl) (msgType : UInt32) (payload : Bytes) :
    SendCall → Option (Nat × ConnectionRecord)
  | byId id => (st.find id).map (fun r => (id,r))
  | byUri uri =>
    if uri = "" ∨ st.shuttingDown then none
    else
      match st.resolveUri uri with
      | none => none
      | some id =>
        match st.find id with
        | none => none
        | some r =>
          if !r.established && !isHandshakeType msgType then none
          else if globalMaxInFlight < st.getPendingBytes+payload.length then none
          else some (id,r)

/-- The call among other threads: the state it leaves, its verdict, and the fate of each
part of the payload. -/
def amid (env : Env) (others : Nat → Meddling) (st : Impl) (msgType : UInt32) (payload : Bytes)
    (call : SendCall) : Impl × Bool × List (Option Pushed) :=
  match call.admitted st msgType payload with
  | none => ((call.run env st msgType payload).1,(call.run env st msgType payload).2,[])
  | some (id,r) =>
    let sent := (call.entry st r msgType).sendParts env id msgType others (call.parts payload)
    (sent.1,true,sent.2)

/-- The call is for a connection that is up. -/
def Established (st : Impl) (call : SendCall) : Prop :=
  ∃ id r, call.target st = some id ∧ st.find id = some r ∧ r.established = true

/-- The frames, in the order they were pushed, carry the parts. -/
def Carries (env : Env) (msgType : UInt32) (frames : List Pushed) (parts : List Bytes) : Prop :=
  List.Forall₂ (fun p part =>
    p.frame = p.owner.frame env.sodium env.zstd p.compression msgType part) frames parts

/-- The verdict is true to what became of the payload. -/
structure Honest (env : Env) (others : Nat → Meddling) (st : Impl) (msgType : UInt32)
    (payload : Bytes) (call : SendCall) : Prop where
  accepted : (call.amid env others st msgType payload).2.1 = true →
    ∃ parts, parts.flatten = payload ∧
      Carries env msgType (call.amid env others st msgType payload).2.2.reduceOption parts
  refused : none ∈ (call.amid env others st msgType payload).2.2 →
    (call.amid env others st msgType payload).2.1 = false ∧
      (call.amid env others st msgType payload).2.2.reduceOption = []

end SendCall

/-- A call of `send_frame` finds no shutdown, its record, and room in the queue. -/
def Impl.Fits (env : Env) (m : Meddling) (st : Impl) (id : Nat) (msgType : UInt32)
    (part : Bytes) : Prop :=
  (m.before st).shuttingDown = false ∧ ∃ r, (m.before st).find id = some r ∧
    ((m.between ((m.before st).buildFrame env id msgType part).1).getOrCreateQueue
      id).2.pendingBytes+
        (r.frame env.sodium env.zstd (m.before st).compression msgType part).length ≤ perConnMaxBytes

/-- All parts do, each in the state it comes to. -/
def Impl.AllFit (env : Env) (id : Nat) (msgType : UInt32) :
    (Nat → Meddling) → Impl → List Bytes → Prop
  | _, _, [] => True
  | others, st, part :: parts =>
    st.Fits env (others 0) id msgType part ∧
      (st.sendPart env (others 0) id msgType part).1.AllFit env id msgType (fun n => others (n+1))
        parts

section
variable {env : Env} {others : Nat → Meddling} {st : Impl} {id : Nat} {msgType : UInt32}
  {part payload : Bytes} {parts : List Bytes} {call : SendCall}

theorem ConnectionRecord.frame_ne_nil (S : Sodium) (Z : Zstd) (c : Compression)
    (r : ConnectionRecord) : r.frame S Z c msgType part ≠ [] := by
  have hpos : ∀ (h : Header) (b : Bytes), h.encode ++ b ≠ [] := by
    intro h b hnil
    simp [Header.encode] at hnil
  unfold frame
  split
  · exact hpos _ _
  · exact hpos _ _

/-- With nobody in between it is `send_frame`. -/
theorem Impl.sendPart_alone (st : Impl) :
    (st.sendPart env {} id msgType part).1 = st.sendFrame env id msgType part := by
  cases hr : st.find id with
  | none => simp [sendPart,sendFrame,buildFrame,hr]
  | some r =>
    have hsome : (r.frame env.sodium env.zstd st.compression msgType part).isEmpty = false := by
      simpa using r.frame_ne_nil env.sodium env.zstd st.compression
    simp only [sendPart,sendFrame,buildFrame,hr,id_eq,hsome,Bool.false_eq_true,ite_false,
      pushAndFlush]
    split
    · rfl
    · split
      · rfl
      · rfl

theorem Impl.sendParts_alone (st : Impl) :
    (st.sendParts env id msgType (fun _ => {}) parts).1 = st.sendChunks env id msgType parts := by
  induction parts generalizing st with
  | nil => rfl
  | cons part parts ih =>
    simp only [sendParts,ih,sendPart_alone]
    rfl

/-- A call by URI passes every check of `send`. -/
theorem SendCall.admitted_byUri {uri : String} {r : ConnectionRecord}
    (h : (byUri uri).admitted st msgType payload = some (id,r)) :
    ¬ (uri = "" ∨ st.shuttingDown = true) ∧ st.resolveUri uri = some id ∧ st.find id = some r ∧
      ¬ (!r.established && !isHandshakeType msgType) = true ∧
        ¬ globalMaxInFlight < st.getPendingBytes+payload.length := by
  simp only [admitted] at h
  split at h
  · cases h
  · rename_i hgo
    split at h
    · cases h
    · rename_i j hres
      split at h
      · cases h
      · rename_i r' hr
        split at h
        · cases h
        · rename_i hup
          split at h
          · cases h
          · rename_i hroom
            cases h
            exact ⟨hgo,hres,hr,hup,hroom⟩

/-- With nobody in between the call is the manager's `send`. -/
theorem SendCall.amid_alone (st : Impl) :
    (call.amid env (fun _ => {}) st msgType payload).1 = (call.run env st msgType payload).1 ∧
      (call.amid env (fun _ => {}) st msgType payload).2.1 =
        (call.run env st msgType payload).2 := by
  unfold amid
  cases hadm : call.admitted st msgType payload with
  | none => exact ⟨rfl,rfl⟩
  | some found =>
    obtain ⟨id,r⟩ := found
    simp only [Impl.sendParts_alone]
    cases call with
    | byId j =>
      simp only [admitted,Option.map_eq_some_iff,Prod.mk.injEq] at hadm
      obtain ⟨_,hr,rfl,rfl⟩ := hadm
      simp [run,Impl.send,hr,entry,parts,chunked,Impl.sendChunks]
    | byUri uri =>
      obtain ⟨hgo,hres,hr,hup,hroom⟩ := admitted_byUri hadm
      simp only [run,Impl.sendUri,if_neg hgo,hres,hr,if_neg hup,if_neg hroom,entry,parts,chunked,
        decide_eq_true_eq]
      split
      · exact ⟨rfl,rfl⟩
      · exact ⟨rfl,rfl⟩

/-- A part is refused exactly when `send_frame` does not find what it needs. -/
theorem Impl.sendPart_fits (env : Env) (m : Meddling) (st : Impl) (id : Nat) (msgType : UInt32)
    (part : Bytes) :
    (∃ p, (st.sendPart env m id msgType part).2 = some p ∧
        p.frame = p.owner.frame env.sodium env.zstd p.compression msgType part) ∧
          st.Fits env m id msgType part ∨
      (st.sendPart env m id msgType part).2 = none ∧ ¬ st.Fits env m id msgType part := by
  unfold sendPart Fits
  dsimp only
  cases hd : (m.before st).shuttingDown with
  | true => exact Or.inr ⟨rfl,fun h => absurd h.1 (by simp)⟩
  | false =>
    cases hr : (m.before st).find id with
    | none =>
      refine Or.inr ⟨rfl,?_⟩
      rintro ⟨_,r,hr',_⟩
      cases hr'
    | some r =>
      simp only [PerConnQueue.tryPush,Bool.false_eq_true,ite_false]
      split
      · rename_i hover
        refine Or.inr ⟨rfl,?_⟩
        rintro ⟨_,r',hr',hle⟩
        cases hr'
        omega
      · rename_i hroom
        exact Or.inl ⟨⟨_,rfl,rfl⟩,trivial,r,rfl,by omega⟩

/-- All parts are pushed, or one is refused. -/
theorem Impl.sendParts_fit (env : Env) (id : Nat) (msgType : UInt32) (others : Nat → Meddling)
    (st : Impl) (parts : List Bytes) :
    SendCall.Carries env msgType (st.sendParts env id msgType others parts).2.reduceOption parts ∧
        none ∉ (st.sendParts env id msgType others parts).2 ∧
          st.AllFit env id msgType others parts ∨
      none ∈ (st.sendParts env id msgType others parts).2 ∧
        ¬ st.AllFit env id msgType others parts := by
  induction parts generalizing st others with
  | nil => exact Or.inl ⟨.nil,by simp [sendParts],trivial⟩
  | cons part parts ih =>
    simp only [sendParts,AllFit]
    rcases st.sendPart_fits env (others 0) id msgType part with ⟨⟨p,hp,hcarry⟩,hfits⟩ | ⟨hnone,hnot⟩
    · rcases ih (fun n => others (n+1)) (st.sendPart env (others 0) id msgType part).1 with
        ⟨hrest,hin,hall⟩ | ⟨hin,hnot⟩
      · refine Or.inl ⟨?_,?_,hfits,hall⟩
        · rw [hp,List.reduceOption_cons_of_some]
          exact .cons hcarry hrest
        · simp [hp,hin]
      · exact Or.inr ⟨List.mem_cons_of_mem _ hin,fun h => hnot h.2⟩
    · exact Or.inr ⟨by simp [hnone],fun h => hnot h.1⟩

theorem SendCall.parts_flatten (call : SendCall) (payload : Bytes) :
    (call.parts payload).flatten = payload := by
  cases hc : call.chunked payload with
  | true => exact (parts_chunked hc).1
  | false => simp [parts_whole hc]

/-- On a connection that is up, a call that does not get to `send_frame` has said so. -/
theorem SendCall.Established.admitted (h : call.Established st) (env : Env)
    (hnone : call.admitted st msgType payload = none) :
    (call.run env st msgType payload).2 = false := by
  obtain ⟨id,r,htarget,hr,hup⟩ := h
  cases call with
  | byId j =>
    cases htarget
    simp [SendCall.admitted,hr] at hnone
  | byUri uri =>
    have hres : st.resolveUri uri = some id := htarget
    simp only [SendCall.admitted,hres,hr,hup,Bool.not_true,Bool.false_and,Bool.false_eq_true,
      ite_false] at hnone
    simp only [run,Impl.sendUri,hres,hr,hup,Bool.not_true,Bool.false_and,Bool.false_eq_true,
      ite_false]
    split at hnone
    · rename_i hgo
      rw [if_pos hgo]
    · rename_i hgo
      rw [if_neg hgo]
      split at hnone
      · rename_i hroom
        rw [if_pos hroom]
      · cases hnone

/-- A call that gets to `send_frame` answers for all parts, also for those that are refused. -/
theorem SendCall.not_honest {r : ConnectionRecord}
    (hadm : call.admitted st msgType payload = some (id,r))
    (hnot : ¬ (call.entry st r msgType).AllFit env id msgType others (call.parts payload)) :
    ¬ call.Honest env others st msgType payload := by
  intro hhonest
  rcases Impl.sendParts_fit env id msgType others (call.entry st r msgType) (call.parts payload)
    with ⟨_,_,hall⟩ | ⟨hin,_⟩
  · exact hnot hall
  · have hverdict := (hhonest.refused (by simpa [SendCall.amid,hadm] using hin)).1
    simp [SendCall.amid,hadm] at hverdict

end

/-- On a connection that is up, `send` is true to its caller exactly when it gives up before
its first `send_frame` or every `send_frame` finds no shutdown, its record and room in the
queue. -/
theorem send_honest_iff (env : Env) (others : Nat → Meddling) (st : Impl) (msgType : UInt32)
    (payload : Bytes) (call : SendCall) (h : call.Established st) :
    call.Honest env others st msgType payload ↔
      ∀ id r, call.admitted st msgType payload = some (id,r) →
        (call.entry st r msgType).AllFit env id msgType others (call.parts payload) := by
  cases hadm : call.admitted st msgType payload with
  | none =>
    have hfalse := h.admitted env hadm
    refine ⟨fun _ id r hr => (by cases hr),fun _ => ⟨?_,?_⟩⟩
    · simp [SendCall.amid,hadm,hfalse]
    · simp [SendCall.amid,hadm]
  | some found =>
    obtain ⟨id,r⟩ := found
    constructor
    · rintro hhonest _ _ heq
      cases heq
      by_contra hnot
      exact SendCall.not_honest hadm hnot hhonest
    · intro hall
      rcases Impl.sendParts_fit env id msgType others (call.entry st r msgType)
        (call.parts payload) with ⟨hcarry,hin,_⟩ | ⟨_,hnot⟩
      · refine ⟨fun _ => ⟨call.parts payload,call.parts_flatten payload,?_⟩,fun hnone => ?_⟩
        · simpa [SendCall.amid,hadm] using hcarry
        · exact absurd (by simpa [SendCall.amid,hadm] using hnone) hin
      · exact absurd (hall id r rfl) hnot

/-- An established connection on the same host. -/
def localRecord : ConnectionRecord :=
  { id := 1, remote := Endpoint.sample "a" 0, state := .established, isLocalhost := true,
    localhostPassthrough := true }

def localPeer : Impl :=
  { identity := NodeIdentity.alice, records := AList.singleton 1 localRecord,
    uriIndex := AList.singleton "a:1" 1, sendQueues := AList.singleton 1 {},
    connectors := AList.singleton "tcp" {} }

theorem localPeer_established (call : SendCall) (h : call.target localPeer = some 1) :
    call.Established localPeer := ⟨1,localRecord,h,rfl,rfl⟩

theorem send_honest_iff_local :
    (SendCall.byUri "tcp://a:1").Honest (Env.sample false) (fun _ => {}) localPeer msgTypeChat
      [104] := by
  refine (send_honest_iff (Env.sample false) (fun _ => {}) localPeer msgTypeChat [104]
    (.byUri "tcp://a:1") (localPeer_established _ (by decide +kernel))).mpr ?_
  intro id r hadm
  have hsome : (SendCall.byUri "tcp://a:1").admitted localPeer msgTypeChat [104] =
    some (1,localRecord) := by decide +kernel
  rw [hsome] at hadm
  cases hadm
  exact ⟨⟨rfl,localRecord,rfl,by decide +kernel⟩,trivial⟩

/-- Another thread begins to shut down. -/
def shutDownFirst : Meddling := { before := fun st => { st with shuttingDown := true } }

theorem localRecord_frame (payload : Bytes) :
    (localRecord.frame Sodium.sample Zstd.sample {} msgTypeChat payload).length =
      headerSize+payload.length := by
  have hm : isHandshakeType msgTypeChat = false := by decide
  rw [ConnectionRecord.frame_local (r := localRecord) rfl hm,List.length_append,
    Header.encode_length]

/-- A payload that is too large for the queue is refused, whoever asks. -/
theorem localPeer_overfull {payload : Bytes} (h : perConnMaxBytes ≤ payload.length) :
    ¬ (SendCall.byId 1).Honest (Env.sample false) (fun _ => {}) localPeer msgTypeChat payload := by
  have hadm : (SendCall.byId 1).admitted localPeer msgTypeChat payload = some (1,localRecord) := rfl
  refine SendCall.not_honest hadm ?_
  rintro ⟨⟨_,r,hr,hroom⟩,_⟩
  obtain rfl : localRecord = r := Option.some.inj hr
  have hover := Nat.le_trans (Nat.le_add_left _ _) hroom
  have hlen := localRecord_frame payload
  have hfits : (localRecord.frame Sodium.sample Zstd.sample {} msgTypeChat payload).length ≤
      perConnMaxBytes := hover
  have hpos : 0 < headerSize := by decide
  omega

/-- A payload of 8 MB sent by id, and any payload sent by URI when a shutdown begins after the
check for it: the caller is told that all is well, and nothing has been queued. -/
theorem send_dishonest :
    ¬ (SendCall.byId 1).Honest (Env.sample false) (fun _ => {}) localPeer msgTypeChat
        (List.replicate perConnMaxBytes 0) ∧
      ¬ (SendCall.byUri "tcp://a:1").Honest (Env.sample false) (fun _ => shutDownFirst) localPeer
        msgTypeChat [104] := by
  refine ⟨localPeer_overfull (Nat.le_of_eq List.length_replicate.symm),?_⟩
  have hadm : (SendCall.byUri "tcp://a:1").admitted localPeer msgTypeChat [104] =
    some (1,localRecord) := by decide +kernel
  refine SendCall.not_honest hadm ?_
  rintro ⟨⟨hdown,_⟩,_⟩
  cases hdown

end GoodNet
