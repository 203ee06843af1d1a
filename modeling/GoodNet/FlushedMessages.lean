import GoodNet.SendVerdict
import GoodNet.SendFootprint
import GoodNet.HonestNode
set_option autoImplicit false

/-! A message that waited for its connection beside one that is sent when the connection is up.
`send(uri)` cuts a payload up and asks for room under the global limit, and the loop of
`flush_pending_messages` does neither. -/

namespace GoodNet
open Codec

/-- What the loop of `flush_pending_messages` has `send_frame` make frames of for a message. In a
shutdown that is nothing. -/
def PendingMessage.handed (st : Impl) (m : PendingMessage) : List Bytes :=
  if st.shuttingDown then [] else [m.payload]

/-- What `send` has it make frames of, which is nothing if it refuses. -/
def SendCall.handed (st : Impl) (msgType : UInt32) (payload : Bytes) (call : SendCall) : List Bytes :=
  match call.admitted st msgType payload with
  | none => []
  | some _ => call.parts payload

/-- The payload goes out whole: no check and no `send_frame` refuses. -/
def SendCall.Delivers (env : Env) (others : Nat → Meddling) (st : Impl) (msgType : UInt32)
    (payload : Bytes) (call : SendCall) : Prop :=
  (call.admitted st msgType payload).isSome = true ∧
    none ∉ (call.amid env others st msgType payload).2.2

/-- The flush treats a message as `send(uri)` would: the same pieces of it are sent, none if that
call refuses it, and it goes out whole whenever it would there. -/
structure PendingMessage.AsDirect (env : Env) (others : Nat → Meddling) (st : Impl) (id : Nat)
    (uri : String) (m : PendingMessage) : Prop where
  pieces : m.handed st = (SendCall.byUri uri).handed st m.msgType m.payload
  delivered : (SendCall.byUri uri).Delivers env others st m.msgType m.payload →
    none ∉ (st.sendParts env id m.msgType others [m.payload]).2

/-- The URI leads to a connection that is up. -/
structure Impl.UpFor (st : Impl) (uri : String) (id : Nat) : Prop where
  named : uri ≠ ""
  resolved : st.resolveUri uri = some id
  up : ∃ r, st.find id = some r ∧ r.established = true

/-- The state in which each message has its turn. -/
def Impl.turns (env : Env) (id : Nat) : Impl → List PendingMessage → List (Impl × PendingMessage)
  | _, [] => []
  | st, m :: messages => (st,m) :: (st.sendFrame env id m.msgType m.payload).turns env id messages

/-- The message is below the size from which on `send(uri)` cuts, and there is room for it. -/
def PendingMessage.Modest (st : Impl) (m : PendingMessage) : Prop :=
  st.shuttingDown = true ∨
    m.payload.length ≤ chunkSize*2 ∧ st.getPendingBytes+m.payload.length ≤ globalMaxInFlight

section
variable {env : Env} {others : Nat → Meddling} {st st' : Impl} {id : Nat} {uri : String}
  {m : PendingMessage} {messages : List PendingMessage}

/-- `send_frame` takes no connection down. -/
theorem Impl.UpFor.sendFrame (h : st.UpFor uri id) (msgType : UInt32) (payload : Bytes) :
    (st.sendFrame env id msgType payload).UpFor uri id := by
  have hfoot : Footprint (st.OnPath id) st (st.sendFrame env id msgType payload) :=
    sendFrame_footprint ..
  obtain ⟨r,hr,he⟩ := h.up
  obtain ⟨r',hr',hsame⟩ := hfoot.found hr
  refine ⟨h.named,?_,r',hr',?_⟩
  · have hresolved := h.resolved
    unfold resolveUri at hresolved ⊢
    rw [hfoot.uri]
    exact hresolved
  · rw [ConnectionRecord.unsent_field ConnectionRecord.established (fun _ => rfl) hsame]
    exact he

theorem Impl.UpFor.turns (h : st.UpFor uri id) {t : Impl × PendingMessage}
    (ht : t ∈ st.turns env id messages) : t.1.UpFor uri id := by
  induction messages generalizing st with
  | nil => cases ht
  | cons m messages ih =>
    rcases List.mem_cons.1 ht with rfl | ht
    · exact h
    · exact ih (h.sendFrame m.msgType m.payload) ht

theorem SendCall.admitted_down (h : st.shuttingDown = true) (msgType : UInt32) (payload : Bytes) :
    (SendCall.byUri uri).admitted st msgType payload = none := by
  simp only [SendCall.admitted]
  rw [if_pos (.inr h)]

/-- On a connection that is up, only the global limit refuses a message. -/
theorem Impl.UpFor.admitted (h : st.UpFor uri id) (hs : st.shuttingDown = false)
    (msgType : UInt32) (payload : Bytes) :
    (st.getPendingBytes+payload.length ≤ globalMaxInFlight ∧
      ∃ r, (SendCall.byUri uri).admitted st msgType payload = some (id,r)) ∨
    (¬ st.getPendingBytes+payload.length ≤ globalMaxInFlight ∧
      (SendCall.byUri uri).admitted st msgType payload = none) := by
  obtain ⟨r,hr,he⟩ := h.up
  have hgo : ¬ (uri = "" ∨ st.shuttingDown = true) := by simp [h.named,hs]
  simp only [SendCall.admitted,if_neg hgo,h.resolved,hr,he,Bool.not_true,Bool.false_and,
    Bool.false_eq_true,ite_false]
  by_cases hroom : globalMaxInFlight < st.getPendingBytes+payload.length
  · rw [if_pos hroom]
    exact .inr ⟨Nat.not_le.2 hroom,rfl⟩
  · rw [if_neg hroom]
    exact .inl ⟨Nat.not_lt.1 hroom,r,rfl⟩

theorem SendCall.byUri_whole {payload : Bytes} :
    (SendCall.byUri uri).parts payload = [payload] ↔ payload.length ≤ chunkSize*2 := by
  constructor
  · intro h
    by_contra hlong
    have hcut : (SendCall.byUri uri).chunked payload = true :=
      decide_eq_true (Nat.not_le.1 hlong)
    have hpart := ((parts_chunked hcut).2 payload (by simp [h])).2
    have hsize : chunkSize = 1048576 := rfl
    omega
  · intro h
    exact parts_whole (decide_eq_false (Nat.not_lt.2 h))

theorem SendCall.handed_some {r : ConnectionRecord} {msgType : UInt32} {payload : Bytes}
    {call : SendCall} (h : call.admitted st msgType payload = some (id,r)) :
    call.handed st msgType payload = call.parts payload := by
  unfold handed
  rw [h]

theorem SendCall.handed_none {msgType : UInt32} {payload : Bytes} {call : SendCall}
    (h : call.admitted st msgType payload = none) : call.handed st msgType payload = [] := by
  unfold handed
  rw [h]

/-- `send(uri)` is `send_frame` of what it hands on. When it hands on nothing it has refused. -/
theorem Impl.UpFor.direct (h : st.UpFor uri id) (msgType : UInt32) (payload : Bytes) :
    let handed := (SendCall.byUri uri).handed st msgType payload
    (handed = [] → (st.sendUri env uri msgType payload).2 = false) ∧
      (handed ≠ [] → st.sendUri env uri msgType payload =
        (st.sendChunks env id msgType handed,true)) := by
  intro handed
  have hne : (SendCall.byUri uri).parts payload ≠ [] :=
    ((SendCall.byUri uri).parts_intact payload).not_nil
  cases hs : st.shuttingDown with
  | true =>
    have hhanded : handed = [] := SendCall.handed_none (SendCall.admitted_down hs msgType payload)
    refine ⟨fun _ => ?_,fun hn => absurd hhanded hn⟩
    unfold sendUri
    rw [if_pos (.inr hs)]
  | false =>
    obtain ⟨r,hr,he⟩ := h.up
    have hgo : ¬ (uri = "" ∨ st.shuttingDown = true) := by simp [h.named,hs]
    unfold sendUri
    simp only [if_neg hgo,h.resolved,hr,he,Bool.not_true,Bool.false_and,Bool.false_eq_true,
      ite_false]
    rcases h.admitted hs msgType payload with ⟨hroom,r',hadm⟩ | ⟨hfull,hadm⟩
    · have hhanded : handed = (SendCall.byUri uri).parts payload := SendCall.handed_some hadm
      rw [hhanded,if_neg (Nat.not_lt.2 hroom)]
      refine ⟨fun hnil => absurd hnil hne,fun _ => ?_⟩
      split
      · rename_i hlong
        unfold SendCall.parts SendCall.chunked
        rw [if_pos (decide_eq_true hlong)]
      · rename_i hshort
        rw [SendCall.byUri_whole.2 (Nat.not_lt.1 hshort)]
        rfl
    · have hhanded : handed = [] := SendCall.handed_none hadm
      rw [if_pos (Nat.not_le.1 hfull)]
      exact ⟨fun _ => rfl,fun hn => absurd hhanded hn⟩

/-- The comparison of one message, at its turn. -/
theorem PendingMessage.asDirect_iff (h : st.UpFor uri id) :
    m.AsDirect env others st id uri ↔ m.Modest st := by
  cases hs : st.shuttingDown with
  | true =>
    have hadm : (SendCall.byUri uri).admitted st m.msgType m.payload = none :=
      SendCall.admitted_down hs m.msgType m.payload
    refine ⟨fun _ => .inl hs,fun _ => ⟨?_,fun hdirect => ?_⟩⟩
    · unfold handed
      rw [if_pos hs,SendCall.handed_none hadm]
    · have hsome := hdirect.1
      rw [hadm] at hsome
      cases hsome
  | false =>
    have hwhole : m.handed st = [m.payload] := by
      unfold handed
      rw [if_neg (by simp [hs])]
    constructor
    · intro hsame
      have hpieces := hsame.pieces
      rw [hwhole] at hpieces
      rcases h.admitted hs m.msgType m.payload with ⟨hroom,r,hadm⟩ | ⟨-,hadm⟩
      · rw [SendCall.handed_some hadm] at hpieces
        exact .inr ⟨SendCall.byUri_whole.1 hpieces.symm,hroom⟩
      · rw [SendCall.handed_none hadm] at hpieces
        cases hpieces
    · rintro (hdown | ⟨hshort,hroom⟩)
      · rw [hs] at hdown
        cases hdown
      · have hparts : (SendCall.byUri uri).parts m.payload = [m.payload] :=
          SendCall.byUri_whole.2 hshort
        rcases h.admitted hs m.msgType m.payload with ⟨-,r,hadm⟩ | ⟨hfull,-⟩
        · refine ⟨?_,fun hdirect => ?_⟩
          · rw [hwhole,SendCall.handed_some hadm,hparts]
          · have hall := hdirect.2
            unfold SendCall.amid at hall
            rw [hadm,hparts] at hall
            exact hall
        · exact absurd hroom hfull

/-- What the loop does in one round. -/
theorem PendingMessage.sent (st : Impl) (id : Nat) (m : PendingMessage) :
    st.sendFrame env id m.msgType m.payload = st.sendChunks env id m.msgType (m.handed st) := by
  cases hs : st.shuttingDown with
  | true =>
    unfold Impl.sendFrame handed
    rw [if_pos hs,if_pos hs]
    rfl
  | false =>
    unfold handed
    rw [if_neg (by simp [hs])]
    rfl

/-- Modest messages are sent as the direct calls would send them, one after another. -/
theorem Impl.sendMessages_direct (h : st.UpFor uri id)
    (hm : ∀ t ∈ st.turns env id messages, t.2.Modest t.1) :
    st.sendMessages env id messages =
      messages.foldl (fun st m => (st.sendUri env uri m.msgType m.payload).1) st := by
  induction messages generalizing st with
  | nil => rfl
  | cons m messages ih =>
    have hsame : m.AsDirect env (fun _ => {}) st id uri :=
      (PendingMessage.asDirect_iff h).2 (hm (st,m) (List.mem_cons_self ..))
    have hone : (st.sendUri env uri m.msgType m.payload).1 =
        st.sendFrame env id m.msgType m.payload := by
      cases hs : st.shuttingDown with
      | true =>
        unfold sendUri sendFrame
        rw [if_pos (.inr hs),if_pos hs]
      | false =>
        have hpiece : (SendCall.byUri uri).handed st m.msgType m.payload ≠ [] := by
          rw [← hsame.pieces]
          unfold PendingMessage.handed
          simp [hs]
        rw [(h.direct m.msgType m.payload).2 hpiece,PendingMessage.sent,hsame.pieces]
    rw [List.foldl_cons,hone]
    exact ih (h.sendFrame m.msgType m.payload) (fun t ht => hm t (List.mem_cons_of_mem _ ht))

end

/-- A queued message fares as it would with `send(uri)` exactly when there is a shutdown, in which
nothing is sent, or it is no longer than two chunks and there is room for it under the global
limit; if that is so for each in its turn, the flush is the direct calls. -/
theorem flush_as_direct (env : Env) (st : Impl) (uri key : String) (id : Nat)
    (messages : List PendingMessage) (hq : st.pendingMessages.lookup key = some messages)
    (hne : messages ≠ []) (h : st.UpFor uri id) :
    let taken : Impl := { st with pendingMessages := st.pendingMessages.erase key }
    st.flushPendingMessages env key id =
      messages.foldl (fun st m => st.sendChunks env id m.msgType (m.handed st)) taken ∧
    (∀ t ∈ taken.turns env id messages,
      let handed := (SendCall.byUri uri).handed t.1 t.2.msgType t.2.payload
      ((handed = [] → (t.1.sendUri env uri t.2.msgType t.2.payload).2 = false) ∧
        (handed ≠ [] → t.1.sendUri env uri t.2.msgType t.2.payload =
          (t.1.sendChunks env id t.2.msgType handed,true))) ∧
      ∀ others, t.2.AsDirect env others t.1 id uri ↔ t.2.Modest t.1) ∧
    ((∀ t ∈ taken.turns env id messages, t.2.Modest t.1) →
      st.flushPendingMessages env key id =
        messages.foldl (fun st m => (st.sendUri env uri m.msgType m.payload).1) taken) := by
  intro taken
  have htaken : taken.UpFor uri id := ⟨h.named,h.resolved,h.up⟩
  have hflush : st.flushPendingMessages env key id = taken.sendMessages env id messages := by
    unfold Impl.flushPendingMessages
    rw [hq]
    cases messages with
    | nil => exact absurd rfl hne
    | cons m rest => rfl
  refine ⟨?_,fun t ht => ?_,fun hm => ?_⟩
  · rw [hflush]
    unfold Impl.sendMessages
    simp only [PendingMessage.sent]
  · have hup := htaken.turns ht
    exact ⟨hup.direct t.2.msgType t.2.payload,fun _ => PendingMessage.asDirect_iff hup⟩
  · rw [hflush]
    exact Impl.sendMessages_direct htaken hm

section
variable {env : Env} {me : NodeIdentity} {ops : ConnectorOps} {st : Impl} {id : Nat}
  {r : ConnectionRecord} {msgType : UInt32} {part : Bytes} {parts : List Bytes}

theorem ConnectionRecord.local_frame_length (hl : r.localhostPassthrough = true)
    (hm : isHandshakeType msgType = false) (S : Sodium) (Z : Zstd) (c : Compression) :
    (r.frame S Z c msgType part).length = headerSize+part.length := by
  have hsending : r.sending = (r.sendPacketId,r.session,r.isLocalhost,true) := by
    rw [← hl]
    rfl
  rw [frame_local hsending hm,List.length_append,Header.encode_length]

/-- With a connector that takes every frame the queue is empty again after each. -/
theorem Impl.sendPart_local (henv : env.Reliable) (h : st.Ready me ops) (hr : st.find id = some r)
    (hd : r.Direct id) (hl : r.localhostPassthrough = true) (hm : isHandshakeType msgType = false)
    (hsize : part.length ≤ chunkSize) :
    (st.sendPart env {} id msgType part).2 ≠ none ∧
      (st.sendPart env {} id msgType part).1.Ready me ops ∧
      (st.sendPart env {} id msgType part).1.find id = some (r.takePacketId.flushed id) := by
  have hlen : (r.frame env.sodium env.zstd st.compression msgType part).length ≤
      perConnMaxBytes := by
    rw [r.local_frame_length hl hm]
    have hroom : headerSize+chunkSize ≤ perConnMaxBytes := by decide
    omega
  have hmod := Acts.modify id h ConnectionRecord.takePacketId
  have hr' : (st.modify id ConnectionRecord.takePacketId).find id = some r.takePacketId := by
    rw [find_modify_self,hr,Option.map_some]
  have hbuild : (st.buildFrame env id msgType part).1 = st.modify id ConnectionRecord.takePacketId := by
    unfold buildFrame
    rw [hr]
  have hfits : st.Fits env {} id msgType part := by
    refine ⟨h.running,r,hr,?_⟩
    change ((st.buildFrame env id msgType part).1.getOrCreateQueue id).2.pendingBytes+_ ≤ _
    rw [hbuild,(hmod.ready.queue id).2.2,Nat.zero_add]
    exact hlen
  have hsend : st.sendFrame env id msgType part =
      (st.modify id ConnectionRecord.takePacketId).pushAndFlush env id
        (r.frame env.sodium env.zstd st.compression msgType part) := by
    have hsome : (r.frame env.sodium env.zstd st.compression msgType part).isEmpty = false := by
      simpa using r.frame_ne_nil env.sodium env.zstd st.compression
    unfold sendFrame buildFrame
    simp only [h.running,Bool.false_eq_true,ite_false,hr,hsome]
  obtain ⟨hpush,hfind⟩ := pushAndFlush_acts henv hmod.ready hr' hd hlen
  rw [sendPart_alone,hsend]
  refine ⟨?_,hpush.ready,hfind⟩
  rcases st.sendPart_fits env {} id msgType part with ⟨⟨p,hp,-⟩,-⟩ | ⟨-,hnot⟩
  · rw [hp]
    simp
  · exact absurd hfits hnot

theorem Impl.sendParts_local (henv : env.Reliable) (h : st.Ready me ops) (hr : st.find id = some r)
    (hd : r.Direct id) (hl : r.localhostPassthrough = true) (hm : isHandshakeType msgType = false)
    (hsize : ∀ part ∈ parts, part.length ≤ chunkSize) :
    none ∉ (st.sendParts env id msgType (fun _ => {}) parts).2 := by
  induction parts generalizing st r with
  | nil => simp [sendParts]
  | cons part parts ih =>
    obtain ⟨hsome,hready,hfind⟩ :=
      sendPart_local henv h hr hd hl hm (hsize part (List.mem_cons_self ..))
    have hrest := ih hready hfind hd.flushed hl (fun p hp => hsize p (List.mem_cons_of_mem _ hp))
    intro hmem
    rcases List.mem_cons.1 hmem with heq | hmem
    · exact hsome heq.symm
    · exact hrest hmem

end

/-- A connection on the same host has come up, and a chat message waits for it. -/
def localWaiting (payload : Bytes) : Impl :=
  { localPeer with
    records := AList.singleton 1 { localRecord with
      transportPaths := [{ transportConnId := 1, scheme := "tcp", remote := Endpoint.sample "a" 0 }] },
    pendingMessages := AList.singleton "a:1" [⟨msgTypeChat,payload,0⟩] }

/-- The state in which its turn comes. -/
def localTurn (payload : Bytes) : Impl :=
  { localWaiting payload with pendingMessages := (localWaiting payload).pendingMessages.erase "a:1" }

theorem flush_as_direct_local :
    (localWaiting [104]).flushPendingMessages (Env.sample false) "a:1" 1 =
      ((localTurn [104]).sendUri (Env.sample false) "tcp://a:1" msgTypeChat [104]).1 := by
  have hup : (localWaiting [104]).UpFor "tcp://a:1" 1 :=
    ⟨by decide,by decide +kernel,_,rfl,rfl⟩
  refine (flush_as_direct (Env.sample false) (localWaiting [104]) "tcp://a:1" "a:1" 1
    [⟨msgTypeChat,[104],0⟩] rfl (by simp) hup).2.2 ?_
  intro t ht
  rw [List.mem_singleton.1 ht]
  exact .inr ⟨by decide,by decide +kernel⟩

theorem localTurn_up (payload : Bytes) : (localTurn payload).UpFor "tcp://a:1" 1 := by
  have hresolved : localPeer.resolveUri "tcp://a:1" = some 1 := by decide +kernel
  exact ⟨by decide,hresolved,_,rfl,rfl⟩

theorem localTurn_ready (payload : Bytes) : (localTurn payload).Ready NodeIdentity.alice {} := by
  refine ⟨rfl,rfl,rfl,fun id => rfl,fun id q hq => ?_,fun key => ?_⟩
  · by_cases hid : id = 1
    · subst hid
      cases hq
      exact ⟨rfl,rfl⟩
    · rw [show (localTurn payload).sendQueues = (∅ : Table Nat PerConnQueue).insert 1 {} from rfl,
        AList.lookup_insert_ne hid] at hq
      cases hq
  · rfl

theorem localTurn_delivers {payload : Bytes} (h : payload.length = perConnMaxBytes) :
    (SendCall.byUri "tcp://a:1").Delivers (Env.sample false) (fun _ => {}) (localTurn payload)
      msgTypeChat payload := by
  have hbytes : (localTurn payload).getPendingBytes = 0 := rfl
  have hsizes : chunkSize*2 < perConnMaxBytes ∧ perConnMaxBytes ≤ globalMaxInFlight := by decide
  have hcut : (SendCall.byUri "tcp://a:1").chunked payload = true := by
    refine decide_eq_true ?_
    omega
  rcases (localTurn_up payload).admitted rfl msgTypeChat payload with ⟨-,r,hadm⟩ | ⟨hfull,-⟩
  · refine ⟨by rw [hadm]; rfl,?_⟩
    unfold SendCall.amid
    rw [hadm]
    exact Impl.sendParts_local (Env.Reliable.mk (fun _ => rfl) (fun _ => rfl))
      (localTurn_ready payload) rfl ⟨_,rfl,rfl,rfl,rfl⟩ rfl (by decide)
      (fun part hpart => ((SendCall.parts_chunked hcut).2 part hpart).2)
  · omega

/-- The header makes the frame longer than a queue may get. -/
theorem localTurn_refuses {payload : Bytes} (h : payload.length = perConnMaxBytes) :
    ((localTurn payload).sendParts (Env.sample false) 1 msgTypeChat (fun _ => {}) [payload]).2 =
      [none] := by
  rcases (localTurn payload).sendPart_fits (Env.sample false) {} 1 msgTypeChat payload with
    ⟨-,-,r,hr,hroom⟩ | ⟨hnone,-⟩
  · have hlocal : r.localhostPassthrough = true := by
      cases hr
      rfl
    have hframe := Nat.le_trans (Nat.le_add_left _ _) hroom
    rw [r.local_frame_length hlocal (by decide)] at hframe
    have hpos : 0 < headerSize := by decide
    omega
  · exact congrArg (fun o => [o]) hnone

/-- A first message of 8 MB would go out in pieces of 1 MB once the connection is up. Queued before
that it makes one frame that no queue takes, and is lost. -/
theorem first_message_lost :
    let big : Bytes := List.replicate perConnMaxBytes 0
    (SendCall.byUri "tcp://a:1").Delivers (Env.sample false) (fun _ => {}) (localTurn big)
        msgTypeChat big ∧
      ((localTurn big).sendParts (Env.sample false) 1 msgTypeChat (fun _ => {}) [big]).2 = [none] ∧
      ¬ PendingMessage.AsDirect (Env.sample false) (fun _ => {}) (localTurn big) 1 "tcp://a:1"
        ⟨msgTypeChat,big,0⟩ := by
  intro big
  have hlen : big.length = perConnMaxBytes := List.length_replicate
  have hdelivers := localTurn_delivers hlen
  have hrefuses := localTurn_refuses hlen
  refine ⟨hdelivers,hrefuses,fun hsame => ?_⟩
  have hfate := hsame.delivered hdelivers
  rw [hrefuses] at hfate
  exact hfate (List.mem_singleton.2 rfl)

end GoodNet
