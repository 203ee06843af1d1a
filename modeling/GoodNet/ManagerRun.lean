import GoodNet.ManagerDispatch
set_option autoImplicit false

/-! The manager as a transition system: the calls that plugins, connectors, timers and
the application make, and `handle_data`, which turns bytes into such calls. -/

namespace GoodNet
open Codec

/-- One atomic call into the manager. `dispatch`, `buffered` and `protocolError` are the
three things `handle_data` does; a frame may have any header and any payload. -/
inductive Event where
  | connected (ep : Endpoint)
  | addTransport (pubkeyHex : String) (ep : Endpoint) (scheme : String)
  | disconnected (id : Nat)
  | dispatch (id : Nat) (hdr : Header) (payload : Bytes)
  | buffered (id : Nat) (bytes : Bytes)
  | protocolError (id : Nat) (why : DropReason)
  | sendUri (uri : String) (msgType : UInt32) (payload : Bytes)
  | send (id : Nat) (msgType : UInt32) (payload : Bytes)
  | broadcast (msgType : UInt32) (payload : Bytes)
  | relay (exclude : Nat) (ttl : UInt8) (dest : Key) (innerFrame : Bytes)
  | heartbeats
  | cleanup
  | connect (uri : String)
  | disconnect (id : Nat)
  | closeNow (id : Nat)
  | shutdown
  | rekey (id : Nat)
  | rotate (next : NodeIdentity)
  | registerConnector (scheme : String) (ops : ConnectorOps)
  | setSchemePriority (priority : List String)
  | configure (compression : Option Compression)

/-- The connection whose bytes `handle_data` is working on. -/
def Event.concerns : Event → Option Nat
  | .dispatch id .. => some id
  | .buffered id .. => some id
  | .protocolError id .. => some id
  | _ => none

/-- Whether a call only writes a receive buffer. -/
def Event.isBuffered : Event → Bool
  | .buffered .. => true
  | _ => false

def Impl.setRecvBuf (st : Impl) (id : Nat) (bytes : Bytes) : Impl :=
  st.modify id (fun r => { r with recvBuf := bytes })

/-- Bad magic, bad version or a buffer past its limit: count the drop and close. -/
def Impl.protocolError (env : Env) (st : Impl) (id : Nat) (why : DropReason) : Impl :=
  (st.emit (.drop id why)).closeNow env id

def Event.step (env : Env) (st : Impl) : Event → Impl
  | .connected ep => (st.handleConnect env ep).1
  | .addTransport pk ep scheme => (st.handleAddTransport pk ep scheme).1
  | .disconnected id => st.handleDisconnect id
  | .dispatch id hdr payload => st.dispatchPacket env id hdr payload
  | .buffered id bytes => st.setRecvBuf id bytes
  | .protocolError id why => st.protocolError env id why
  | .sendUri uri msgType payload => (st.sendUri env uri msgType payload).1
  | .send id msgType payload => (st.send env id msgType payload).1
  | .broadcast msgType payload => st.broadcast env msgType payload
  | .relay exclude ttl dest inner => st.relay env exclude ttl dest inner
  | .heartbeats => st.checkHeartbeatTimeouts env
  | .cleanup => st.cleanupStalePending env
  | .connect uri => st.connect uri
  | .disconnect id => st.disconnect env id
  | .closeNow id => st.closeNow env id
  | .shutdown => st.shutdown env
  | .rekey id => (st.rekeySession env id).1
  | .rotate next => st.rotateIdentityKeys next
  | .registerConnector scheme ops => st.registerConnector scheme ops
  | .setSchemePriority priority => st.setSchemePriority priority
  | .configure compression => { st with config := compression }

/-- A manager as the constructor leaves it. -/
def Impl.start (identity : NodeIdentity) : Impl := { identity := identity }

def Impl.resolveTransport (st : Impl) (id : Nat) : Nat := (st.transportIndex.lookup id).getD id

/-- Calls that run while `handle_data` is inside or between its dispatches: what handlers
do, and what other threads do. -/
def Impl.perform (env : Env) (st : Impl) (events : List Event) : Impl :=
  events.foldl (Event.step env) st

/-- What `handle_data` finds in the bytes of a connection: a frame it passes to
`dispatch_packet`, with the number of unread bytes at its start, or a protocol error. -/
inductive Parsed where
  | frame (avail : Nat) (hdr : Header) (payload : Bytes)
  | error (why : DropReason)
  deriving DecidableEq, Repr

/-- One iteration per complete frame; `consumed` counts the bytes already dispatched,
which stay in the buffer until the loop is left at its end. -/
def Impl.parseLoop (env : Env) (peer : Nat) :
    Nat → Impl → Nat → List (List Event) → Impl × List Parsed
  | 0, st, _, _ => (st,[])
  | fuel+1, st, consumed, others =>
    match st.find peer with
    | none => (st,[])
    | some r =>
      let rest := r.recvBuf.drop consumed
      let hdr := Header.decode rest
      if rest.length < headerSize then (st.setRecvBuf peer rest,[])
      else if hdr.magic ≠ gnetMagic then (st.protocolError env peer .badMagic,[.error .badMagic])
      else if hdr.protoVer ≠ gnetProtoVer then
        (st.protocolError env peer .badProtoVer,[.error .badProtoVer])
      else if rest.length < headerSize+hdr.payloadLen.toNat then (st.setRecvBuf peer rest,[])
      else
        let payload := (rest.drop headerSize).take hdr.payloadLen.toNat
        let st := (st.dispatchPacket env peer hdr payload).perform env (others.headD [])
        let next :=
          parseLoop env peer fuel st (consumed+(headerSize+hdr.payloadLen.toNat)) others.tail
        (next.1,.frame rest.length hdr payload :: next.2)

/-- The zero-copy case: nothing buffered and the chunk is one well-formed frame. -/
def isWholeFrame (r : ConnectionRecord) (chunk : Bytes) : Bool :=
  let hdr := Header.decode chunk
  r.recvBuf.isEmpty && decide (headerSize ≤ chunk.length) &&
    decide (chunk.length = headerSize+hdr.payloadLen.toNat) &&
    hdr.magic == gnetMagic && hdr.protoVer == gnetProtoVer

/-- `others` lists, dispatch by dispatch, the calls that come in meanwhile. -/
def Impl.handleData (env : Env) (st : Impl) (id : Nat) (chunk : Bytes)
    (others : List (List Event)) : Impl × List Parsed :=
  if st.shuttingDown then (st,[])
  else
    let peer := st.resolveTransport id
    match st.find peer with
    | none => (st,[])
    | some r =>
      if isWholeFrame r chunk then
        let hdr := Header.decode chunk
        let payload := chunk.drop headerSize
        ((st.dispatchPacket env peer hdr payload).perform env (others.headD []),
          [.frame chunk.length hdr payload])
      else
        let buf := r.recvBuf ++ chunk
        let st := st.setRecvBuf peer buf
        if maxRecvBuf < buf.length then
          (st.protocolError env peer .recvBufOverflow,[.error .recvBufOverflow])
        else st.parseLoop env peer (buf.length+1) 0 others

/-- A call from outside: an event, or a chunk of bytes from a connector. -/
inductive Call where
  | event (e : Event)
  | data (id : Nat) (chunk : Bytes) (others : List (List Event))

def Call.step (env : Env) (st : Impl) : Call → Impl
  | .event e => e.step env st
  | .data id chunk others => (st.handleData env id chunk others).1

def Impl.run (env : Env) (st : Impl) (calls : List Call) : Impl := calls.foldl (Call.step env) st

theorem Impl.perform_append (env : Env) (st : Impl) (a b : List Event) :
    st.perform env (a ++ b) = (st.perform env a).perform env b := List.foldl_append

theorem Impl.parseLoop_events (env : Env) (peer fuel : Nat) (st : Impl) (consumed : Nat)
    (others : List (List Event)) :
    ∃ events, (st.parseLoop env peer fuel consumed others).1 = st.perform env events ∧
      ∀ e ∈ events, e.concerns = some peer ∨ e ∈ others.flatten := by
  induction fuel generalizing st consumed others with
  | zero => exact ⟨[],rfl,by simp⟩
  | succ fuel ih =>
    unfold parseLoop
    split
    · exact ⟨[],rfl,by simp⟩
    · rename_i r _
      dsimp only
      generalize r.recvBuf.drop consumed = rest
      split
      · exact ⟨[.buffered peer _],rfl,by simp [Event.concerns]⟩
      · split
        · exact ⟨[.protocolError peer .badMagic],rfl,by simp [Event.concerns]⟩
        · split
          · exact ⟨[.protocolError peer .badProtoVer],rfl,by simp [Event.concerns]⟩
          · split
            · exact ⟨[.buffered peer _],rfl,by simp [Event.concerns]⟩
            · obtain ⟨events,h,he⟩ := ih _ _ _
              refine ⟨.dispatch peer (Header.decode rest) ((rest.drop headerSize).take
                (Header.decode rest).payloadLen.toNat) :: (others.headD [] ++ events),?_,
                fun e hm => ?_⟩
              · rw [h]
                exact (perform_append env _ _ events).symm
              · cases others with
                | nil =>
                  rcases List.mem_cons.mp hm with rfl | hm
                  · exact Or.inl rfl
                  · exact he e hm
                | cons now later =>
                  rcases List.mem_cons.mp hm with rfl | hm
                  · exact Or.inl rfl
                  · rcases List.mem_append.mp hm with hm | hm
                    · exact Or.inr (List.mem_append_left _ hm)
                    · exact (he e hm).imp_right (List.mem_append_right now)

/-- Feeding bytes in is nothing but a run of events, those of its own and those that come
in meanwhile. -/
theorem Impl.handleData_events (env : Env) (st : Impl) (id : Nat) (chunk : Bytes)
    (others : List (List Event)) :
    ∃ events, (st.handleData env id chunk others).1 = st.perform env events ∧
      ∀ e ∈ events, e.concerns = some (st.resolveTransport id) ∨ e ∈ others.flatten := by
  unfold handleData
  split
  · exact ⟨[],rfl,by simp⟩
  · dsimp only
    split
    · exact ⟨[],rfl,by simp⟩
    · rename_i r _
      split
      · refine ⟨.dispatch _ _ _ :: others.headD [],rfl,fun e hm => ?_⟩
        rcases List.mem_cons.mp hm with rfl | hm
        · exact Or.inl rfl
        · cases others with
          | nil => cases hm
          | cons now later => exact Or.inr (List.mem_append_left _ hm)
      · split
        · exact ⟨[.buffered _ _,.protocolError _ .recvBufOverflow],rfl,by simp [Event.concerns]⟩
        · obtain ⟨events,h,he⟩ := parseLoop_events env _ _ _ _ _
          refine ⟨.buffered _ _ :: events,h,fun e hm => ?_⟩
          rcases List.mem_cons.mp hm with rfl | hm
          · exact Or.inl rfl
          · exact he e hm

section

/-! A small world for concrete runs: repeated bytes for keys, connectors that send
everything and either report a close at once or never. -/

def sampleKey (n : UInt8) : Key := Block.ofBytes 32 (List.replicate 32 n)

def NodeIdentity.sample (user device : UInt8) : NodeIdentity :=
  ⟨sampleKey user,Block.ofBytes 64 (List.replicate 64 user),sampleKey device,
    Block.ofBytes 64 (List.replicate 64 device)⟩

def Env.sample (closes : Bool) : Env where
  sodium := Sodium.sample
  zstd := Zstd.sample
  random n := sampleKey (UInt8.ofNat (100+n))
  sends _ := true
  closes _ := closes
  handler _ := {}
  steady n := n
  wall n := n
  hash n := n

def Endpoint.sample (address : String) (flags : UInt8) : Endpoint :=
  { address := address, port := 1, flags := flags }

/-- A frame of the given type comes in. -/
def Call.frame (id : Nat) (msgType : UInt32) (packetId : UInt64) (payload : Bytes) : Call :=
  .event (.dispatch id (frameHeader 0 msgType payload.length packetId) payload)

def Call.tcp : Call := .event (.registerConnector "tcp" {})

/-- The payload of the frame sent last. -/
def Impl.lastSent (st : Impl) : Bytes :=
  (st.log.findSome? (fun e =>
    match e with
    | .sendTo _ _ _ frame _ => some (frame.drop headerSize)
    | _ => none)).getD []

def NodeIdentity.alice : NodeIdentity := NodeIdentity.sample 1 2

def NodeIdentity.bob : NodeIdentity := NodeIdentity.sample 3 4

/-- The calls of an undisturbed exchange: the initiator opens, the responder answers, the
initiator confirms and the responder takes the confirmation. -/
def aliceOpens : List Call := [.tcp,.event (.connected (Endpoint.sample "b" epFlagOutbound))]

def bobAnswers : List Call :=
  [.tcp,.event (.connected (Endpoint.sample "a" 0)),
    .frame 1 msgTypeNoiseInit 0
      ((Impl.start NodeIdentity.alice).run (Env.sample false) aliceOpens).lastSent]

def aliceConfirms : List Call := aliceOpens ++
  [.frame 1 msgTypeNoiseResp 0
    ((Impl.start NodeIdentity.bob).run (Env.sample false) bobAnswers).lastSent]

def bobConfirms : List Call := bobAnswers ++
  [.frame 1 msgTypeNoiseFin 0
    ((Impl.start NodeIdentity.alice).run (Env.sample false) aliceConfirms).lastSent]

end

end GoodNet
