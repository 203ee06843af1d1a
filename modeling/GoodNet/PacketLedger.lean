import GoodNet.ConnectionGauge
set_option autoImplicit false

/-! The traffic counters of `SignalBus::Accum` over whole runs. Each function of the manager moves
a counter by as much as it moves frames or handshakes in the trace, so that a snapshot of the
counters can be read off the trace. -/

namespace GoodNet
open Codec Noise

/-- The counters of `accum_` that follow frames and handshakes. -/
structure TrafficAccum where
  rxBytes : UInt64 := 0
  txBytes : UInt64 := 0
  rxPackets : UInt64 := 0
  txPackets : UInt64 := 0
  authOk : UInt64 := 0
  backpressure : UInt64 := 0
  consumed : UInt64 := 0
  rejected : UInt64 := 0
  drops : DropReason → UInt64 := fun _ => 0

def TrafficAccum.emitDrop (a : TrafficAccum) (why : DropReason) : TrafficAccum :=
  { a with drops := fun d => if d = why then a.drops d+1 else a.drops d }

def TrafficAccum.emitStat (e : Effect) (a : TrafficAccum) : TrafficAccum :=
  match e with
  | .stat .rxBytes value _ => { a with rxBytes := a.rxBytes+UInt64.ofNat value }
  | .stat .txBytes value _ => { a with txBytes := a.txBytes+UInt64.ofNat value }
  | .stat .rxPacket .. => { a with rxPackets := a.rxPackets+1 }
  | .stat .txPacket value _ => { a with txPackets := a.txPackets+UInt64.ofNat value }
  | .stat .authOk .. => { a with authOk := a.authOk+1 }
  | .stat .backpressure .. => { a with backpressure := a.backpressure+1 }
  | .stat .consumed .. => { a with consumed := a.consumed+1 }
  | .stat .rejected .. => { a with rejected := a.rejected+1 }
  | .drop _ why => a.emitDrop why
  | _ => a

/-- The counters after a trace, which has its latest entry in front. -/
def trafficOf (log : List Effect) : TrafficAccum := log.foldr TrafficAccum.emitStat {}

/-- The counters that the trace has another account of. -/
inductive Tally where
  | rxPackets | rxBytes | txPackets | txBytes | authOk
  deriving DecidableEq, Repr

/-- What an entry adds to a counter. -/
def Effect.counted (e : Effect) (t : Tally) : Nat :=
  match t,e with
  | .rxPackets,.stat .rxPacket .. => 1
  | .rxBytes,.stat .rxBytes value _ => value
  | .txPackets,.stat .txPacket value _ => value
  | .txBytes,.stat .txBytes value _ => value
  | .authOk,.stat .authOk .. => 1
  | _,_ => 0

/-- What an entry is worth by itself: a payload handed on, frames a connector has taken, a
handshake that is over. -/
def Effect.happened (e : Effect) (t : Tally) : Nat :=
  match t,e with
  | .rxPackets,.deliver .. => 1
  | .rxBytes,.deliver _ _ _ _ wire _ => wire.length
  | .txPackets,.sendTo _ _ _ _ ok => if ok then 1 else 0
  | .txPackets,.sendGather _ _ _ frames ok => if ok then frames.length else 0
  | .txBytes,.sendTo _ _ _ frame ok => if ok then frame.length else 0
  | .txBytes,.sendGather _ _ _ frames ok => if ok then totalBytes frames else 0
  | .authOk,.established .. => 1
  | _,_ => 0

/-- The counter by its name in `StatsSnapshot`. -/
def TrafficAccum.reading (a : TrafficAccum) : Tally → UInt64
  | .rxPackets => a.rxPackets
  | .rxBytes => a.rxBytes
  | .txPackets => a.txPackets
  | .txBytes => a.txBytes
  | .authOk => a.authOk

def countedIn (t : Tally) (log : List Effect) : Nat := (log.map (fun e => e.counted t)).sum

def happenedIn (t : Tally) (log : List Effect) : Nat := (log.map (fun e => e.happened t)).sum

/-- How far a counter is ahead of the trace. -/
def Impl.lead (t : Tally) (st : Impl) : ℤ := countedIn t st.log-happenedIn t st.log

/-- Neither counted nor worth counting. -/
abbrev Effect.isIdle : Effect → Bool
  | .stat kind .. => kind == .backpressure || kind == .consumed || kind == .rejected ||
      kind == .connect || kind == .disconnect
  | .sendTo .. => false
  | .sendGather .. => false
  | .deliver .. => false
  | .established .. => false
  | .connect .. => true
  | .close .. => true
  | .closeNow .. => true
  | .accepted .. => true
  | .rekeyed _ => true
  | .noiseRead .. => true
  | .noiseWrite .. => true
  | .registered .. => true
  | .disconnecting .. => true
  | .duplicate .. => true
  | .direct .. => true
  | .drop .. => true
  | .connState .. => true
  | .notify .. => true
  | .transportChange .. => true

section
variable {t : Tally} {e : Effect} {env : Env} {st st' : Impl}

theorem Effect.idle_zero (h : e.isIdle = true) : e.counted t = 0 ∧ e.happened t = 0 := by
  cases e with
  | stat kind value id =>
    cases kind <;> cases t <;> first | exact ⟨rfl,rfl⟩ | simp [isIdle] at h
  | _ => cases t <;> first | exact ⟨rfl,rfl⟩ | simp [isIdle] at h

theorem Impl.emit_lead (e : Effect) (st : Impl) :
    (st.emit e).lead t = st.lead t+(e.counted t-e.happened t) := by
  simp only [lead,countedIn,happenedIn,log_emit,List.map_cons,List.sum_cons,Nat.cast_add]
  ring

@[simp] theorem Impl.emit_idle (h : e.isIdle = true) (st : Impl) :
    (st.emit e).lead t = st.lead t := by
  obtain ⟨hc,hh⟩ := Effect.idle_zero (t := t) h
  simp [emit_lead,hc,hh]

/-- Only the trace counts. -/
theorem Impl.lead_congr (h : st'.log = st.log) : st'.lead t = st.lead t := by simp [lead,h]

@[simp] theorem Impl.ask_lead (st : Impl) : st.ask.lead t = st.lead t := rfl

@[simp] theorem Impl.modify_lead (st : Impl) (id : Nat) (f : ConnectionRecord → ConnectionRecord) :
    (st.modify id f).lead t = st.lead t := rfl

@[simp] theorem Impl.modifyPath_lead (st : Impl) (id via : Nat)
    (f : TransportPath → TransportPath) : (st.modifyPath id via f).lead t = st.lead t := rfl

@[simp] theorem Impl.setQueue_lead (st : Impl) (id : Nat) (q : PerConnQueue) :
    (st.setQueue id q).lead t = st.lead t := rfl

@[simp] theorem Impl.setRecvBuf_lead (st : Impl) (id : Nat) (bytes : Bytes) :
    (st.setRecvBuf id bytes).lead t = st.lead t := rfl

@[simp] theorem Impl.eraseUri_lead (st : Impl) (key : String) :
    (st.eraseUri key).lead t = st.lead t := rfl

@[simp] theorem Impl.eraseTransport_lead (st : Impl) (id : Nat) :
    (st.eraseTransport id).lead t = st.lead t := rfl

@[simp] theorem Impl.forgetPeer_lead (st : Impl) (id : Nat) (r : ConnectionRecord) :
    (st.forgetPeer id r).lead t = st.lead t := rfl

/-- A loop keeps the lead when its body does. -/
theorem Impl.foldl_lead {α : Type} {f : Impl → α → Impl}
    (hf : ∀ (st : Impl) (a : α), (f st a).lead t = st.lead t) (xs : List α) (st : Impl) :
    (xs.foldl f st).lead t = st.lead t := by
  induction xs generalizing st with
  | nil => rfl
  | cons x xs ih => rw [List.foldl_cons,ih,hf]

/-! ### Sending -/

/-- A frame that a connector has taken is counted with its bytes, any other not at all. -/
theorem Impl.sendEach_lead (owner : ConnectionRecord) (via : Nat) (scheme : String)
    (frames : List Bytes) (st : Impl) :
    (st.sendEach env owner via scheme frames).1.lead t = st.lead t := by
  induction frames generalizing st with
  | nil => rfl
  | cons f fs ih =>
    simp only [sendEach,ih]
    cases env.sends st.asked <;> cases t <;> simp [emit_lead,Effect.counted,Effect.happened]

@[simp] theorem Impl.flushFramesToConnector_lead (st : Impl) (owner : ConnectionRecord) (via : Nat)
    (scheme : String) (ops : ConnectorOps) (frames : List Bytes) :
    (st.flushFramesToConnector env owner via scheme ops frames).1.lead t = st.lead t := by
  unfold flushFramesToConnector
  split
  · rfl
  · split
    · cases env.sends st.asked <;> cases t <;> simp [emit_lead,Effect.counted,Effect.happened]
    · exact sendEach_lead owner via scheme frames st

theorem Impl.tryPaths_lead (id : Nat) (owner : ConnectionRecord) (batch : List Bytes)
    (paths : List TransportPath) (st : Impl) :
    (st.tryPaths env id owner batch paths).1.lead t = st.lead t := by
  induction paths generalizing st with
  | nil => rfl
  | cons p ps ih =>
    unfold tryPaths
    split
    · exact ih st
    · dsimp only
      split
      · simp
      · simp [ih]

@[simp] theorem Impl.flushQueue_lead (st : Impl) (id : Nat) :
    (st.flushQueue env id).lead t = st.lead t := by
  unfold flushQueue
  split
  · rfl
  · split
    · dsimp only
      split
      · rfl
      · split
        · simp [tryPaths_lead]
        · split <;> simp [tryPaths_lead]
    · rfl

@[simp] theorem Impl.getOrCreateQueue_lead (st : Impl) (id : Nat) :
    (st.getOrCreateQueue id).1.lead t = st.lead t := by
  unfold getOrCreateQueue
  split <;> simp

@[simp] theorem Impl.pushAndFlush_lead (st : Impl) (id : Nat) (frame : Bytes) :
    (st.pushAndFlush env id frame).lead t = st.lead t := by
  unfold pushAndFlush
  dsimp only
  split <;> simp

@[simp] theorem Impl.buildFrame_lead (st : Impl) (id : Nat) (msgType : UInt32) (payload : Bytes) :
    (st.buildFrame env id msgType payload).1.lead t = st.lead t := by
  unfold buildFrame
  split <;> simp

@[simp] theorem Impl.sendFrame_lead (st : Impl) (id : Nat) (msgType : UInt32) (payload : Bytes) :
    (st.sendFrame env id msgType payload).lead t = st.lead t := by
  unfold sendFrame
  split
  · rfl
  · dsimp only
    split <;> simp

@[simp] theorem Impl.sendAll_lead (st : Impl) (ids : List Nat) (msgType : UInt32)
    (payload : Bytes) : (st.sendAll env ids msgType payload).lead t = st.lead t := by
  refine foldl_lead (fun st id => ?_) ids st
  split <;> simp

@[simp] theorem Impl.sendChunks_lead (st : Impl) (id : Nat) (msgType : UInt32)
    (parts : List Bytes) : (st.sendChunks env id msgType parts).lead t = st.lead t :=
  foldl_lead (fun st part => sendFrame_lead st id msgType part) parts st

theorem Impl.sendMessages_lead (st : Impl) (id : Nat) (messages : List PendingMessage) :
    (st.sendMessages env id messages).lead t = st.lead t := by
  induction messages generalizing st with
  | nil => rfl
  | cons m ms ih => exact (ih _).trans (sendFrame_lead st id m.msgType m.payload)

@[simp] theorem Impl.flushPendingMessages_lead (st : Impl) (key : String) (id : Nat) :
    (st.flushPendingMessages env key id).lead t = st.lead t := by
  unfold flushPendingMessages
  split
  · rfl
  · rfl
  · exact (sendMessages_lead _ id _).trans (lead_congr rfl)

@[simp] theorem Impl.enqueuePending_lead (st : Impl) (key : String) (msgType : UInt32)
    (payload : Bytes) : (st.enqueuePending env key msgType payload).1.lead t = st.lead t := by
  unfold enqueuePending
  dsimp only
  split <;> rfl

@[simp] theorem Impl.sendUri_lead (st : Impl) (uri : String) (msgType : UInt32) (payload : Bytes) :
    (st.sendUri env uri msgType payload).1.lead t = st.lead t := by
  unfold sendUri
  split
  · rfl
  · dsimp only
    split
    · split
      · simp
      · split <;> simp
    · split
      · rfl
      · split
        · simp
        · split
          · simp
          · split <;> simp

@[simp] theorem Impl.send_lead (st : Impl) (id : Nat) (msgType : UInt32) (payload : Bytes) :
    (st.send env id msgType payload).1.lead t = st.lead t := by
  unfold send
  split <;> simp

@[simp] theorem Impl.cleanupStalePending_lead (st : Impl) :
    (st.cleanupStalePending env).lead t = st.lead t := by
  unfold cleanupStalePending
  refine (foldl_lead (fun st key => ?_) _ _).trans (ask_lead st)
  split
  · rfl
  · dsimp only
    split <;> rfl

@[simp] theorem Impl.connect_lead (st : Impl) (uri : String) :
    (st.connect uri).lead t = st.lead t := by
  unfold connect
  dsimp only
  split <;> simp

/-! ### Closing -/

@[simp] theorem Impl.handleDisconnect_lead (st : Impl) (id : Nat) :
    (st.handleDisconnect id).lead t = st.lead t := by
  unfold handleDisconnect
  dsimp only
  split
  · unfold dropTransport
    dsimp only
    split
    · simp
    · split
      · simp
      · split <;> simp
  · unfold dropPeer
    split <;> simp

@[simp] theorem Impl.closed_lead (st : Impl) (via : Nat) :
    (st.closed env via).lead t = st.lead t := by
  unfold closed
  split <;> simp

@[simp] theorem Impl.closeVia_lead (st : Impl) (scheme : String) (via : Nat) :
    (st.closeVia env scheme via).1.lead t = st.lead t := by
  unfold closeVia
  split
  · split <;> simp
  · rfl

@[simp] theorem Impl.closeNowVia_lead (st : Impl) (scheme : String) (via : Nat) :
    (st.closeNowVia env scheme via).1.lead t = st.lead t := by
  unfold closeNowVia
  split
  · split
    · simp
    · split <;> simp
  · rfl

theorem Impl.closePaths_lead {close : Impl → String → Nat → Impl × Bool}
    (hclose : ∀ st scheme via, (close st scheme via).1.lead t = st.lead t)
    (paths : List TransportPath) (st : Impl) :
    (st.closePaths close paths).1.lead t = st.lead t := by
  induction paths generalizing st with
  | nil => rfl
  | cons p ps ih => simp [closePaths,ih,hclose]

@[simp] theorem Impl.markDraining_lead (st : Impl) (id : Nat) :
    (st.markDraining id).lead t = st.lead t := by
  unfold markDraining
  split <;> simp

@[simp] theorem Impl.disconnect_lead (st : Impl) (id : Nat) :
    (st.disconnect env id).lead t = st.lead t := by
  have hpaths : ∀ (paths : List TransportPath) (st : Impl),
      (st.closePaths (Impl.closeVia env) paths).1.lead t = st.lead t :=
    closePaths_lead (fun st => closeVia_lead st)
  unfold disconnect
  dsimp only
  split
  · simp
  · split <;> simp [hpaths]

@[simp] theorem Impl.closeNow_lead (st : Impl) (id : Nat) :
    (st.closeNow env id).lead t = st.lead t := by
  have hpaths : ∀ (paths : List TransportPath) (st : Impl),
      (st.closePaths (Impl.closeNowVia env) paths).1.lead t = st.lead t :=
    closePaths_lead (fun st => closeNowVia_lead st)
  unfold closeNow
  split
  · rfl
  · dsimp only
    split <;> simp [hpaths]

/-! ### The handshake -/

@[simp] theorem Impl.writeNoise_lead (st : Impl) (id : Nat) (hs : HandshakeState)
    (payload : Bytes) : (st.writeNoise env id hs payload).1.lead t = st.lead t := by
  simp [writeNoise]

@[simp] theorem Impl.readNoise_lead (st : Impl) (id : Nat) (kind : NoiseFrame)
    (hs : HandshakeState) (msg : Bytes) (capacity : Nat) :
    (st.readNoise env id kind hs msg capacity).1.lead t = st.lead t := by
  simp [readNoise]

@[simp] theorem Impl.sendNoiseInit_lead (st : Impl) (id : Nat) :
    (st.sendNoiseInit env id).lead t = st.lead t := by
  unfold sendNoiseInit
  split
  · rfl
  · dsimp only
    split <;> simp

@[simp] theorem Impl.processHandshakePayload_lead (st : Impl) (id : Nat) (data : Bytes) :
    (st.processHandshakePayload env id data).1.lead t = st.lead t := by
  unfold processHandshakePayload
  split
  · simp
  · dsimp only
    split
    · simp
    · split
      · rfl
      · split
        · simp
        · split <;> simp

@[simp] theorem Impl.scheduleTransportUpgrade_lead (st : Impl) (id : Nat) :
    (st.scheduleTransportUpgrade id).lead t = st.lead t := by
  unfold scheduleTransportUpgrade
  split
  · rfl
  · split
    · rfl
    · split
      · rfl
      · split <;> simp

@[simp] theorem Impl.removeDuplicate_lead (st : Impl) (id : Nat) (r : ConnectionRecord) :
    (st.removeDuplicate id r).lead t = st.lead t := by
  rw [← emit_idle (t := t) (e := .duplicate id r st.toRegistry) rfl st]
  exact lead_congr rfl

/-- The commit is in the trace before it is counted. -/
@[simp] theorem Impl.completeHandshake_lead (st : Impl) (id : Nat) (r : ConnectionRecord)
    (hs : HandshakeState) : (st.completeHandshake env id r hs).lead t = st.lead t := by
  have hcommit : (st.commitSession env id r hs).lead t+
      ((Effect.stat .authOk 1 id).counted t-(Effect.stat .authOk 1 id).happened t : ℤ) =
        st.lead t := by
    unfold commitSession
    rw [emit_lead]
    cases t <;> simp [Effect.counted,Effect.happened,lead]
  have hcounted : ∀ st : Impl, (st.emit (.stat .authOk 1 id)).lead t = st.lead t+
      ((Effect.stat .authOk 1 id).counted t-(Effect.stat .authOk 1 id).happened t : ℤ) :=
    emit_lead _
  unfold completeHandshake
  dsimp only
  split <;> simpa [hcounted] using hcommit

@[simp] theorem Impl.finalizeHandshake_lead (st : Impl) (id : Nat) :
    (st.finalizeHandshake env id).lead t = st.lead t := by
  unfold finalizeHandshake
  split
  · rfl
  · split
    · rfl
    · split <;> simp [rejectDuplicate]

theorem Impl.handleNoiseInit_lead (st : Impl) (id : Nat) (payload : Bytes) :
    (st.handleNoiseInit env id payload).lead t = st.lead t := by
  unfold handleNoiseInit
  split
  · rfl
  · dsimp only
    split
    · simp
    · split <;> simp

theorem Impl.handleNoiseResp_lead (st : Impl) (id : Nat) (payload : Bytes) :
    (st.handleNoiseResp env id payload).lead t = st.lead t := by
  unfold handleNoiseResp
  split
  · rfl
  · dsimp only
    unfold afterResp
    split
    · simp
    · dsimp only
      split
      · simp
      · split <;> simp

theorem Impl.handleNoiseFin_lead (st : Impl) (id : Nat) (payload : Bytes) :
    (st.handleNoiseFin env id payload).lead t = st.lead t := by
  unfold handleNoiseFin
  split
  · rfl
  · dsimp only
    unfold afterFin
    split
    · simp
    · dsimp only
      split <;> simp

/-! ### What comes in -/

@[simp] theorem Impl.relaySeen_lead (st : Impl) (inner : Header) :
    (st.relaySeen env inner).1.lead t = st.lead t := by
  unfold relaySeen
  dsimp only
  generalize (if 8192 < st.ask.relayDedup.length then _ else _) = kept
  split <;> rfl

@[simp] theorem Impl.relay_lead (st : Impl) (exclude : Nat) (ttl : UInt8) (dest : Key)
    (inner : Bytes) : (st.relay env exclude ttl dest inner).lead t = st.lead t := by
  unfold relay
  dsimp only
  split <;> simp

@[simp] theorem Impl.handleRelay_lead (st : Impl) (id : Nat) (plaintext : Bytes) :
    (st.handleRelay env id plaintext).1.lead t = st.lead t := by
  unfold handleRelay
  split
  · simp
  · dsimp only
    split
    · simp
    · split
      · simp
      · split
        · simp
        · split <;> simp

@[simp] theorem Impl.sendHeartbeat_lead (st : Impl) (id : Nat) :
    (st.sendHeartbeat env id).lead t = st.lead t := by
  unfold sendHeartbeat
  split
  · rfl
  · split <;> simp

@[simp] theorem Impl.handleHeartbeat_lead (st : Impl) (id : Nat) (payload : Bytes) :
    (st.handleHeartbeat env id payload).lead t = st.lead t := by
  unfold handleHeartbeat
  split
  · rfl
  · dsimp only
    split
    · simp
    · split <;> simp

theorem Impl.checkHeartbeatTimeouts_lead (st : Impl) :
    (st.checkHeartbeatTimeouts env).lead t = st.lead t := by
  unfold checkHeartbeatTimeouts
  refine (foldl_lead (fun st id => ?_) _ _).trans (ask_lead st)
  unfold checkHeartbeat
  split
  · rfl
  · split
    · rfl
    · split
      · simp
      · split
        · rfl
        · dsimp only
          split <;> simp

@[simp] theorem Impl.decryptFor_lead (st : Impl) (id : Nat) (s : NoiseSession) (hdr : Header)
    (payload : Bytes) : (st.decryptFor env id s hdr payload).1.lead t = st.lead t := by
  unfold decryptFor
  dsimp only
  split <;> simp

theorem Impl.openPayload_lead (st : Impl) (id : Nat) (r : ConnectionRecord) (hdr : Header)
    (payload : Bytes) : (st.openPayload env id r hdr payload).1.lead t = st.lead t := by
  unfold openPayload
  split
  · rfl
  · split
    · split <;> simp
    · split
      · rfl
      · split
        · rfl
        · dsimp only
          split <;> simp

@[simp] theorem Impl.deliver_lead (st : Impl) (id : Nat) (r : ConnectionRecord) (sink : Sink)
    (hdr : Header) (wire plain : Bytes) :
    (st.deliver id r sink hdr wire plain).lead t = st.lead t := by
  cases t <;> simp [deliver,emit_lead,Effect.counted,Effect.happened]

@[simp] theorem Impl.deliverToBus_lead (st : Impl) (id : Nat) (r : ConnectionRecord) :
    (st.deliverToBus env id r).lead t = st.lead t := by
  unfold deliverToBus
  dsimp only
  split
  · simp
  · split
    · simp
    · rfl

/-- The induction is on the depth of nested relays. -/
theorem Impl.dispatchNested_lead (depth : Nat) (st : Impl) (id : Nat) (hdr : Header)
    (payload : Bytes) : (st.dispatchNested env depth id hdr payload).lead t = st.lead t := by
  induction depth generalizing st hdr payload with
  | zero => rfl
  | succ depth ih =>
    unfold dispatchNested
    split
    · exact handleNoiseInit_lead st id payload
    · split
      · exact handleNoiseResp_lead st id payload
      · split
        · exact handleNoiseFin_lead st id payload
        · split
          · simp
          · rename_i r _
            have hopen : (st.openPayload env id r hdr payload).1.lead t = st.lead t :=
              openPayload_lead st id r hdr payload
            split
            · simp
            · split
              · rename_i h
                simpa [h] using hopen
              · rename_i next plain h
                rw [h] at hopen
                dsimp only at hopen
                split
                · simpa using hopen
                · split
                  · have hrelay : ((next.deliver id r .relay hdr payload plain).handleRelay env id
                        plain).1.lead t = st.lead t := by simpa using hopen
                    split
                    · rename_i hr
                      simpa [hr] using hrelay
                    · rename_i hr
                      rw [hr] at hrelay
                      exact (ih _ _ _).trans hrelay
                  · simpa using hopen

@[simp] theorem Impl.handleConnect_lead (st : Impl) (ep : Endpoint) :
    (st.handleConnect env ep).1.lead t = st.lead t := by
  have hinsert : (st.insertRecord env ep).lead t = st.lead t := by
    unfold insertRecord
    dsimp only
    rw [emit_idle rfl,emit_idle rfl]
    exact lead_congr rfl
  unfold handleConnect
  split
  · rfl
  · dsimp only
    split <;> simp [hinsert]

@[simp] theorem Impl.handleAddTransport_lead (st : Impl) (pubkeyHex : String) (ep : Endpoint)
    (scheme : String) : (st.handleAddTransport pubkeyHex ep scheme).1.lead t = st.lead t := by
  have hattach : ∀ peer, (st.attachTransport peer ep scheme).lead t = st.lead t := by
    intro peer
    unfold attachTransport
    dsimp only
    rw [emit_idle rfl,emit_idle rfl]
    exact lead_congr rfl
  unfold handleAddTransport
  split
  · rfl
  · dsimp only
    split
    · rfl
    · split
      · rfl
      · split
        · rfl
        · split <;> simp [hattach]

@[simp] theorem Impl.rekeySession_lead (st : Impl) (id : Nat) :
    (st.rekeySession env id).1.lead t = st.lead t := by
  unfold rekeySession
  split
  · rfl
  · split
    · rfl
    · split <;> simp

@[simp] theorem Impl.shutdown_lead (st : Impl) : (st.shutdown env).lead t = st.lead t :=
  (foldl_lead (fun st id => closeNow_lead st id) _ _).trans (lead_congr rfl)

/-- No call moves a counter away from the trace. -/
theorem Event.step_lead (e : Event) (st : Impl) : (e.step env st).lead t = st.lead t := by
  cases e with
  | dispatch id hdr payload => exact Impl.dispatchNested_lead _ st id hdr payload
  | heartbeats => exact Impl.checkHeartbeatTimeouts_lead st
  | rotate next => exact Impl.lead_congr rfl
  | registerConnector scheme ops => exact Impl.lead_congr rfl
  | setSchemePriority priority => exact Impl.lead_congr rfl
  | configure compression => exact Impl.lead_congr rfl
  | _ => simp [step,Impl.broadcast,Impl.protocolError]

theorem trafficOf_reading (t : Tally) (log : List Effect) :
    (trafficOf log).reading t = UInt64.ofNat (countedIn t log) := by
  induction log with
  | nil => cases t <;> rfl
  | cons e log ih =>
    have hstep : trafficOf (e :: log) = (trafficOf log).emitStat e := rfl
    have hcount : countedIn t (e :: log) = e.counted t+countedIn t log := by simp [countedIn]
    rw [hstep,hcount,UInt64.ofNat_add,← ih]
    cases e with
    | stat kind value id =>
      cases kind <;> cases t <;>
        simp [TrafficAccum.emitStat,TrafficAccum.reading,Effect.counted,UInt64.add_comm]
    | _ =>
      cases t <;>
        simp [TrafficAccum.emitStat,TrafficAccum.emitDrop,TrafficAccum.reading,Effect.counted]

end

/-- After any run, a snapshot of the counters shows what the trace shows: the payloads handed to
handlers and their bytes, the frames that connectors have taken and their bytes, the handshakes
that have ended. -/
theorem counters_match_trace (env : Env) (identity : NodeIdentity) (calls : List Call) (t : Tally) :
    let log := ((Impl.start identity).run env calls).log
    (trafficOf log).reading t = UInt64.ofNat (happenedIn t log) := by
  intro log
  obtain ⟨events,hrun⟩ := (Impl.start identity).run_events env calls
  have hlead : ((Impl.start identity).run env calls).lead t = 0 := by
    rw [hrun]
    exact (Impl.foldl_lead (fun st e => e.step_lead st) events (Impl.start identity)).trans
      (by simp [Impl.lead,countedIn,happenedIn,Impl.start])
  have heq : countedIn t log = happenedIn t log := by
    have hzero : (countedIn t log-happenedIn t log : ℤ) = 0 := hlead
    omega
  rw [trafficOf_reading,heq]

end GoodNet
