import GoodNet.SendRoute
import GoodNet.TcpLink
set_option autoImplicit false

/-! One application talks to another: `send` at one end, `build_frame`, the queue of the connection,
the tasks, the writer and the reader of the TCP connector with the network between them,
`handle_data` and the bus at the other end. -/

namespace GoodNet
open Codec Framing Interleaving

/-- A message that an application sends, and the call it uses. -/
structure Utterance where
  call : SendCall
  msgType : UInt32
  payload : Bytes

/-- The packets it comes out in. -/
def Utterance.pieces (u : Utterance) : List (UInt32 × Bytes) :=
  (u.call.parts u.payload).map (fun part => (u.msgType,part))

/-- All packets of a conversation, in order. -/
def said (us : List Utterance) : List (UInt32 × Bytes) := us.flatMap Utterance.pieces

def Impl.speak (env : Env) (a : Impl) (u : Utterance) : Impl :=
  (u.call.run env a u.msgType u.payload).1

/-- The call goes out on the connection, and it returns true. -/
def Impl.utters (env : Env) (id : Nat) (a : Impl) (u : Utterance) : Bool :=
  u.call.target a == some id && (u.call.run env a u.msgType u.payload).2

/-- Something to say that the bus takes and an empty queue has room for: a header and at most 20
bytes are added to a part. -/
structure Utterance.Fit (u : Utterance) : Prop where
  bus : isBusType u.msgType = true
  narrow : u.msgType.toNat < 2^16
  nonempty : u.payload ≠ []
  fits : u.call.chunked u.payload = true ∨ u.payload.length+20+headerSize ≤ perConnMaxBytes

/-- The same of a packet. -/
structure PieceFit (p : UInt32 × Bytes) : Prop where
  bus : isBusType p.1 = true
  narrow : p.1.toNat < 2^16
  nonempty : p.2 ≠ []
  fits : p.2.length+20+headerSize ≤ perConnMaxBytes

def sealedFrame (S : Sodium) (Z : Zstd) (c : Compression) (s : NoiseSession) (n : UInt64)
    (p : UInt32 × Bytes) : Bytes :=
  (frameHeader 0 p.1 (s.encrypt S Z p.2 n c).length n).encode ++ s.encrypt S Z p.2 n c

/-- Frames with packet ids in a row. -/
def sealedFrames (S : Sodium) (Z : Zstd) (c : Compression) (s : NoiseSession) :
    UInt64 → List (UInt32 × Bytes) → List Bytes
  | _, [] => []
  | n, p :: ps => sealedFrame S Z c s n p :: sealedFrames S Z c s (n+1) ps

/-- An established connection on which packet id `n` is next. -/
structure Speaks (cfg : Option Compression) (a : Impl) (i : Nat) (n : UInt64) (s : NoiseSession) :
    Prop where
  sends : a.sender i = (some (n,some s,false,false),false,cfg)
  established : ∀ r, a.find i = some r → r.established = true

section
variable (env : Env) {cfg : Option Compression} {a : Impl} {i : Nat} {n : UInt64} {s : NoiseSession}

theorem Utterance.Fit.piece {u : Utterance} (h : u.Fit) {p : UInt32 × Bytes} (hp : p ∈ u.pieces) :
    PieceFit p := by
  obtain ⟨part,hpart,rfl⟩ := List.mem_map.mp hp
  suffices hpart : part ≠ [] ∧ part.length+20+headerSize ≤ perConnMaxBytes from
    ⟨h.bus,h.narrow,hpart.1,hpart.2⟩
  cases hc : u.call.chunked u.payload with
  | true =>
    obtain ⟨hne,hlen⟩ := (SendCall.parts_chunked hc).2 part hpart
    unfold chunkSize at hlen
    exact ⟨hne,by unfold headerSize perConnMaxBytes; omega⟩
  | false =>
    rw [SendCall.parts_whole hc,List.mem_singleton] at hpart
    subst hpart
    exact ⟨h.nonempty,h.fits.resolve_left (by simp [hc])⟩

theorem next_ids (n : UInt64) (k : Nat) : n+1+UInt64.ofNat k = n+UInt64.ofNat (k+1) := by
  rw [UInt64.ofNat_add,UInt64.add_comm (UInt64.ofNat k),← UInt64.add_assoc]
  rfl

theorem sealedFrames_append (S : Sodium) (Z : Zstd) (c : Compression) (s : NoiseSession)
    (n : UInt64) (ps qs : List (UInt32 × Bytes)) :
    sealedFrames S Z c s n (ps ++ qs) =
      sealedFrames S Z c s n ps ++ sealedFrames S Z c s (n+UInt64.ofNat ps.length) qs := by
  induction ps generalizing n with
  | nil => simp [sealedFrames]
  | cons p ps ih =>
    simp [sealedFrames,ih,next_ids]

theorem sealedFrames_take (S : Sodium) (Z : Zstd) (c : Compression) (s : NoiseSession) (n : UInt64)
    (ps : List (UInt32 × Bytes)) (k : Nat) :
    (sealedFrames S Z c s n ps).take k = sealedFrames S Z c s n (ps.take k) := by
  induction ps generalizing n k with
  | nil => simp [sealedFrames]
  | cons p ps ih =>
    cases k with
    | zero => rfl
    | succ k => simp [sealedFrames,ih]

/-- One part goes out under the next packet id. -/
theorem Speaks.sendFrame (h : Speaks cfg a i n s) (msgType : UInt32) (part : Bytes) :
    Speaks cfg (a.sendFrame env i msgType part) i (n+1) s := by
  obtain ⟨_,_,_,hnext⟩ := Impl.builtFor_cons env h.sends msgType part []
  refine ⟨hnext,fun r hr => ?_⟩
  obtain ⟨r₀,hr₀,hc⟩ := (a.sendFrame_outward env i msgType part).find_some hr
  rw [← ConnectionRecord.core_field ConnectionRecord.established (fun _ => rfl) hc]
  exact h.established r₀ hr₀

end

section
variable {env env' : Env} {cfg : Option Compression} {a b : Impl} {i j peer : Nat} {n : UInt64}
  {s t : NoiseSession} {r : ConnectionRecord}

/-- Encrypted, a packet has 20 bytes more at most. -/
theorem PieceFit.body {p : UInt32 × Bytes} (h : PieceFit p) (Z : Zstd) (c : Compression) :
    (sessionBody Z c p.2).length+macLen+headerSize ≤ perConnMaxBytes ∧ Survives Z c p.2 := by
  have hfits := h.fits
  unfold headerSize perConnMaxBytes at hfits
  unfold sessionBody Survives headerSize perConnMaxBytes maxOrigSize macLen
  cases hc : compressed Z c p.2 with
  | none =>
    simp only [List.length_cons]
    exact ⟨by omega,h.nonempty,by omega⟩
  | some out =>
    obtain ⟨_,hlen⟩ := compressed_some hc
    simp only [List.length_cons,List.length_append,leBytes_length]
    exact ⟨by omega,h.nonempty,by omega⟩

theorem PieceFit.sealed_length {p : UInt32 × Bytes} (h : PieceFit p) {S : Sodium} (hS : S.Seals)
    (Z : Zstd) (c : Compression) (s : NoiseSession) (n : UInt64) :
    (sealedFrame S Z c s n p).length ≤ perConnMaxBytes := by
  have hbody := (h.body Z c).1
  unfold sealedFrame
  rw [List.length_append,Header.encode_length,(s.encrypt_opens hS p.2 n c).2]
  omega

theorem PieceFit.carried {p : UInt32 × Bytes} (h : PieceFit p) {S : Sodium} (hS : S.Seals)
    (Z : Zstd) (c : Compression) (s : NoiseSession) (n : UInt64) :
    ∃ f : Frame, f.wire = sealedFrame S Z c s n p ∧ f.Carried := by
  have hbody := (h.body Z c).1
  have hlen := (s.encrypt_opens (Z := Z) hS p.2 n c).2
  have hsmall : (s.encrypt S Z p.2 n c).length ≤ tcpMaxPayload := by
    unfold perConnMaxBytes at hbody
    unfold tcpMaxPayload
    omega
  have hfit : (s.encrypt S Z p.2 n c).length =
      (frameHeader 0 p.1 (s.encrypt S Z p.2 n c).length n).payloadLen.toNat := by
    unfold tcpMaxPayload at hsmall
    unfold frameHeader
    rw [UInt32.toNat_ofNat_of_lt']
    exact Nat.lt_of_le_of_lt hsmall (by decide)
  exact ⟨⟨_,_,hfit⟩,rfl,⟨rfl,rfl⟩,hsmall⟩

theorem carried_frames {ps : List (UInt32 × Bytes)} (hf : ∀ p ∈ ps, PieceFit p) {S : Sodium}
    (hS : S.Seals) (Z : Zstd) (c : Compression) (s : NoiseSession) (n : UInt64) :
    ∃ frames : List Frame, frames.map Frame.wire = sealedFrames S Z c s n ps ∧
      ∀ f ∈ frames, f.Carried := by
  induction ps generalizing n with
  | nil => exact ⟨[],rfl,by simp⟩
  | cons p ps ih =>
    obtain ⟨hp,hps⟩ := List.forall_mem_cons.mp hf
    obtain ⟨f,hwire,hcarried⟩ := hp.carried hS Z c s n
    obtain ⟨frames,hwires,hall⟩ := ih hps (n+1)
    exact ⟨f :: frames,by rw [List.map_cons,hwire,hwires]; rfl,
      List.forall_mem_cons.mpr ⟨hcarried,hall⟩⟩

/-- A window that has seen lower ids only takes the next one. -/
theorem NonceWindow.accept_next {w : NonceWindow} {n : UInt64} (h : w.highestNonce < n) :
    (w.accept n).2 = true ∧ (w.accept n).1.highestNonce = n := by
  have hpos : n ≠ 0 := by
    rintro rfl
    exact absurd h (by simp)
  unfold accept
  by_cases hz : w.highestNonce = 0
  · simp [hpos,hz]
  · simp [hpos,hz,h]

/-- Packets that come in with ids in a row are all given to the bus. -/
theorem Hop.feed_sealed (h : Hop b peer t r) (hl : b.Listens j peer) (hp : peer < b.nextId)
    {S : Sodium} {Z : Zstd} (hS : S.Seals) (hZ : Z.Restores) (hs : env'.sodium = S)
    (hz : env'.zstd = Z) (hkey : s.sendKey = t.recvKey) {ps : List (UInt32 × Bytes)}
    (hf : ∀ p ∈ ps, PieceFit p) (hw : t.recvWindow.highestNonce < n)
    (hn : n.toNat+ps.length < 2^64) (c : Compression) :
    (b.feed env' j (sealedFrames S Z c s n ps)).onBus = ps.reverse ++ b.onBus := by
  induction ps generalizing b t r n with
  | nil => rfl
  | cons p ps ih =>
    obtain ⟨hfit,hfits⟩ := List.forall_mem_cons.mp hf
    obtain ⟨hbody,hsurvives⟩ := hfit.body Z c
    obtain ⟨hacc,hhigh⟩ := NonceWindow.accept_next hw
    have hlen : (s.encrypt S Z p.2 n c).length < 2^32 := by
      rw [(s.encrypt_opens hS p.2 n c).2]
      exact hsurvives.length
    obtain ⟨hout,hafter⟩ := NoiseSession.decrypt_encrypt (Z := Z) hS hkey p.2 n c
    obtain ⟨b',r',hb',hhop,hlisten,hknown,honBus⟩ :
      ∃ st' r', st' = (b.handleData env' j (sealedFrame S Z c s n p) []).1 ∧ _ :=
        h.takes hl hp hfit.narrow hfit.bus hlen n
    rw [hs,hz] at hhop honBus
    rw [hafter] at hhop
    have hopen : (t.decrypt S Z (s.encrypt S Z p.2 n c) n).2 = p.2 := by
      rw [hout,hacc]
      rcases openBody_cases hZ hsurvives.length with ⟨_,ho⟩ | ⟨hno,_⟩
      · simpa using ho
      · exact absurd hsurvives hno
    have hgot : b'.onBus = p :: b.onBus := by
      rw [honBus,hopen]
      simp [hfit.nonempty]
    have hsucc : (n+1).toNat = n.toNat+1 := by
      have hlt : n.toNat+1 < 2^64 := by
        simp only [List.length_cons] at hn
        omega
      rw [UInt64.toNat_add,UInt64.toNat_one,Nat.mod_eq_of_lt hlt]
    have hnext : (t.afterOwn n).recvWindow.highestNonce < n+1 := by
      unfold NoiseSession.afterOwn
      rw [hhigh,UInt64.lt_iff_toNat_lt,hsucc]
      omega
    have hrest := ih hhop hlisten hknown hkey hfits hnext (by
      rw [hsucc]
      simp only [List.length_cons] at hn
      omega)
    have hfeed : b.feed env' j (sealedFrames S Z c s n (p :: ps)) =
        b'.feed env' j (sealedFrames S Z c s (n+1) ps) := by
      rw [hb']
      rfl
    rw [hfeed,hrest,hgot]
    simp

end

/-- What the reader has told the core, the words of a disconnect apart. -/
def TcpLink.told (l : TcpLink) : List Bytes := l.reader.notes.filterMap ReadNote.spanOf

section
variable {errs : ReadError → Prop} {l : TcpLink} {frames : List Frame}

theorem TcpLink.Flows.told (h : l.Flows errs) (hv : ∀ f ∈ frames, f.Carried)
    (hf : l.sender.enqueued = frames.map Frame.wire) : l.told <+: frames.map Frame.wire := by
  obtain ⟨units,last,hreads⟩ := h.reads
  obtain ⟨missing,hs,_⟩ := h.stream hf
  unfold TcpLink.told
  rw [hreads.spans]
  exact List.IsPrefix.trans ⟨_,hreads.cut.1.symm⟩ (cut_of_carried hv hs).1

theorem TcpLink.Flows.told_all (h : l.Flows (fun _ => False)) (hv : ∀ f ∈ frames, f.Carried)
    (hf : l.sender.enqueued = frames.map Frame.wire) (hrest : l.Rests) :
    l.told = frames.map Frame.wire := by
  obtain ⟨hw,hi,hsock⟩ := hrest
  obtain ⟨units,last,hreads⟩ := h.reads
  obtain ⟨missing,hs,hnone⟩ := h.stream hf
  unfold TcpLink.told
  rw [hreads.notes_drained (Or.inl hsock),readNotes_carried hv hs,
    (cut_of_carried hv hs).2.2 (hnone hw hi),ReadNote.span_data]

end

/-- The core that an application talks through, the sends and the writer of its TCP connector, the
bytes under way and the reader at the other end. `handed` are the calls of `do_send` and
`do_send_gather` that a `send` under way makes and that have not got to their `asio::post`. -/
structure Conversation where
  core : Impl
  handed : List (List Bytes) := []
  sends : TcpSends := {}
  inFlight : Bytes := []
  reader : TcpReader := {}

inductive ConversationStep where
  | speak (u : Utterance)
  | post
  | runTask (i : Nat)
  | startWrite
  | transmit (i n : Nat)
  | complete (i : Nat)
  | deliver (n : Nat)
  | readSome (n : Nat)
  | fail (ec : ReadError)

def ConversationStep.utterance : ConversationStep → Option Utterance
  | .speak u => some u
  | .post | .runTask _ | .startWrite | .transmit .. | .complete _ => none
  | .deliver _ | .readSome _ | .fail _ => none

/-- The messages of a run, in the order of the calls. -/
def uttered (steps : List ConversationStep) : List Utterance :=
  steps.filterMap ConversationStep.utterance

/-- What comes after the tasks: the connection and the bytes on it. -/
def Conversation.link (t : Conversation) : TcpLink := ⟨t.sends.conn,t.inFlight,t.reader⟩

/-- No call and no task is left, and nothing to write, to bring or to read. -/
def Conversation.Over (t : Conversation) : Prop :=
  t.handed = [] ∧ t.sends.posted = [] ∧ t.link.Rests

instance (t : Conversation) : Decidable t.Over :=
  inferInstanceAs (Decidable (t.handed = [] ∧ t.sends.posted = [] ∧
    t.link.sender.writing = false ∧ t.link.inFlight = [] ∧ t.link.reader.socket = []))

/-- A call of `send`. The connector's own threads may come in between any two of the calls that the
core makes to the connector. -/
def Conversation.speak (env : Env) (via : Nat) (t : Conversation) (u : Utterance) : Conversation :=
  let core := t.core.speak env u
  { t with
    core := core,
    handed := t.handed ++ (core.callsVia "tcp" via).drop (t.core.callsVia "tcp" via).length }

/-- The next of the calls posts its frames. -/
def Conversation.post (t : Conversation) : Conversation :=
  match t.handed with
  | [] => t
  | frames :: rest => { t with handed := rest, sends := t.sends.post frames }

/-- A step of the connector. The new bytes of its socket are under way. -/
def Conversation.connector (t : Conversation) (a : TcpSendStep) : Conversation :=
  { t with
    sends := t.sends.act a,
    inFlight := t.inFlight ++ (t.sends.act a).conn.socket.drop t.sends.conn.socket.length }

def Conversation.act (env : Env) (via : Nat) (t : Conversation) : ConversationStep → Conversation
  | .speak u => t.speak env via u
  | .post => t.post
  | .runTask i => t.connector (.runTask i)
  | .startWrite => t.connector .startWrite
  | .transmit i n => t.connector (.transmit i n)
  | .complete i => t.connector (.complete i)
  | .deliver n =>
    { t with
      inFlight := t.inFlight.drop n,
      reader := t.reader.act (.arrive (t.inFlight.take n)) }
  | .readSome n => { t with reader := t.reader.act (.readSome n) }
  | .fail ec => { t with reader := t.reader.act (.fail ec) }

/-- Every call is about the connection and returns true, and the tasks run in the order they were
posted in. -/
def Conversation.Orderly (env : Env) (id : Nat) (t : Conversation) : ConversationStep → Prop
  | .speak u => t.core.utters env id u = true
  | .runTask i => i = 0
  | _ => True

instance (env : Env) (id : Nat) (t : Conversation) :
    (a : ConversationStep) → Decidable (t.Orderly env id a)
  | .speak u => inferInstanceAs (Decidable (t.core.utters env id u = true))
  | .runTask i => inferInstanceAs (Decidable (i = 0))
  | .post | .startWrite | .transmit .. | .complete _ | .deliver _ | .readSome _ | .fail _ =>
    inferInstanceAs (Decidable True)

/-- The core has called the connector for the packets of `us`, each in a frame of its own, and the
connector takes them to the other end. -/
structure Conversation.Sound (env : Env) (cfg : Option Compression) (s : NoiseSession) (n : UInt64)
    (i via : Nat) (errs : ReadError → Prop) (us : List Utterance) (t : Conversation) : Prop where
  speaks : Speaks cfg t.core i (n+UInt64.ofNat (said us).length) s
  clear : t.core.Clear i "tcp" via
  lined : t.sends.Lined
  called : t.sends.called ++ t.handed =
    (sealedFrames env.sodium env.zstd (cfg.getD {}) s n (said us)).map (fun f => [f])
  flows : t.link.Flows errs

section
variable {env : Env} {cfg : Option Compression} {a : Impl} {i via : Nat} {n : UInt64}
  {s : NoiseSession} {scheme : String} {errs : ReadError → Prop} {us : List Utterance}
  {t : Conversation}

theorem Speaks.record (h : Speaks cfg a i n s) : ∃ r, a.find i = some r ∧
    r.sending = (n,some s,false,false) ∧ a.compression = cfg.getD {} := by
  have hsends := h.sends
  unfold Impl.sender at hsends
  obtain ⟨hfind,_,hcfg⟩ := by simpa only [Prod.mk.injEq] using hsends
  obtain ⟨r,hr,hsending⟩ := Option.map_eq_some_iff.mp hfind
  exact ⟨r,hr,hsending,by rw [Impl.compression,hcfg]⟩

/-- By induction on the parts: each of them is handed over at once, in a frame of its own. -/
theorem Speaks.sendChunks (hsends : ∀ k, env.sends k = true) (hS : env.sodium.Seals)
    (h : Speaks cfg a i n s) (hc : a.Clear i scheme via) {msgType : UInt32} {parts : List Bytes}
    (hf : ∀ part ∈ parts, PieceFit (msgType,part)) :
    Speaks cfg (a.sendChunks env i msgType parts) i (n+UInt64.ofNat parts.length) s ∧
      (a.sendChunks env i msgType parts).Clear i scheme via ∧
      (a.sendChunks env i msgType parts).callsVia scheme via = a.callsVia scheme via ++
        (sealedFrames env.sodium env.zstd (cfg.getD {}) s n
          (parts.map (fun part => (msgType,part)))).map (fun f => [f]) := by
  induction parts generalizing a n with
  | nil =>
    have hsame : n+UInt64.ofNat ([] : List Bytes).length = n := by simp
    rw [hsame]
    exact ⟨h,hc,(List.append_nil _).symm⟩
  | cons part parts ih =>
    obtain ⟨hpart,hparts⟩ := List.forall_mem_cons.mp hf
    obtain ⟨r,hr,hsending,hcfg⟩ := h.record
    have hframe : r.frame env.sodium env.zstd a.compression msgType part =
        sealedFrame env.sodium env.zstd (cfg.getD {}) s n (msgType,part) := by
      rw [hcfg]
      exact ConnectionRecord.frame_remote hsending (isBusType_cases hpart.bus).1 part
    obtain ⟨hclear,hcalls⟩ := hc.sendFrame hsends hr msgType part (by
      rw [hframe]
      exact hpart.sealed_length hS env.zstd (cfg.getD {}) s n)
    obtain ⟨hlast,hend,hall⟩ := ih (h.sendFrame env msgType part) hclear hparts
    rw [next_ids] at hlast
    refine ⟨hlast,hend,hall.trans ?_⟩
    rw [hcalls,hframe,List.append_assoc]
    rfl

/-- One call: its frames take the next packet ids. -/
theorem Speaks.speak (hsends : ∀ k, env.sends k = true) (hS : env.sodium.Seals)
    (h : Speaks cfg a i n s) (hc : a.Clear i scheme via) {u : Utterance} (hf : u.Fit)
    (hu : a.utters env i u = true) :
    Speaks cfg (a.speak env u) i (n+UInt64.ofNat u.pieces.length) s ∧
      (a.speak env u).Clear i scheme via ∧
      (a.speak env u).callsVia scheme via = a.callsVia scheme via ++
        (sealedFrames env.sodium env.zstd (cfg.getD {}) s n u.pieces).map (fun f => [f]) := by
  obtain ⟨htarget,htrue⟩ := Bool.and_eq_true_iff.mp hu
  obtain ⟨r,hr,_⟩ := h.record
  have hrun := SendCall.run_parts (by simpa using htarget) hr (h.established r hr) htrue
  obtain ⟨hsame,hentry⟩ : Speaks cfg (u.call.entry a r u.msgType) i n s ∧
      (u.call.entry a r u.msgType).Clear i scheme via ∧
      (u.call.entry a r u.msgType).callsVia scheme via = a.callsVia scheme via := by
    cases u.call with
    | byId id => exact ⟨⟨h.sends,h.established⟩,⟨hc.running,hc.queue,hc.outlet⟩,rfl⟩
    | byUri uri => exact ⟨h,hc,rfl⟩
  have hsent := hsame.sendChunks hsends hS hentry.1
    (fun part hpart => hf.piece (List.mem_map.mpr ⟨part,hpart,rfl⟩))
  unfold Impl.speak Utterance.pieces
  rw [hrun,List.length_map,← hentry.2]
  exact hsent

/-- To the connection a step of the connector is one of the writer, or nothing. -/
theorem TcpSends.act_conn (s : TcpSends) (a : TcpSendStep) :
    (s.act a).conn = s.conn ∨ ∃ w, (s.act a).conn = s.conn.act w := by
  cases a with
  | doSend data => exact .inl rfl
  | doSendGather iov => exact .inl rfl
  | runTask i =>
    cases hp : s.posted[i]? with
    | none => exact .inl (by simp [act,hp])
    | some frames => exact .inr ⟨.enqueue frames,by simp [act,hp,TcpConnection.act]⟩
  | startWrite => exact .inr ⟨.startWrite,rfl⟩
  | transmit i n => exact .inr ⟨.transmit i n,rfl⟩
  | complete i => exact .inr ⟨.complete i,rfl⟩

theorem TcpSends.runTask_called (s : TcpSends) (k : Nat) :
    (s.act (.runTask k)).called = s.called := by
  simp only [act]
  split <;> rfl

theorem Conversation.connector_flows (h : t.link.Flows errs) (a : TcpSendStep) :
    (t.connector a).link.Flows errs := by
  rcases t.sends.act_conn a with hsame | ⟨w,hw⟩
  · have hlink : (t.connector a).link = t.link := by
      simp [connector,link,hsame]
    rw [hlink]
    exact h
  · have hlink : (t.connector a).link = t.link.act (.write w) := by
      simp [connector,link,hw,TcpLink.act]
    rw [hlink]
    exact h.act (fun ec hec => by cases hec)

theorem Conversation.Sound.connector (h : t.Sound env cfg s n i via errs us) {a : TcpSendStep}
    (ha : t.sends.Fifo a) (hc : (t.sends.act a).called = t.sends.called) :
    (t.connector a).Sound env cfg s n i via errs us :=
  ⟨h.speaks,h.clear,h.lined.act ha,(congrArg (· ++ t.handed) hc).trans h.called,
    connector_flows h.flows a⟩

/-- A step at the other end leaves the sender alone. -/
theorem Conversation.Sound.reader (h : t.Sound env cfg s n i via errs us) {a : TcpLinkStep}
    (ha : ∀ ec, a = .fail ec → errs ec) (hs : (t.link.act a).sender = t.sends.conn) :
    ({ t with inFlight := (t.link.act a).inFlight, reader := (t.link.act a).reader } :
      Conversation).Sound env cfg s n i via errs us := by
  refine ⟨h.speaks,h.clear,h.lined,h.called,?_⟩
  change TcpLink.Flows errs ⟨t.sends.conn,_,_⟩
  rw [← hs]
  exact h.flows.act ha

theorem Conversation.Sound.speak (hsends : ∀ k, env.sends k = true) (hS : env.sodium.Seals)
    (h : t.Sound env cfg s n i via errs us) {u : Utterance} (hf : u.Fit)
    (hu : t.core.utters env i u = true) :
    (t.speak env via u).Sound env cfg s n i via errs (us ++ [u]) := by
  obtain ⟨hspeaks,hclear,hcalls⟩ := h.speaks.speak hsends hS h.clear hf hu
  have hsaid : said (us ++ [u]) = said us ++ u.pieces := by simp [said]
  have hnew : ((t.core.speak env u).callsVia "tcp" via).drop (t.core.callsVia "tcp" via).length =
      (sealedFrames env.sodium env.zstd (cfg.getD {}) s (n+UInt64.ofNat (said us).length)
        u.pieces).map (fun f => [f]) := by
    rw [hcalls,List.drop_left]
  refine ⟨?_,hclear,h.lined,?_,h.flows⟩
  · rw [hsaid,List.length_append,UInt64.ofNat_add,← UInt64.add_assoc]
    exact hspeaks
  · unfold Conversation.speak
    dsimp only
    rw [hnew,← List.append_assoc,h.called,hsaid,sealedFrames_append,List.map_append]

theorem Conversation.Sound.post (h : t.Sound env cfg s n i via errs us) :
    t.post.Sound env cfg s n i via errs us := by
  unfold Conversation.post
  split
  · exact h
  · rename_i frames rest hhanded
    have hcalled := h.called
    rw [hhanded] at hcalled
    refine ⟨h.speaks,h.clear,h.lined.post frames,?_,h.flows⟩
    simpa [TcpSends.post] using hcalled

theorem Conversation.Sound.unsaid (h : t.Sound env cfg s n i via errs us) {a : ConversationStep}
    (ha : a.utterance = none) : t.Sound env cfg s n i via errs (us ++ a.utterance.toList) := by
  rw [ha,Option.toList_none,List.append_nil]
  exact h

theorem Conversation.Sound.act (hsends : ∀ k, env.sends k = true) (hS : env.sodium.Seals)
    (h : t.Sound env cfg s n i via errs us) {a : ConversationStep} (ha : t.Orderly env i a)
    (hf : ∀ u ∈ a.utterance, u.Fit) (he : ∀ ec, a = .fail ec → errs ec) :
    (t.act env via a).Sound env cfg s n i via errs (us ++ a.utterance.toList) := by
  cases a with
  | speak u => exact h.speak hsends hS (hf u rfl) ha
  | post => exact h.post.unsaid rfl
  | runTask k =>
    have hrun := h.connector (a := .runTask k) ha (t.sends.runTask_called k)
    exact hrun.unsaid rfl
  | startWrite => exact (h.connector (a := .startWrite) trivial rfl).unsaid rfl
  | transmit k m => exact (h.connector (a := .transmit k m) trivial rfl).unsaid rfl
  | complete k => exact (h.connector (a := .complete k) trivial rfl).unsaid rfl
  | deliver m => exact (h.reader (a := .deliver m) (fun _ => nofun) rfl).unsaid rfl
  | readSome m => exact (h.reader (a := .readSome m) (fun _ => nofun) rfl).unsaid rfl
  | fail ec =>
    have hend := h.reader (a := .fail ec) (fun ec' hec => by cases hec; exact he ec rfl) rfl
    exact hend.unsaid rfl

/-- By induction on the run. -/
theorem Conversation.Sound.run (hsends : ∀ k, env.sends k = true) (hS : env.sodium.Seals)
    (h : t.Sound env cfg s n i via errs us) {steps : List ConversationStep}
    (hgo : Along (Conversation.act env via) (Conversation.Orderly env i) t steps)
    (hf : ∀ u ∈ uttered steps, u.Fit) (he : ∀ ec, .fail ec ∈ steps → errs ec) :
    (Interleaving.run (Conversation.act env via) t steps).Sound env cfg s n i via errs
      (us ++ uttered steps) := by
  induction steps generalizing t us with
  | nil =>
    rw [uttered,List.filterMap_nil,List.append_nil]
    exact h
  | cons a steps ih =>
    have hcons : uttered (a :: steps) = a.utterance.toList ++ uttered steps := by
      unfold uttered
      rw [List.filterMap_cons]
      cases a.utterance <;> rfl
    rw [hcons] at hf ⊢
    rw [← List.append_assoc]
    have hstep := h.act hsends hS hgo.1
      (fun u hu => hf u (List.mem_append_left _ (Option.mem_toList.mpr hu)))
      (fun ec hec => he ec (hec ▸ List.mem_cons_self))
    exact ih hstep hgo.2 (fun u hu => hf u (List.mem_append_right _ hu))
      (fun ec hec => he ec (List.mem_cons_of_mem a hec))

/-- What is enqueued are the frames of the first packets, and of all of them when no call and no
task is left. -/
theorem Conversation.Sound.enqueued (h : t.Sound env cfg s n i via errs us) :
    (∃ m, t.sends.conn.enqueued =
      sealedFrames env.sodium env.zstd (cfg.getD {}) s n ((said us).take m)) ∧
    (t.handed = [] → t.sends.posted = [] → t.sends.conn.enqueued =
      sealedFrames env.sodium env.zstd (cfg.getD {}) s n (said us)) := by
  have hcalls : t.sends.conn.enqueued ++ (t.sends.posted.flatten ++ t.handed.flatten) =
      sealedFrames env.sodium env.zstd (cfg.getD {}) s n (said us) := by
    rw [← List.append_assoc,h.lined.calls,← List.flatten_append,h.called,← List.flatMap_def,
      List.flatMap_singleton']
  refine ⟨⟨t.sends.conn.enqueued.length,?_⟩,fun hh hp => ?_⟩
  · rw [← sealedFrames_take,← hcalls,List.take_left]
  · simpa [hh,hp] using hcalls

theorem Conversation.Sound.told (h : t.Sound env cfg s n i via errs us) (hS : env.sodium.Seals)
    (hf : ∀ p ∈ said us, PieceFit p) :
    ∃ k, t.link.told = sealedFrames env.sodium env.zstd (cfg.getD {}) s n ((said us).take k) := by
  obtain ⟨m,hm⟩ := h.enqueued.1
  obtain ⟨frames,hwires,hcarried⟩ := carried_frames (fun p hp => hf p (List.mem_of_mem_take hp)) hS
    env.zstd (cfg.getD {}) s n
  have htold := h.flows.told hcarried (hm.trans hwires.symm)
  rw [hwires] at htold
  have htaken := List.prefix_iff_eq_take.mp htold
  rw [sealedFrames_take,List.take_take] at htaken
  exact ⟨_,htaken⟩

theorem Conversation.Sound.told_all (h : t.Sound env cfg s n i via (fun _ => False) us)
    (hS : env.sodium.Seals) (hf : ∀ p ∈ said us, PieceFit p) (hover : t.Over) :
    t.link.told = sealedFrames env.sodium env.zstd (cfg.getD {}) s n (said us) := by
  obtain ⟨frames,hwires,hcarried⟩ := carried_frames hf hS env.zstd (cfg.getD {}) s n
  rw [h.flows.told_all hcarried ((h.enqueued.2 hover.1 hover.2.1).trans hwires.symm)
    hover.2.2,hwires]

end

/-- Messages on an encrypted connection over TCP, while the sender's core does nothing else, the
tasks run in the order they were posted in, and the sockets and the network cut the bytes up as
they like: the other end's bus is given their packets from the first one on, in order, each once
and with its bytes. When no call and no task is left and nothing to write, to bring or to read, it
has been given all of them. A payload is its packets put together. -/
theorem conversation_delivered (env env' : Env) (a b : Impl) (i j peer via : Nat)
    (ra rb : ConnectionRecord) (s t : NoiseSession) (steps : List ConversationStep)
    (hS : env.sodium.Seals) (hZ : env.zstd.Restores) (hs : env'.sodium = env.sodium)
    (hz : env'.zstd = env.zstd) (h : Endpoints env env' a i ra b j peer rb)
    (hla : ra.isLocalhost = false) (hlb : rb.isLocalhost = false) (hsa : ra.session = some s)
    (htb : rb.session = some t) (hkey : s.sendKey = t.recvKey) (hub : b.shuttingDown = false)
    (hsends : ∀ k, env.sends k = true) (hclear : a.Clear i "tcp" via)
    (hgo : Along (Conversation.act env via) (Conversation.Orderly env i) { core := a } steps)
    (hf : ∀ u ∈ uttered steps, u.Fit) (hw : t.recvWindow.highestNonce < ra.sendPacketId)
    (hn : ra.sendPacketId.toNat+(said (uttered steps)).length < 2^64) :
    let talk := Interleaving.run (Conversation.act env via) { core := a } steps
    (∃ k, (b.feed env' j talk.link.told).onBus =
      ((said (uttered steps)).take k).reverse ++ b.onBus) ∧
    ((∀ ec, .fail ec ∉ steps) → talk.Over →
      (b.feed env' j talk.link.told).onBus = (said (uttered steps)).reverse ++ b.onBus) ∧
    ∀ u ∈ uttered steps, (u.pieces.map Prod.snd).flatten = u.payload := by
  intro talk
  have hends := h.sealed hla hlb hsa htb hkey hclear.running hub
  have hpieces : ∀ p ∈ said (uttered steps), PieceFit p := by
    intro p hp
    obtain ⟨u,hu,hpu⟩ := List.mem_flatMap.mp hp
    exact (hf u hu).piece hpu
  have hnew : ∀ errs, Conversation.Sound env a.config s ra.sendPacketId i via errs []
      { core := a } := by
    intro errs
    have hspeaks : Speaks a.config a i ra.sendPacketId s :=
      ⟨hends.sends,fun r hr => by cases hr.symm.trans h.outlet; exact h.established.1⟩
    refine ⟨?_,hclear,⟨TcpConnection.paced_new,rfl⟩,rfl,TcpLink.flows_new⟩
    have hsame : ra.sendPacketId+UInt64.ofNat (said []).length = ra.sendPacketId := by simp [said]
    rw [hsame]
    exact hspeaks
  have hfeed : ∀ ps : List (UInt32 × Bytes), ps <+: said (uttered steps) →
      (b.feed env' j (sealedFrames env.sodium env.zstd (a.config.getD {}) s ra.sendPacketId
        ps)).onBus = ps.reverse ++ b.onBus := by
    intro ps hps
    refine hends.hop.feed_sealed hends.listens hends.known hS hZ hs hz hkey
      (fun p hp => hpieces p (hps.subset hp)) hw ?_ _
    have hle := hps.length_le
    omega
  refine ⟨?_,fun hno hover => ?_,fun u _ => ?_⟩
  · have hsound := (hnew (fun _ => True)).run hsends hS hgo hf (fun _ _ => trivial)
    obtain ⟨k,hk⟩ := hsound.told hS hpieces
    exact ⟨k,by rw [hk]; exact hfeed _ (List.take_prefix k _)⟩
  · have hsound := (hnew (fun _ => False)).run hsends hS hgo hf (fun ec hec => hno ec hec)
    rw [hsound.told_all hS hpieces hover]
    exact hfeed _ (List.prefix_refl _)
  · have hparts := (u.call.parts_intact u.payload).1
    simpa [Utterance.pieces,Function.comp_def] using hparts

/-- Two messages. The second one is posted while the first is being written; the bytes come in two
segments and are read in pieces. -/
def smallTalk : List ConversationStep :=
  [.speak ⟨.byId 1,msgTypeChat,[104,105]⟩,.post,.runTask 0,.startWrite,.transmit 0 30,
    .speak ⟨.byId 1,msgTypeChat,[33]⟩,.deliver 30,.post,.readSome 20,.readSome 20,.runTask 0,
    .transmit 0 100,.complete 0,.startWrite,.transmit 0 100,.complete 0,.deliver 100,.readSome 50,
    .readSome 50,.readSome 50,.readSome 50]

set_option maxRecDepth 10000 in
theorem aliceUp_clear : aliceUp.Clear 1 "tcp" 1 := by
  obtain ⟨hqueue,houtlet⟩ : (aliceUp.sendQueues.lookup 1).all (fun q =>
        q.frames.isEmpty && decide (q.pendingBytes = 0)) = true ∧
      (aliceUp.find 1).all (fun r => decide (aliceUp.outlet 1 r = some ("tcp",1))) = true := by
    decide +kernel
  refine ⟨sample_running.1,fun q hq => ?_,fun r hr => ?_⟩
  · simpa [hq] using hqueue
  · simpa [hr] using houtlet

set_option maxRecDepth 10000 in
theorem smallTalk_orderly : Along (Conversation.act (Env.sample false) 1)
    (Conversation.Orderly (Env.sample false) 1) { core := aliceUp } smallTalk := by
  decide +kernel

set_option maxRecDepth 10000 in
theorem smallTalk_over : Conversation.Over (Interleaving.run (Conversation.act (Env.sample false) 1)
    { core := aliceUp } smallTalk) := by
  decide +kernel

set_option maxRecDepth 10000 in
theorem conversation_delivered_small :
    (bobUp.feed (Env.sample false) 1 (Interleaving.run (Conversation.act (Env.sample false) 1)
      { core := aliceUp } smallTalk).link.told).onBus =
      [(msgTypeChat,[33]),(msgTypeChat,[104,105])] ++ bobUp.onBus := by
  obtain ⟨ra,rb,s,t,h,hla,hlb,hs,ht,hk,hid,_⟩ := sample_endpoints
  have hwindow : (bobUp.find 1).any (fun r => r.session.any (fun t =>
      decide (t.recvWindow.highestNonce < 2))) = true := by decide +kernel
  have hw : t.recvWindow.highestNonce < 2 := by
    rw [h.inlet,Option.any_some,ht] at hwindow
    simpa using hwindow
  have hfit : ∀ u ∈ uttered smallTalk, u.Fit := by
    intro u hu
    simp only [uttered,smallTalk,ConversationStep.utterance,List.filterMap_cons,List.filterMap_nil,
      List.mem_cons,List.not_mem_nil,or_false] at hu
    rcases hu with rfl | rfl
    · exact ⟨by decide,by decide,by simp,.inr (by decide)⟩
    · exact ⟨by decide,by decide,by simp,.inr (by decide)⟩
  obtain ⟨_,hall,_⟩ := conversation_delivered (Env.sample false) (Env.sample false) aliceUp bobUp
    1 1 1 1 ra rb s t smallTalk Env.sample_seals Env.sample_restores rfl rfl h hla hlb hs ht hk
    sample_running.2 (fun _ => rfl) aliceUp_clear smallTalk_orderly hfit (by rw [hid]; exact hw)
    (by rw [hid]; decide)
  have hsaid : (said (uttered smallTalk)).reverse =
      [(msgTypeChat,[33]),(msgTypeChat,[104,105])] := by decide
  have hgot := hall (fun ec => by simp [smallTalk]) smallTalk_over
  rw [hsaid] at hgot
  exact hgot

end GoodNet
