import GoodNet.SealedPayload
import GoodNet.SignalBus
import GoodNet.SendInterleaving
set_option autoImplicit false

/-! From `send` at one end to the signal bus at the other: which payloads survive framing,
compression, encryption and the way back. -/

namespace GoodNet
open Codec

/-- The fields of a record that `build_frame` reads. -/
def ConnectionRecord.sending (r : ConnectionRecord) : UInt64 × Option NoiseSession × Bool × Bool :=
  (r.sendPacketId,r.session,r.isLocalhost,r.localhostPassthrough)

/-- What the frames for a connection depend on. -/
def Impl.sender (id : Nat) (st : Impl) :
    Option (UInt64 × Option NoiseSession × Bool × Bool) × Bool × Option Compression :=
  ((st.find id).map ConnectionRecord.sending,st.shuttingDown,st.config)

theorem flushed_sender (id : Nat) : Flushed (Impl.sender id) where
  emit _ _ := rfl
  ask _ := rfl
  modifyPath st j via f := by
    unfold Impl.sender Impl.modifyPath
    rw [Impl.find_modify]
    by_cases hj : id = j
    · rw [if_pos hj,hj,Option.map_map]
      rfl
    · rw [if_neg hj]
      rfl
  setQueue _ _ _ := rfl

/-- The frames that `build_frame` makes while the parts of a payload are sent one by one. -/
def Impl.builtFor (env : Env) (id : Nat) (msgType : UInt32) : Impl → List Bytes → List Bytes
  | _, [] => []
  | st, part :: parts =>
    (if st.shuttingDown then [] else [(st.buildFrame env id msgType part).2]) ++
      builtFor env id msgType (st.sendFrame env id msgType part) parts

/-- The peer's connector hands them to `handle_data`, in order. -/
def Impl.feed (env : Env) (st : Impl) (id : Nat) (frames : List Bytes) : Impl :=
  frames.foldl (fun st f => (st.handleData env id f []).1) st

section
variable {env : Env} {st : Impl} {id : Nat} {r : ConnectionRecord}

theorem Impl.sendFrame_sender (hs : st.shuttingDown = false) (hr : st.find id = some r)
    (msgType : UInt32) (payload : Bytes) :
    (st.sendFrame env id msgType payload).sender id =
      (some r.takePacketId.sending,false,st.config) := by
  have hbuilt : (st.buildFrame env id msgType payload).1.sender id =
      (some r.takePacketId.sending,false,st.config) := by
    unfold buildFrame
    rw [hr]
    unfold sender
    rw [find_modify_self,hr]
    exact Prod.ext rfl (Prod.ext hs rfl)
  unfold sendFrame
  rw [if_neg (by simp [hs])]
  dsimp only
  split
  · exact hbuilt
  · rw [(flushed_sender id).pushAndFlush]
    exact hbuilt

theorem ConnectionRecord.frame_remote {S : Sodium} {Z : Zstd} {c : Compression} {n : UInt64}
    {s : NoiseSession} (h : r.sending = (n,some s,false,false)) {msgType : UInt32}
    (hm : isHandshakeType msgType = false) (payload : Bytes) :
    r.frame S Z c msgType payload =
      (frameHeader 0 msgType (s.encrypt S Z payload n c).length n).encode ++
        s.encrypt S Z payload n c := by
  simp only [sending,Prod.mk.injEq] at h
  obtain ⟨hn,hs,hl,hp⟩ := h
  unfold frame
  simp only [hp,hl,hs,hn,hm,Bool.false_and,Bool.false_eq_true,ite_false,Bool.not_false,
    Bool.and_self,ite_true]

theorem ConnectionRecord.frame_local {S : Sodium} {Z : Zstd} {c : Compression} {n : UInt64}
    {o : Option NoiseSession} {l : Bool} (h : r.sending = (n,o,l,true)) {msgType : UInt32}
    (hm : isHandshakeType msgType = false) (payload : Bytes) :
    r.frame S Z c msgType payload =
      (frameHeader gnetFlagTrusted msgType payload.length n).encode ++ payload := by
  simp only [sending,Prod.mk.injEq] at h
  obtain ⟨hn,_,_,hp⟩ := h
  unfold frame
  simp only [hp,hn,hm,Bool.not_false,Bool.and_self,ite_true]

/-- One part is framed, and the next one finds the counter moved on. -/
theorem Impl.builtFor_cons (env : Env) {n : UInt64} {rest : Option NoiseSession × Bool × Bool}
    {cfg : Option Compression} (h : st.sender id = (some (n,rest),false,cfg)) (msgType : UInt32)
    (part : Bytes) (parts : List Bytes) :
    ∃ r : ConnectionRecord, r.sending = (n,rest) ∧
      st.builtFor env id msgType (part :: parts) =
        r.frame env.sodium env.zstd (cfg.getD {}) msgType part ::
          (st.sendFrame env id msgType part).builtFor env id msgType parts ∧
      (st.sendFrame env id msgType part).sender id = (some (n+1,rest),false,cfg) := by
  unfold sender at h
  simp only [Prod.mk.injEq] at h
  obtain ⟨hfind,hs,hcfg⟩ := h
  obtain ⟨r,hr,hsend⟩ := Option.map_eq_some_iff.mp hfind
  refine ⟨r,hsend,?_,?_⟩
  · rw [builtFor,if_neg (by simp [hs])]
    unfold buildFrame
    rw [hr,← hcfg]
    rfl
  · rw [sendFrame_sender hs hr,hcfg]
    unfold ConnectionRecord.sending at hsend
    simp only [Prod.mk.injEq] at hsend
    obtain ⟨hn,hrest⟩ := hsend
    unfold ConnectionRecord.sending ConnectionRecord.takePacketId
    dsimp only
    rw [hn,hrest]

end

/-- The window takes `k` packet ids in a row, from `n` on. -/
def NonceWindow.Admits : NonceWindow → UInt64 → Nat → Prop
  | _, _, 0 => True
  | w, n, k+1 => (w.accept n).2 = true ∧ (w.accept n).1.Admits (n+1) k

/-- How many bytes the signal bus has been given. -/
def Impl.busBytes (st : Impl) : Nat := (st.onBus.map (fun d => d.2.length)).sum

/-- Two ends of an encrypted session: one sends on `i` with the packet ids from `n` on, the
other one takes in on `j`. -/
structure Sealed (cfg : Option Compression) (a : Impl) (i : Nat) (n : UInt64) (s : NoiseSession)
    (b : Impl) (j peer : Nat) (t : NoiseSession) (r : ConnectionRecord) : Prop where
  sends : a.sender i = (some (n,some s,false,false),false,cfg)
  hop : Hop b peer t r
  listens : b.Listens j peer
  known : peer < b.nextId
  key : s.sendKey = t.recvKey

section
variable {env env' : Env} {cfg : Option Compression} {a b : Impl} {i j peer : Nat} {n : UInt64}
  {s t : NoiseSession} {r : ConnectionRecord} {msgType : UInt32}
variable (hS : env.sodium.Seals) (hZ : env.zstd.Restores) (hs : env'.sodium = env.sodium)
  (hz : env'.zstd = env.zstd) (ht : msgType.toNat < 2^16) (hbus : isBusType msgType = true)
include hS hZ hs hz ht hbus

/-- One part of a payload goes all the way, or nothing of it does. -/
theorem Sealed.step (h : Sealed cfg a i n s b j peer t r) {part : Bytes}
    (hlen : (sessionBody env.zstd (cfg.getD {}) part).length+macLen < 2^32) (parts : List Bytes) :
    ∃ f r', a.builtFor env i msgType (part :: parts) =
        f :: (a.sendFrame env i msgType part).builtFor env i msgType parts ∧
      Sealed cfg (a.sendFrame env i msgType part) i (n+1) s (b.handleData env' j f []).1 j peer
        (t.afterOwn n) r' ∧
      (((t.recvWindow.accept n).2 = true ∧ Survives env.zstd (cfg.getD {}) part ∧
          (b.handleData env' j f []).1.onBus = (msgType,part) :: b.onBus) ∨
        (¬ ((t.recvWindow.accept n).2 = true ∧ Survives env.zstd (cfg.getD {}) part) ∧
          (b.handleData env' j f []).1.onBus = b.onBus)) := by
  obtain ⟨ra,hsend,hbuilt,hnext⟩ := Impl.builtFor_cons env h.sends msgType part parts
  rw [ConnectionRecord.frame_remote hsend (isBusType_cases hbus).1] at hbuilt
  have hw : (s.encrypt env.sodium env.zstd part n (cfg.getD {})).length < 2^32 := by
    rw [(s.encrypt_opens hS part n (cfg.getD {})).2]
    exact hlen
  obtain ⟨hout,hafter⟩ := NoiseSession.decrypt_encrypt (Z := env.zstd) hS h.key part n (cfg.getD {})
  obtain ⟨b',r',hb',hhop,hlisten,hknown,honBus⟩ :
    ∃ st' r', st' = (b.handleData env' j _ []).1 ∧ _ := h.hop.takes h.listens h.known ht hbus hw n
  rw [hs,hz,hafter] at hhop
  rw [hs,hz,hout] at honBus
  refine ⟨_,r',hbuilt,?_,?_⟩
  · rw [← hb']
    exact ⟨hnext,hhop,hlisten,hknown,h.key⟩
  · rw [← hb',honBus]
    cases hacc : (t.recvWindow.accept n).2 with
    | false => exact Or.inr ⟨by simp,by simp⟩
    | true =>
      rcases openBody_cases hZ hlen with ⟨hp,hopen⟩ | ⟨hp,hopen⟩
      · exact Or.inl ⟨rfl,hp,by simp [hopen,hp.1]⟩
      · exact Or.inr ⟨fun h => hp h.2,by simp [hopen]⟩

/-- Parts that all survive come out at the other end, in order. -/
theorem Sealed.feed_all (h : Sealed cfg a i n s b j peer t r) {parts : List Bytes}
    (hp : ∀ part ∈ parts, Survives env.zstd (cfg.getD {}) part)
    (hw : t.recvWindow.Admits n parts.length) :
    (b.feed env' j (a.builtFor env i msgType parts)).onBus =
      (parts.map (fun part => (msgType,part))).reverse ++ b.onBus := by
  induction parts generalizing a b n t r with
  | nil => rfl
  | cons part parts ih =>
    obtain ⟨hpart,hparts⟩ := List.forall_mem_cons.mp hp
    obtain ⟨hacc,hrest⟩ := hw
    obtain ⟨f,r',hbuilt,hnext,hstep⟩ := h.step hS hZ hs hz ht hbus hpart.length parts
    have hgot : (b.handleData env' j f []).1.onBus = (msgType,part) :: b.onBus := by
      rcases hstep with ⟨_,_,hgot⟩ | ⟨hlost,_⟩
      · exact hgot
      · exact absurd ⟨hacc,hpart⟩ hlost
    have hfeed := ih hnext hparts hrest
    rw [hgot] at hfeed
    rw [hbuilt]
    simpa [Impl.feed] using hfeed

/-- No more bytes come out than went in. -/
theorem Sealed.feed_le (h : Sealed cfg a i n s b j peer t r) {parts : List Bytes}
    (hlen : ∀ part ∈ parts, (sessionBody env.zstd (cfg.getD {}) part).length+macLen < 2^32) :
    (b.feed env' j (a.builtFor env i msgType parts)).busBytes ≤
      parts.flatten.length+b.busBytes := by
  induction parts generalizing a b n t r with
  | nil => exact Nat.le_add_left _ _
  | cons part parts ih =>
    obtain ⟨hpart,hparts⟩ := List.forall_mem_cons.mp hlen
    obtain ⟨f,r',hbuilt,hnext,hstep⟩ := h.step hS hZ hs hz ht hbus hpart parts
    have hgot : (b.handleData env' j f []).1.busBytes ≤ part.length+b.busBytes := by
      rcases hstep with ⟨_,_,hgot⟩ | ⟨_,hgot⟩
      · simp [Impl.busBytes,hgot]
      · simp [Impl.busBytes,hgot]
    have hfeed := ih hnext hparts
    rw [hbuilt]
    simp only [Impl.feed,List.foldl_cons,List.flatten_cons,List.length_append] at hfeed ⊢
    omega

/-- If all the bytes come out, no part was lost: each of them holds some. -/
theorem Sealed.feed_only (h : Sealed cfg a i n s b j peer t r) {parts : List Bytes}
    (hlen : ∀ part ∈ parts, (sessionBody env.zstd (cfg.getD {}) part).length+macLen < 2^32)
    (hne : ∀ part ∈ parts, part ≠ [])
    (hall : (b.feed env' j (a.builtFor env i msgType parts)).busBytes =
      parts.flatten.length+b.busBytes) :
    t.recvWindow.Admits n parts.length := by
  induction parts generalizing a b n t r with
  | nil => exact True.intro
  | cons part parts ih =>
    obtain ⟨hpart,hparts⟩ := List.forall_mem_cons.mp hlen
    obtain ⟨hsome,hsomes⟩ := List.forall_mem_cons.mp hne
    obtain ⟨f,r',hbuilt,hnext,hstep⟩ := h.step hS hZ hs hz ht hbus hpart parts
    have hpos : 0 < part.length := List.length_pos_of_ne_nil hsome
    have hle := hnext.feed_le hS hZ hs hz ht hbus hparts
    rw [hbuilt] at hall
    simp only [Impl.feed,List.foldl_cons,List.flatten_cons,List.length_append] at hall hle
    rcases hstep with ⟨hacc,_,hgot⟩ | ⟨_,hgot⟩
    · refine ⟨hacc,ih hnext hparts hsomes ?_⟩
      have hbytes : (b.handleData env' j f []).1.busBytes = part.length+b.busBytes := by
        simp [Impl.busBytes,hgot]
      simp only [Impl.feed]
      omega
    · -- the part is missing, and the others cannot make up for it
      have hbytes : (b.handleData env' j f []).1.busBytes = b.busBytes := by
        simp [Impl.busBytes,hgot]
      omega

end

/-- The passthrough path, between two local ends. -/
structure Trusted (cfg : Option Compression) (a : Impl) (i : Nat) (b : Impl) (j peer : Nat)
    (r : ConnectionRecord) : Prop where
  sends : ∃ n o l, a.sender i = (some (n,o,l,true),false,cfg)
  near : Nearby b peer r
  listens : b.Listens j peer
  known : peer < b.nextId

section
variable {env env' : Env} {cfg : Option Compression} {a b : Impl} {i j peer : Nat}
  {r : ConnectionRecord} {msgType : UInt32}

theorem Trusted.feed_all (h : Trusted cfg a i b j peer r) (ht : msgType.toNat < 2^16)
    (hbus : isBusType msgType = true) {parts : List Bytes}
    (hp : ∀ part ∈ parts, part.length < 2^32) :
    (b.feed env' j (a.builtFor env i msgType parts)).onBus =
      (parts.map (fun part => (msgType,part))).reverse ++ b.onBus := by
  induction parts generalizing a b r with
  | nil => rfl
  | cons part parts ih =>
    obtain ⟨hpart,hparts⟩ := List.forall_mem_cons.mp hp
    obtain ⟨n,o,l,hsends⟩ := h.sends
    obtain ⟨ra,hsend,hbuilt,hnext⟩ := Impl.builtFor_cons env hsends msgType part parts
    rw [ConnectionRecord.frame_local hsend (isBusType_cases hbus).1] at hbuilt
    obtain ⟨b',r',hb',hnear,hlisten,hknown,honBus⟩ :
      ∃ st' r', st' = (b.handleData env' j _ []).1 ∧ _ :=
        h.near.takes h.listens h.known ht hbus hpart n
    have hfeed := ih ⟨⟨_,_,_,hnext⟩,hnear,hlisten,hknown⟩ hparts
    rw [honBus,hb'] at hfeed
    rw [hbuilt]
    simpa [Impl.feed] using hfeed

end

/-- The two ways to send on a connection. -/
inductive SendCall
  | byId (id : Nat)
  | byUri (uri : String)

namespace SendCall

def run (env : Env) (st : Impl) (msgType : UInt32) (payload : Bytes) : SendCall → Impl × Bool
  | byId id => st.send env id msgType payload
  | byUri uri => st.sendUri env uri msgType payload

def target (st : Impl) : SendCall → Option Nat
  | byId id => some id
  | byUri uri => st.resolveUri uri

/-- Only the call by URI cuts a payload up. -/
def chunked (payload : Bytes) : SendCall → Bool
  | byId _ => false
  | byUri _ => decide (chunkSize*2 < payload.length)

def parts (call : SendCall) (payload : Bytes) : List Bytes :=
  if call.chunked payload then chunks payload.length payload else [payload]

/-- The state in which the first frame gets built. -/
def entry (st : Impl) (r : ConnectionRecord) (msgType : UInt32) : SendCall → Impl
  | byId _ => st.emit (.direct r msgType)
  | byUri _ => st

/-- The frames that `build_frame` makes in the course of the call. -/
def frames (env : Env) (st : Impl) (id : Nat) (r : ConnectionRecord) (msgType : UInt32)
    (payload : Bytes) (call : SendCall) : List Bytes :=
  (call.entry st r msgType).builtFor env id msgType (call.parts payload)

/-- The sent bytes: in one piece, unless the payload was cut up. -/
def Intact (call : SendCall) (payload : Bytes) (pieces : List Bytes) : Prop :=
  pieces.flatten = payload ∧ (call.chunked payload = false → pieces = [payload])

end SendCall

/-- The bus has been given the pieces, in order, and nothing else. -/
def BusTakes (b b' : Impl) (msgType : UInt32) (pieces : List Bytes) : Prop :=
  b'.onBus = (pieces.map (fun piece => (msgType,piece))).reverse ++ b.onBus

theorem chunks_flatten {fuel : Nat} {payload : Bytes} (h : payload.length ≤ fuel) :
    (chunks fuel payload).flatten = payload := by
  fun_induction chunks fuel payload with
  | case1 payload => simp_all
  | case2 fuel _ => rfl
  | case3 fuel b hne ih =>
    have hdrop : (b.drop chunkSize).length ≤ fuel := by
      simp only [List.length_drop,chunkSize]
      omega
    rw [List.flatten_cons,ih hdrop,List.take_append_drop]

theorem chunks_part {fuel : Nat} {payload part : Bytes} (h : part ∈ chunks fuel payload) :
    part ≠ [] ∧ part.length ≤ chunkSize := by
  fun_induction chunks fuel payload with
  | case1 payload => cases h
  | case2 fuel _ => cases h
  | case3 fuel b hne ih =>
    rcases List.mem_cons.mp h with rfl | h
    · refine ⟨fun he => ?_,List.length_take_le _ _⟩
      rcases List.take_eq_nil_iff.mp he with hz | hb
      · exact absurd hz (by decide)
      · exact hne hb
    · exact ih h

section
variable {env env' : Env} {a b : Impl} {i j peer : Nat} {ra rb : ConnectionRecord}
  {call : SendCall} {msgType : UInt32} {payload : Bytes} {pieces : List Bytes}

theorem SendCall.parts_chunked (h : call.chunked payload = true) :
    (call.parts payload).flatten = payload ∧
      ∀ part ∈ call.parts payload, part ≠ [] ∧ part.length ≤ chunkSize := by
  unfold parts
  rw [if_pos h]
  exact ⟨chunks_flatten (Nat.le_refl _),fun part hpart => chunks_part hpart⟩

theorem SendCall.parts_whole (h : call.chunked payload = false) :
    call.parts payload = [payload] := by
  unfold parts
  rw [if_neg (by simp [h])]

theorem SendCall.parts_intact (call : SendCall) (payload : Bytes) :
    call.Intact payload (call.parts payload) := by
  cases h : call.chunked payload with
  | true => exact ⟨(parts_chunked h).1,fun hw => absurd (h.symm.trans hw) (by decide)⟩
  | false =>
    rw [parts_whole h]
    exact ⟨List.flatten_singleton,fun _ => rfl⟩

theorem SendCall.Intact.not_nil (h : call.Intact payload pieces) : pieces ≠ [] := by
  rintro rfl
  obtain ⟨hflat,hwhole⟩ := h
  cases hc : call.chunked payload with
  | false => exact absurd (hwhole hc) (by simp)
  | true =>
    cases call with
    | byId id => cases hc
    | byUri uri =>
      have hlen : chunkSize*2 < payload.length := of_decide_eq_true hc
      rw [← hflat] at hlen
      simp at hlen

/-- A call that returns true on an established connection sends the parts one by one. -/
theorem SendCall.run_parts (ht : call.target a = some i) (hr : a.find i = some ra)
    (he : ra.established = true) (h : (call.run env a msgType payload).2 = true) :
    (call.run env a msgType payload).1 =
      (call.entry a ra msgType).sendChunks env i msgType (call.parts payload) := by
  cases call with
  | byId id =>
    cases ht
    simp only [run,Impl.send,hr]
    rfl
  | byUri uri =>
    simp only [run,entry,target] at h ht ⊢
    unfold Impl.sendUri at h ⊢
    dsimp only at h ⊢
    split at h
    · cases h
    · rename_i hup
      rw [if_neg hup]
      simp only [ht,hr,he,Bool.not_true,Bool.false_and,Bool.false_eq_true,ite_false] at h ⊢
      split at h
      · cases h
      · rename_i hroom
        rw [if_neg hroom]
        unfold parts
        by_cases hbig : chunkSize*2 < payload.length
        · rw [if_pos hbig,if_pos (by simpa [chunked] using hbig)]
        · rw [if_neg hbig,if_neg (by simpa [chunked] using hbig)]
          rfl

theorem SendCall.entry_sender (call : SendCall) (a : Impl) (r : ConnectionRecord) (i : Nat)
    (msgType : UInt32) : (call.entry a r msgType).sender i = a.sender i := by
  cases call <;> rfl

theorem Impl.builtFor_down (h : a.shuttingDown = true) (parts : List Bytes) :
    a.builtFor env i msgType parts = [] := by
  induction parts with
  | nil => rfl
  | cons part parts ih =>
    have hsame : a.sendFrame env i msgType part = a := by
      unfold sendFrame
      rw [if_pos h]
    rw [builtFor,if_pos h,hsame,ih]
    rfl

theorem Impl.feed_down (h : b.shuttingDown = true) (frames : List Bytes) :
    b.feed env' j frames = b := by
  induction frames with
  | nil => rfl
  | cons f frames ih =>
    have hsame : (b.handleData env' j f []).1 = b := by
      unfold handleData
      rw [if_pos h]
    unfold feed at ih ⊢
    rw [List.foldl_cons,hsame,ih]

/-- A type of more than 16 bits never reaches the bus. -/
theorem BusTakes.narrow {b' : Impl} (h : BusTakes b b' msgType pieces) (hne : pieces ≠ []) :
    msgType.toNat < 2^16 := by
  obtain ⟨piece,hp⟩ := List.exists_mem_of_ne_nil pieces hne
  refine b'.onBus_type (msgType,piece) ?_
  rw [h]
  exact List.mem_append_left _ (List.mem_reverse.mpr (List.mem_map_of_mem hp))

theorem BusTakes.not_same (h : BusTakes b b msgType pieces) : pieces = [] := by
  unfold BusTakes at h
  simpa using h

theorem BusTakes.bytes {b' : Impl} (h : BusTakes b b' msgType pieces) :
    b'.busBytes = pieces.flatten.length+b.busBytes := by
  unfold Impl.busBytes
  rw [h]
  simp [List.length_flatten,Function.comp_def]

theorem BusTakes.unique {b' : Impl} {pieces' : List Bytes} (h : BusTakes b b' msgType pieces)
    (h' : BusTakes b b' msgType pieces') : pieces = pieces' := by
  have hsame := List.append_cancel_right (h.symm.trans h')
  exact List.map_injective_iff.mpr (fun p q hpq => (Prod.mk.inj hpq).2)
    (List.reverse_injective hsame)

/-- Whatever arrives intact was sent by a node that is up to one that is up, under a type of
16 bits. -/
theorem SendCall.Intact.needs (hi : call.Intact payload pieces)
    (ht : BusTakes b (b.feed env' j (call.frames env a i ra msgType payload)) msgType pieces) :
    a.shuttingDown = false ∧ b.shuttingDown = false ∧ msgType.toNat < 2^16 := by
  refine ⟨?_,?_,ht.narrow hi.not_nil⟩
  · by_contra hdown
    have hentry : (call.entry a ra msgType).shuttingDown = true := by
      have hdown := (Bool.not_eq_false _).mp hdown
      cases call <;> exact hdown
    unfold SendCall.frames at ht
    rw [Impl.builtFor_down hentry] at ht
    exact hi.not_nil ht.not_same
  · by_contra hdown
    rw [Impl.feed_down (by simpa using hdown)] at ht
    exact hi.not_nil ht.not_same

theorem Survives.chunk {Z : Zstd} {c : Compression} {part : Bytes} (hne : part ≠ [])
    (hlen : part.length ≤ chunkSize) : Survives Z c part := by
  refine ⟨hne,?_⟩
  unfold chunkSize at hlen
  cases compressed Z c part with
  | none =>
    unfold macLen
    dsimp only
    omega
  | some out =>
    unfold maxOrigSize
    dsimp only
    omega

theorem SendCall.parts_survive {Z : Zstd} {c : Compression}
    (h : call.chunked payload = true ∨ Survives Z c payload) :
    ∀ part ∈ call.parts payload, Survives Z c part := by
  intro part hp
  cases hc : call.chunked payload with
  | true =>
    obtain ⟨hne,hlen⟩ := (parts_chunked hc).2 part hp
    exact Survives.chunk hne hlen
  | false =>
    rw [hc] at h
    rw [parts_whole hc,List.mem_singleton] at hp
    rw [hp]
    exact h.resolve_left Bool.false_ne_true

/-- What went into the call arrives at the bus of the other end. -/
def Arrives (env env' : Env) (a : Impl) (i : Nat) (ra : ConnectionRecord) (b : Impl) (j : Nat)
    (call : SendCall) (msgType : UInt32) (payload : Bytes) : Prop :=
  ∃ pieces, call.Intact payload pieces ∧
    BusTakes b (b.feed env' j (call.frames env a i ra msgType payload)) msgType pieces

/-- It arrives exactly if both nodes are up, the type fits into 16 bits and the given
condition is met, and then in the parts that were sent. -/
def ArrivesWhen (env env' : Env) (a : Impl) (i : Nat) (ra : ConnectionRecord) (b : Impl) (j : Nat)
    (call : SendCall) (msgType : UInt32) (payload : Bytes) (condition : Prop) : Prop :=
  (Arrives env env' a i ra b j call msgType payload ↔
    (a.shuttingDown = false ∧ b.shuttingDown = false ∧ msgType.toNat < 2^16) ∧ condition) ∧
  ∀ pieces, call.Intact payload pieces →
    BusTakes b (b.feed env' j (call.frames env a i ra msgType payload)) msgType pieces →
    pieces = call.parts payload

theorem ArrivesWhen.of_goes {condition : Prop}
    (hgoes : a.shuttingDown = false → b.shuttingDown = false → msgType.toNat < 2^16 → condition →
      BusTakes b (b.feed env' j (call.frames env a i ra msgType payload)) msgType
        (call.parts payload))
    (hneeds : a.shuttingDown = false → b.shuttingDown = false → msgType.toNat < 2^16 →
      Arrives env env' a i ra b j call msgType payload → condition) :
    ArrivesWhen env env' a i ra b j call msgType payload condition := by
  have hall : Arrives env env' a i ra b j call msgType payload →
      (a.shuttingDown = false ∧ b.shuttingDown = false ∧ msgType.toNat < 2^16) ∧ condition := by
    rintro ⟨pieces,hi,htakes⟩
    obtain ⟨hua,hub,ht⟩ := hi.needs htakes
    exact ⟨⟨hua,hub,ht⟩,hneeds hua hub ht ⟨pieces,hi,htakes⟩⟩
  refine ⟨⟨hall,?_⟩,?_⟩
  · rintro ⟨⟨hua,hub,ht⟩,hc⟩
    exact ⟨_,call.parts_intact payload,hgoes hua hub ht hc⟩
  · intro pieces hi htakes
    obtain ⟨⟨hua,hub,ht⟩,hc⟩ := hall ⟨pieces,hi,htakes⟩
    exact htakes.unique (hgoes hua hub ht hc)

theorem Sealed.entered {cfg : Option Compression} {n : UInt64} {s t : NoiseSession}
    (h : Sealed cfg a i n s b j peer t rb) (call : SendCall) (r : ConnectionRecord)
    (msgType : UInt32) : Sealed cfg (call.entry a r msgType) i n s b j peer t rb :=
  ⟨(call.entry_sender a r i msgType).trans h.sends,h.hop,h.listens,h.known,h.key⟩

theorem Trusted.entered {cfg : Option Compression} (h : Trusted cfg a i b j peer rb)
    (call : SendCall) (r : ConnectionRecord) (msgType : UInt32) :
    Trusted cfg (call.entry a r msgType) i b j peer rb := by
  obtain ⟨⟨n,o,l,hsends⟩,hnear,hlistens,hknown⟩ := h
  exact ⟨⟨n,o,l,(call.entry_sender a r i msgType).trans hsends⟩,hnear,hlistens,hknown⟩

/-- On the encrypted path, between two nodes that are up. -/
theorem Sealed.arrives {cfg : Option Compression} {n : UInt64} {s t : NoiseSession}
    (h : Sealed cfg a i n s b j peer t rb) (hS : env.sodium.Seals) (hZ : env.zstd.Restores)
    (hs : env'.sodium = env.sodium) (hz : env'.zstd = env.zstd) (ht : msgType.toNat < 2^16)
    (hbus : isBusType msgType = true)
    (ha : Arrives env env' a i ra b j call msgType payload) :
    (call.chunked payload = true ∨ Survives env.zstd (cfg.getD {}) payload) ∧
      t.recvWindow.Admits n (call.parts payload).length := by
  obtain ⟨pieces,hi,htakes⟩ := ha
  have h' := h.entered call ra msgType
  unfold SendCall.frames at htakes
  cases hc : call.chunked payload with
  | true =>
    obtain ⟨hflat,hparts⟩ := SendCall.parts_chunked hc
    have hbytes := htakes.bytes
    rw [hi.1] at hbytes
    refine ⟨Or.inl rfl,h'.feed_only hS hZ hs hz ht hbus
      (fun part hp => (Survives.chunk (hparts part hp).1 (hparts part hp).2).length)
      (fun part hp => (hparts part hp).1) ?_⟩
    rw [hflat]
    exact hbytes
  | false =>
    rw [SendCall.parts_whole hc] at htakes ⊢
    rw [hi.2 hc] at htakes
    by_cases hlen : (sessionBody env.zstd (cfg.getD {}) payload).length+macLen < 2^32
    · obtain ⟨f,r',hbuilt,_,hstep⟩ := h'.step hS hZ hs hz ht hbus hlen []
      rw [hbuilt] at htakes
      rcases hstep with ⟨hacc,hp,_⟩ | ⟨_,hlost⟩
      · exact ⟨Or.inr hp,hacc,True.intro⟩
      · have hgot : (b.handleData env' j f []).1.onBus = [(msgType,payload)] ++ b.onBus := htakes
        rw [hlost] at hgot
        simp at hgot
    · -- too long for the header: the buffer overflows at the other end
      obtain ⟨r,hsend,hbuilt,_⟩ := Impl.builtFor_cons env h'.sends msgType payload []
      rw [ConnectionRecord.frame_remote hsend (isBusType_cases hbus).1] at hbuilt
      have hw : 2^32 ≤ (s.encrypt env.sodium env.zstd payload n (cfg.getD {})).length := by
        rw [(s.encrypt_opens hS payload n (cfg.getD {})).2]
        omega
      have hlost : (b.handleData env' j _ []).1.onBus = b.onBus :=
        Impl.handleData_long h.listens.running h.listens.resolves h.hop.find hw 0 msgType n
      rw [hbuilt] at htakes
      have hgot : (b.handleData env' j _ []).1.onBus = [(msgType,payload)] ++ b.onBus := htakes
      rw [hlost] at hgot
      simp at hgot

/-- On the passthrough path, between two nodes that are up. -/
theorem Trusted.arrives {cfg : Option Compression} (h : Trusted cfg a i b j peer rb)
    (hbus : isBusType msgType = true) (ha : Arrives env env' a i ra b j call msgType payload) :
    call.chunked payload = true ∨ payload.length < 2^32 := by
  obtain ⟨pieces,hi,htakes⟩ := ha
  obtain ⟨n,o,l,hsends⟩ := (h.entered call ra msgType).sends
  unfold SendCall.frames at htakes
  cases hc : call.chunked payload with
  | true => exact Or.inl rfl
  | false =>
    refine Or.inr ?_
    by_contra hlen
    rw [SendCall.parts_whole hc,hi.2 hc] at htakes
    obtain ⟨r,hsend,hbuilt,_⟩ := Impl.builtFor_cons env hsends msgType payload []
    rw [ConnectionRecord.frame_local hsend (isBusType_cases hbus).1] at hbuilt
    have hlost : (b.handleData env' j _ []).1.onBus = b.onBus :=
      Impl.handleData_long h.listens.running h.listens.resolves h.near.find (Nat.not_lt.mp hlen)
        gnetFlagTrusted msgType n
    rw [hbuilt] at htakes
    have hgot : (b.handleData env' j _ []).1.onBus = [(msgType,payload)] ++ b.onBus := htakes
    rw [hlost] at hgot
    simp at hgot

theorem SendCall.parts_short (h : call.chunked payload = true ∨ payload.length < 2^32) :
    ∀ part ∈ call.parts payload, part.length < 2^32 := by
  intro part hp
  cases hc : call.chunked payload with
  | true =>
    have hlen := ((parts_chunked hc).2 part hp).2
    unfold chunkSize at hlen
    omega
  | false =>
    rw [hc] at h
    rw [parts_whole hc,List.mem_singleton] at hp
    rw [hp]
    exact h.resolve_left Bool.false_ne_true

end

/-- Two endpoints of a connection, both established, in any states the nodes can get into;
the receiver is between two frames. -/
structure Endpoints (env env' : Env) (a : Impl) (i : Nat) (ra : ConnectionRecord) (b : Impl)
    (j peer : Nat) (rb : ConnectionRecord) : Prop where
  sender : ∃ identity calls, a = (Impl.start identity).run env calls
  receiver : ∃ identity calls, b = (Impl.start identity).run env' calls
  outlet : a.find i = some ra
  inlet : b.find peer = some rb
  established : ra.established = true ∧ rb.established = true
  transport : b.resolveTransport j = peer
  between : rb.recvBuf = []

section
variable {env env' : Env} {a b : Impl} {i j peer : Nat} {ra rb : ConnectionRecord}
  {call : SendCall} {msgType : UInt32} {payload : Bytes}

theorem Endpoints.listens (h : Endpoints env env' a i ra b j peer rb)
    (hup : b.shuttingDown = false) : b.Listens j peer where
  running := hup
  resolves := h.transport
  empty := fun r hr => by
    cases h.inlet.symm.trans hr
    exact h.between

theorem Endpoints.sealed (h : Endpoints env env' a i ra b j peer rb) {s t : NoiseSession}
    (hla : ra.isLocalhost = false) (hlb : rb.isLocalhost = false) (hs : ra.session = some s)
    (ht : rb.session = some t) (hk : s.sendKey = t.recvKey) (hua : a.shuttingDown = false)
    (hub : b.shuttingDown = false) :
    Sealed a.config a i ra.sendPacketId s b j peer t rb := by
  obtain ⟨ida,callsa,rfl⟩ := h.sender
  obtain ⟨idb,callsb,rfl⟩ := h.receiver
  have hopa := (run_sound env ida callsa).hop h.outlet h.established.1 hla hs
  have hsoundb := run_sound env' idb callsb
  refine ⟨?_,hsoundb.hop h.inlet h.established.2 hlb ht,h.listens hub,hsoundb.fresh _ _ h.inlet,hk⟩
  unfold Impl.sender
  rw [h.outlet,hua]
  simp only [Option.map_some,ConnectionRecord.sending,hs,hla,hopa.sealed]

theorem Endpoints.trusted (h : Endpoints env env' a i ra b j peer rb)
    (hpa : ra.localhostPassthrough = true) (hpb : rb.localhostPassthrough = true)
    (hua : a.shuttingDown = false) (hub : b.shuttingDown = false) :
    Trusted a.config a i b j peer rb := by
  obtain ⟨idb,callsb,rfl⟩ := h.receiver
  refine ⟨⟨ra.sendPacketId,ra.session,ra.isLocalhost,?_⟩,⟨h.inlet,h.established.2,hpb⟩,
    h.listens hub,(run_sound env' idb callsb).fresh _ _ h.inlet⟩
  unfold Impl.sender
  rw [h.outlet,hua]
  simp only [Option.map_some,ConnectionRecord.sending,hpa]

/-- What a call that returned true has sent arrives exactly under these conditions, and
then in the same pieces on both paths. -/
theorem payload_arrives (hS : env.sodium.Seals) (hZ : env.zstd.Restores)
    (hs : env'.sodium = env.sodium) (hz : env'.zstd = env.zstd)
    (h : Endpoints env env' a i ra b j peer rb) (hbus : isBusType msgType = true)
    (htarget : call.target a = some i) (htrue : (call.run env a msgType payload).2 = true) :
    (call.run env a msgType payload).1 =
        (call.entry a ra msgType).sendChunks env i msgType (call.parts payload) ∧
      (∀ s t, ra.isLocalhost = false → rb.isLocalhost = false → ra.session = some s →
        rb.session = some t → s.sendKey = t.recvKey →
        ArrivesWhen env env' a i ra b j call msgType payload
          ((call.chunked payload = true ∨ Survives env.zstd (a.config.getD {}) payload) ∧
            t.recvWindow.Admits ra.sendPacketId (call.parts payload).length)) ∧
      (ra.localhostPassthrough = true → rb.localhostPassthrough = true →
        ArrivesWhen env env' a i ra b j call msgType payload
          (call.chunked payload = true ∨ payload.length < 2^32)) := by
  refine ⟨SendCall.run_parts htarget h.outlet h.established.1 htrue,?_,?_⟩
  · intro s t hla hlb hsa htb hk
    apply ArrivesWhen.of_goes
    · rintro hua hub ht ⟨hp,hw⟩
      have hends := (h.sealed hla hlb hsa htb hk hua hub).entered call ra msgType
      exact hends.feed_all hS hZ hs hz ht hbus (SendCall.parts_survive hp) hw
    · intro hua hub ht ha
      exact (h.sealed hla hlb hsa htb hk hua hub).arrives hS hZ hs hz ht hbus ha
  · intro hpa hpb
    apply ArrivesWhen.of_goes
    · intro hua hub ht hp
      have hends := (h.trusted hpa hpb hua hub).entered call ra msgType
      exact hends.feed_all ht hbus (SendCall.parts_short hp)
    · intro hua hub ht ha
      exact (h.trusted hpa hpb hua hub).arrives hbus ha

end

/-- The initiator and the responder of the sample exchange, each with its session up. -/
def aliceUp : Impl := (Impl.start NodeIdentity.alice).run (Env.sample false) aliceConfirms

def bobUp : Impl := (Impl.start NodeIdentity.bob).run (Env.sample false) bobConfirms

theorem Env.sample_seals : (Env.sample false).sodium.Seals := Sodium.sample_lawful.seal_open

theorem Env.sample_restores : (Env.sample false).zstd.Restores := by
  intro level plain out h
  cases h

set_option maxRecDepth 10000 in
theorem sample_running : aliceUp.shuttingDown = false ∧ bobUp.shuttingDown = false := by
  decide +kernel

set_option maxRecDepth 10000 in
theorem sample_endpoints : ∃ ra rb s t,
    Endpoints (Env.sample false) (Env.sample false) aliceUp 1 ra bobUp 1 1 rb ∧
      ra.isLocalhost = false ∧ rb.isLocalhost = false ∧ ra.session = some s ∧
      rb.session = some t ∧ s.sendKey = t.recvKey ∧ ra.sendPacketId = 2 ∧
      (t.recvWindow.accept 2).2 = true := by
  obtain ⟨hboth,htransport⟩ : (aliceUp.find 1).any (fun ra => (bobUp.find 1).any (fun rb =>
      ra.established && rb.established && rb.recvBuf.isEmpty && !ra.isLocalhost &&
      !rb.isLocalhost && decide (ra.sendPacketId = 2) && ra.session.any (fun s =>
        rb.session.any (fun t =>
          decide (s.sendKey = t.recvKey) && (t.recvWindow.accept 2).2)))) = true ∧
      bobUp.resolveTransport 1 = 1 := by
    decide +kernel
  obtain ⟨ra,hra,h⟩ := (Option.any_eq_true _ _).mp hboth
  obtain ⟨rb,hrb,h⟩ := (Option.any_eq_true _ _).mp h
  simp only [Bool.and_eq_true,Bool.not_eq_true',List.isEmpty_iff,decide_eq_true_eq] at h
  obtain ⟨⟨⟨⟨⟨⟨hea,heb⟩,hbuf⟩,hla⟩,hlb⟩,hid⟩,h⟩ := h
  obtain ⟨s,hs,h⟩ := (Option.any_eq_true _ _).mp h
  obtain ⟨t,ht,h⟩ := (Option.any_eq_true _ _).mp h
  rw [Bool.and_eq_true,decide_eq_true_eq] at h
  exact ⟨ra,rb,s,t,⟨⟨_,_,rfl⟩,⟨_,_,rfl⟩,hra,hrb,⟨hea,heb⟩,htransport,hbuf⟩,hla,hlb,hs,ht,
    h.1,hid,h.2⟩

set_option maxRecDepth 10000 in
theorem payload_arrives_short : ∃ ra rb,
    Endpoints (Env.sample false) (Env.sample false) aliceUp 1 ra bobUp 1 1 rb ∧
      Arrives (Env.sample false) (Env.sample false) aliceUp 1 ra bobUp 1 (.byId 1) msgTypeChat
        [104,105] := by
  obtain ⟨ra,rb,s,t,h,hla,hlb,hs,ht,hk,hid,hacc⟩ := sample_endpoints
  have htrue : ((SendCall.byId 1).run (Env.sample false) aliceUp msgTypeChat [104,105]).2 =
    true := by decide +kernel
  obtain ⟨_,hsealed,_⟩ := payload_arrives Env.sample_seals Env.sample_restores rfl rfl h
    (by decide) rfl htrue
  obtain ⟨harrives,_⟩ := hsealed s t hla hlb hs ht hk
  refine ⟨ra,rb,h,harrives.mpr ⟨⟨sample_running.1,sample_running.2,by decide⟩,
    Or.inr (Survives.chunk (by decide) (by decide)),?_⟩⟩
  rw [hid]
  exact ⟨hacc,True.intro⟩

set_option maxRecDepth 10000 in
/-- An empty payload: `send` returns true, and the other end takes the empty result of
`decrypt` for an error. -/
theorem empty_payload_lost : ∃ ra rb s t,
    Endpoints (Env.sample false) (Env.sample false) aliceUp 1 ra bobUp 1 1 rb ∧
      ra.isLocalhost = false ∧ rb.isLocalhost = false ∧ ra.session = some s ∧
      rb.session = some t ∧ s.sendKey = t.recvKey ∧ (t.recvWindow.accept ra.sendPacketId).2 = true ∧
      ((SendCall.byId 1).run (Env.sample false) aliceUp msgTypeChat []).2 = true ∧
      ¬ Arrives (Env.sample false) (Env.sample false) aliceUp 1 ra bobUp 1 (.byId 1) msgTypeChat
        [] := by
  obtain ⟨ra,rb,s,t,h,hla,hlb,hs,ht,hk,hid,hacc⟩ := sample_endpoints
  refine ⟨ra,rb,s,t,h,hla,hlb,hs,ht,hk,by rw [hid]; exact hacc,by decide +kernel,fun ha => ?_⟩
  have hends := h.sealed hla hlb hs ht hk sample_running.1 sample_running.2
  obtain ⟨hp,_⟩ := hends.arrives Env.sample_seals Env.sample_restores rfl rfl
    (by decide) (by decide) ha
  rcases hp with hchunked | ⟨hne,_⟩
  · cases hchunked
  · exact hne rfl

end GoodNet
