import GoodNet.ManagerSteps
set_option autoImplicit false

/-! `relay_seen`: what makes two relayed frames the same to a node. -/

namespace GoodNet
open Codec

/-- A part of the state that building, queueing and sending frames does not write. -/
structure Apart {α : Type} (part : Impl → α) : Prop where
  emit : ∀ st e, part (st.emit e) = part st
  ask : ∀ st, part st.ask = part st
  modify : ∀ st id f, part (st.modify id f) = part st
  setQueue : ∀ st id q, part (st.setQueue id q) = part st

/-- A part of the state that queueing a frame and handing it to a connector does not write. -/
structure Flushed {α : Type} (part : Impl → α) : Prop where
  emit : ∀ st e, part (st.emit e) = part st
  ask : ∀ st, part st.ask = part st
  modifyPath : ∀ st id via f, part (Impl.modifyPath st id via f) = part st
  setQueue : ∀ st id q, part (st.setQueue id q) = part st

section
variable {α : Type} {part : Impl → α} {env : Env}

theorem Apart.flushed (h : Apart part) : Flushed part :=
  ⟨h.emit,h.ask,fun st id _ _ => h.modify st id _,h.setQueue⟩

theorem Flushed.sendEach (h : Flushed part) (st : Impl) (owner : ConnectionRecord) (via : Nat)
    (scheme : String) (frames : List Bytes) :
    part (st.sendEach env owner via scheme frames).1 = part st := by
  induction frames generalizing st with
  | nil => rfl
  | cons f fs ih =>
    unfold Impl.sendEach
    dsimp only
    rw [ih]
    split
    · rw [h.emit,h.emit,h.emit,h.ask]
    · rw [h.emit,h.ask]

theorem Flushed.flushFrames (h : Flushed part) (st : Impl) (owner : ConnectionRecord) (via : Nat)
    (scheme : String) (ops : ConnectorOps) (frames : List Bytes) :
    part (st.flushFramesToConnector env owner via scheme ops frames).1 = part st := by
  unfold Impl.flushFramesToConnector
  split
  · rfl
  · split
    · dsimp only
      split
      · rw [h.emit,h.emit,h.emit,h.ask]
      · rw [h.emit,h.ask]
    · exact h.sendEach st owner via scheme frames

theorem Flushed.tryPaths (h : Flushed part) (st : Impl) (id : Nat) (owner : ConnectionRecord)
    (batch : List Bytes) (paths : List TransportPath) :
    part (st.tryPaths env id owner batch paths).1 = part st := by
  induction paths generalizing st with
  | nil => rfl
  | cons p ps ih =>
    unfold Impl.tryPaths
    split
    · exact ih st
    · dsimp only
      split
      · rw [h.modifyPath,h.flushFrames]
      · rw [ih,h.modifyPath,h.flushFrames]

theorem Flushed.flushQueue (h : Flushed part) (st : Impl) (id : Nat) :
    part (st.flushQueue env id) = part st := by
  unfold Impl.flushQueue
  split
  · rfl
  · split
    · dsimp only
      split
      · rfl
      · split
        · rw [h.tryPaths,h.setQueue]
        · split
          · rw [h.flushFrames,h.tryPaths,h.setQueue]
          · rw [h.emit,h.tryPaths,h.setQueue]
    · rfl

theorem Flushed.pushAndFlush (h : Flushed part) (st : Impl) (id : Nat) (frame : Bytes) :
    part (st.pushAndFlush env id frame) = part st := by
  have hqueue : part (st.getOrCreateQueue id).1 = part st := by
    unfold Impl.getOrCreateQueue
    split
    · rfl
    · exact h.setQueue _ _ _
  unfold Impl.pushAndFlush
  dsimp only
  split
  · rw [h.flushQueue,h.setQueue,hqueue]
  · rw [h.emit,hqueue]

theorem Apart.sendFrame (h : Apart part) (st : Impl) (id : Nat) (msgType : UInt32)
    (payload : Bytes) : part (st.sendFrame env id msgType payload) = part st := by
  have hbuild : part (st.buildFrame env id msgType payload).1 = part st := by
    unfold Impl.buildFrame
    split
    · rfl
    · exact h.modify _ _ _
  unfold Impl.sendFrame
  split
  · rfl
  · dsimp only
    split
    · exact hbuild
    · rw [h.flushed.pushAndFlush,hbuild]

theorem Apart.sendAll (h : Apart part) (st : Impl) (ids : List Nat) (msgType : UInt32)
    (payload : Bytes) : part (st.sendAll env ids msgType payload) = part st := by
  unfold Impl.sendAll
  induction ids generalizing st with
  | nil => rfl
  | cons id ids ih =>
    rw [List.foldl_cons,ih]
    split
    · exact h.sendFrame st id msgType payload
    · rfl

theorem Apart.relay (h : Apart part) (st : Impl) (exclude : Nat) (ttl : UInt8) (dest : Key)
    (inner : Bytes) : part (st.relay env exclude ttl dest inner) = part st := by
  unfold Impl.relay
  dsimp only
  split
  · exact h.sendFrame _ _ _ _
  · exact h.sendAll _ _ _ _

end

theorem apart_relayDedup : Apart Impl.relayDedup :=
  ⟨fun _ _ => rfl,fun _ => rfl,fun _ _ _ => rfl,fun _ _ _ => rfl⟩

/-- The entry `relay_seen` makes for an inner frame. -/
def Header.fingerprint (env : Env) (now : Nat) (hdr : Header) : RelayFingerprint :=
  ⟨env.hash hdr.packetId ^^^ (hdr.payloadType.toUInt64 <<< 32),hdr.packetId,now⟩

/-- The entries that are left when `relay_seen` has thrown out the old ones. -/
def Impl.remembered (env : Env) (st : Impl) : List RelayFingerprint :=
  if 8192 < st.relayDedup.length then
    st.relayDedup.filter (fun f => decide (env.steady st.asked ≤ f.ts+relayTtl))
  else st.relayDedup

def Impl.setDedup (st : Impl) (entries : List RelayFingerprint) : Impl :=
  { st with relayDedup := entries }

theorem Impl.relaySeen_eq (env : Env) (st : Impl) (hdr : Header) :
    st.relaySeen env hdr =
      if (st.remembered env).any (hdr.fingerprint env (env.steady st.asked)).same then
        (st.ask.setDedup (st.remembered env),true)
      else
        (st.ask.setDedup (hdr.fingerprint env (env.steady st.asked) :: st.remembered env),false) :=
  rfl

theorem Impl.relaySeen_identity (env : Env) (st : Impl) (hdr : Header) :
    (st.relaySeen env hdr).1.identity = st.identity := by
  rw [relaySeen_eq]
  split
  · rfl
  · rfl

/-- The frame inside a relay payload. -/
def relayedFrame (plaintext : Bytes) : Bytes := plaintext.drop relayHeaderSize

/-- A payload that `handle_relay` looks at: long enough, with hops left and a whole frame. -/
def isRelayable (plaintext : Bytes) : Bool :=
  decide (relayHeaderSize+headerSize ≤ plaintext.length) && plaintext.getD 0 0 != 0 &&
    decide (headerSize+(Header.decode (relayedFrame plaintext)).payloadLen.toNat ≤
      (relayedFrame plaintext).length)

/-- The payload is dropped because its frame has been seen. -/
def Impl.dropsDuplicate (env : Env) (st : Impl) (plaintext : Bytes) : Bool :=
  isRelayable plaintext && (st.relaySeen env (Header.decode (relayedFrame plaintext))).2

/-- Its frame is delivered or forwarded. -/
def Impl.processes (env : Env) (st : Impl) (plaintext : Bytes) : Bool :=
  isRelayable plaintext && !(st.relaySeen env (Header.decode (relayedFrame plaintext))).2

/-- What a node does with a frame it has not seen: hand it to `dispatch_packet` when it is
the destination, else pass it on with one hop less. -/
def Impl.passOn (env : Env) (st : Impl) (id : Nat) (plaintext : Bytes) :
    Impl × Option (Header × Bytes) :=
  let inner := relayedFrame plaintext
  let hdr := Header.decode inner
  let dest : Key := Block.ofBytes 32 (plaintext.drop 1)
  if dest = st.identity.userPubkey then
    (st,some (hdr,(inner.drop headerSize).take hdr.payloadLen.toNat))
  else (st.relay env id (plaintext.getD 0 0-1) dest inner,none)

/-- `handle_relay` by what it decides. -/
theorem Impl.handleRelay_eq (env : Env) (st : Impl) (id : Nat) (plaintext : Bytes) :
    st.handleRelay env id plaintext =
      if isRelayable plaintext then
        let seen := st.relaySeen env (Header.decode (relayedFrame plaintext))
        if seen.2 then (seen.1,none) else seen.1.passOn env id plaintext
      else (st.emit (.drop id .relayDropped),none) := by
  unfold handleRelay isRelayable passOn relayedFrame
  simp only [relaySeen_identity]
  generalize plaintext.getD 0 0 = ttl
  generalize plaintext.drop relayHeaderSize = inner
  by_cases hshort : plaintext.length < relayHeaderSize+headerSize
  · simp [hshort,Nat.not_le.mpr hshort]
  · by_cases httl : ttl = 0
    · simp [hshort,httl]
    · by_cases hcut : inner.length < headerSize+(Header.decode inner).payloadLen.toNat
      · simp [hshort,httl,hcut,Nat.not_le.mpr hcut]
      · simp [hshort,httl,hcut,Nat.not_lt.mp hshort,Nat.not_lt.mp hcut]

/-- The destination named in a relay payload. -/
def relayDest (plaintext : Bytes) : Key := Block.ofBytes 32 (plaintext.drop 1)

/-- The payload of the frame inside a relay payload. -/
def relayedPayload (plaintext : Bytes) : Bytes :=
  ((relayedFrame plaintext).drop headerSize).take
    (Header.decode (relayedFrame plaintext)).payloadLen.toNat

/-- The state before anything is passed on. -/
def Impl.heard (env : Env) (st : Impl) (id : Nat) (plaintext : Bytes) : Impl :=
  if isRelayable plaintext then (st.relaySeen env (Header.decode (relayedFrame plaintext))).1
  else st.emit (.drop id .relayDropped)

/-- What `handle_relay` can do with a payload. -/
theorem Impl.handleRelay_cases (env : Env) (st : Impl) (id : Nat) (plaintext : Bytes) :
    (st.processes env plaintext = false ∧
      st.handleRelay env id plaintext = (st.heard env id plaintext,none)) ∨
    (st.processes env plaintext = true ∧ relayDest plaintext = st.identity.userPubkey ∧
      st.handleRelay env id plaintext = (st.heard env id plaintext,
        some (Header.decode (relayedFrame plaintext),relayedPayload plaintext))) ∨
    (st.processes env plaintext = true ∧ relayDest plaintext ≠ st.identity.userPubkey ∧
      st.handleRelay env id plaintext = ((st.heard env id plaintext).relay env id
        (plaintext.getD 0 0-1) (relayDest plaintext) (relayedFrame plaintext),none)) := by
  have hpass : ∀ st : Impl, st.passOn env id plaintext =
      if relayDest plaintext = st.identity.userPubkey then
        (st,some (Header.decode (relayedFrame plaintext),relayedPayload plaintext))
      else (st.relay env id (plaintext.getD 0 0-1) (relayDest plaintext)
        (relayedFrame plaintext),none) := fun _ => rfl
  rw [handleRelay_eq]
  unfold processes heard
  cases hr : isRelayable plaintext with
  | false => exact Or.inl ⟨rfl,rfl⟩
  | true =>
    simp only [ite_true,Bool.true_and]
    cases hseen : (st.relaySeen env (Header.decode (relayedFrame plaintext))).2 with
    | true => exact Or.inl ⟨rfl,rfl⟩
    | false =>
      rw [if_neg Bool.false_ne_true,hpass,relaySeen_identity]
      by_cases hdest : relayDest plaintext = st.identity.userPubkey
      · exact Or.inr (Or.inl ⟨rfl,hdest,if_pos hdest⟩)
      · exact Or.inr (Or.inr ⟨rfl,hdest,if_neg hdest⟩)

theorem Impl.heard_same (env : Env) (st : Impl) (id : Nat) (plaintext : Bytes) :
    (st.heard env id plaintext).records = st.records ∧
      (st.heard env id plaintext).pkIndex = st.pkIndex ∧
      (st.heard env id plaintext).identity = st.identity := by
  unfold heard
  split
  · rw [relaySeen_eq]
    split
    · exact ⟨rfl,rfl,rfl⟩
    · exact ⟨rfl,rfl,rfl⟩
  · exact ⟨rfl,rfl,rfl⟩

theorem Impl.handleRelay_dedup (env : Env) (st : Impl) (id : Nat) (plaintext : Bytes) :
    (st.handleRelay env id plaintext).1.relayDedup = (st.heard env id plaintext).relayDedup := by
  rcases st.handleRelay_cases env id plaintext with ⟨_,h⟩ | ⟨_,_,h⟩ | ⟨_,_,h⟩
  · rw [h]
  · rw [h]
  · rw [h]
    exact apart_relayDedup.relay _ _ _ _ _

/-- Same packet id and same type: the hash adds nothing. -/
theorem Header.fingerprint_same (env : Env) (now then_ : Nat) (a b : Header) :
    (a.fingerprint env now).same (b.fingerprint env then_) = true ↔
      a.packetId = b.packetId ∧ a.payloadType = b.payloadType := by
  have hshift : ∀ x y : UInt16, x.toUInt64 <<< 32 = y.toUInt64 <<< 32 → x = y := by
    intro x y h
    have hnat := congrArg UInt64.toNat h
    have hx := x.toNat_lt
    have hy := y.toNat_lt
    simp only [UInt64.toNat_shiftLeft,UInt16.toNat_toUInt64,Nat.shiftLeft_eq] at hnat
    apply UInt16.toNat_inj.mp
    have h32 : (32 : UInt64).toNat % 64 = 32 := rfl
    rw [h32] at hnat
    omega
  simp only [RelayFingerprint.same,fingerprint,Bool.and_eq_true,beq_iff_eq]
  constructor
  · rintro ⟨hhash,hid⟩
    rw [hid] at hhash
    exact ⟨hid,hshift _ _ (UInt64.xor_right_inj _ |>.mp hhash)⟩
  · rintro ⟨hid,htype⟩
    rw [hid,htype]
    exact ⟨rfl,rfl⟩

/-- A relay payload comes in on a connection; before that the node may do anything but
relay. -/
structure Arrival where
  conn : Nat
  plaintext : Bytes
  meanwhile : Impl → Impl

/-- Only `relay_seen` touches the set of seen frames. -/
def Arrival.Fair (a : Arrival) : Prop := ∀ st, (a.meanwhile st).relayDedup = st.relayDedup

def Impl.relays (env : Env) (st : Impl) : List Arrival → Impl
  | [] => st
  | a :: as => ((a.meanwhile st).handleRelay env a.conn a.plaintext).1.relays env as

/-- The inner frames a node has delivered or forwarded, in a run. -/
def Impl.processed (env : Env) (st : Impl) : List Arrival → List Bytes
  | [] => []
  | a :: as =>
    let rest := ((a.meanwhile st).handleRelay env a.conn a.plaintext).1.processed env as
    if (a.meanwhile st).processes env a.plaintext then relayedFrame a.plaintext :: rest else rest

/-- Every entry stems from one of the given frames. -/
def StemsFrom (env : Env) (entries : List RelayFingerprint) (frames : List Bytes) : Prop :=
  ∀ f ∈ entries, ∃ inner ∈ frames, ∃ now, f = (Header.decode inner).fingerprint env now

section
variable {env : Env} {st : Impl} {frames : List Bytes}

theorem StemsFrom.remembered (h : StemsFrom env st.relayDedup frames) :
    StemsFrom env (st.remembered env) frames := by
  intro f hf
  unfold Impl.remembered at hf
  split at hf
  · exact h f (List.mem_of_mem_filter hf)
  · exact h f hf

/-- A step of the run: what is remembered afterwards stems from what was processed. -/
theorem Impl.handleRelay_stems (id : Nat) (plaintext : Bytes)
    (h : StemsFrom env st.relayDedup frames) :
    StemsFrom env (st.handleRelay env id plaintext).1.relayDedup
      (frames ++ if st.processes env plaintext then [relayedFrame plaintext] else []) := by
  have hkept := h.remembered
  rw [handleRelay_dedup]
  unfold heard processes
  cases hr : isRelayable plaintext with
  | false => simpa [emit] using h
  | true =>
    simp only [ite_true,Bool.true_and]
    rw [relaySeen_eq]
    split
    · simpa [setDedup] using hkept
    · intro f hf
      rcases List.mem_cons.mp hf with rfl | hf
      · exact ⟨relayedFrame plaintext,by simp,_,rfl⟩
      · obtain ⟨inner,hin,now,hnow⟩ := hkept f hf
        exact ⟨inner,List.mem_append_left _ hin,now,hnow⟩

theorem Impl.relays_stem (as : List Arrival) (hfair : ∀ a ∈ as, a.Fair)
    (h : StemsFrom env st.relayDedup frames) :
    StemsFrom env (st.relays env as).relayDedup (frames ++ st.processed env as) := by
  induction as generalizing st frames with
  | nil => simpa [relays,processed] using h
  | cons a as ih =>
    have hbefore : StemsFrom env (a.meanwhile st).relayDedup frames := by
      rw [hfair a List.mem_cons_self]
      exact h
    have hnext := ih (fun b hb => hfair b (List.mem_cons_of_mem a hb))
      (handleRelay_stems a.conn a.plaintext hbefore)
    unfold relays processed
    dsimp only
    split
    · rename_i hp
      simpa [hp] using hnext
    · rename_i hp
      simpa [hp] using hnext

theorem Impl.dropsDuplicate_stems {plaintext : Bytes} (h : StemsFrom env st.relayDedup frames)
    (hd : st.dropsDuplicate env plaintext = true) :
    ∃ inner ∈ frames, (Header.decode inner).packetId =
        (Header.decode (relayedFrame plaintext)).packetId ∧
      (Header.decode inner).payloadType = (Header.decode (relayedFrame plaintext)).payloadType := by
  unfold dropsDuplicate at hd
  rw [Bool.and_eq_true,relaySeen_eq] at hd
  have hany : (st.remembered env).any ((Header.decode (relayedFrame plaintext)).fingerprint env
      (env.steady st.asked)).same = true := by
    by_contra hc
    simp [hc] at hd
  obtain ⟨f,hf,hsame⟩ := List.any_eq_true.mp hany
  obtain ⟨inner,hin,now,rfl⟩ := h.remembered f hf
  obtain ⟨hid,htype⟩ := (Header.fingerprint_same _ _ _ _ _).mp hsame
  exact ⟨inner,hin,hid.symm,htype.symm⟩

/-- A node drops a relayed frame as seen only if it has processed a frame with the same
packet id and type, on whatever connection; a frame that differs from all those in one of
the two is delivered or forwarded. -/
theorem relay_confuses_only_same_key {me : Impl} (hme : me.relayDedup = []) (as : List Arrival)
    (hfair : ∀ a ∈ as, a.Fair) (a : Arrival) (ha : a.Fair) :
    let before := a.meanwhile (me.relays env as)
    let hdr := Header.decode (relayedFrame a.plaintext)
    (before.dropsDuplicate env a.plaintext = true → ∃ inner ∈ me.processed env as,
      (Header.decode inner).packetId = hdr.packetId ∧
        (Header.decode inner).payloadType = hdr.payloadType) ∧
    (isRelayable a.plaintext = true → (∀ inner ∈ me.processed env as,
      (Header.decode inner).packetId ≠ hdr.packetId ∨
        (Header.decode inner).payloadType ≠ hdr.payloadType) →
      before.handleRelay env a.conn a.plaintext =
        (before.relaySeen env hdr).1.passOn env a.conn a.plaintext) := by
  intro before hdr
  have hstart : StemsFrom env me.relayDedup [] := by
    rw [hme]
    intro f hf
    cases hf
  have hstems : StemsFrom env before.relayDedup (me.processed env as) := by
    have hrun := Impl.relays_stem as hfair hstart
    rw [List.nil_append] at hrun
    show StemsFrom env (a.meanwhile (me.relays env as)).relayDedup _
    rw [ha]
    exact hrun
  refine ⟨Impl.dropsDuplicate_stems hstems,fun hrel hdiff => ?_⟩
  have hnew : (before.relaySeen env hdr).2 = false := by
    by_contra hc
    have hdrop : before.dropsDuplicate env a.plaintext = true := by
      unfold Impl.dropsDuplicate
      simpa [hrel] using hc
    obtain ⟨inner,hin,hid,htype⟩ := Impl.dropsDuplicate_stems hstems hdrop
    rcases hdiff inner hin with h | h
    · exact h hid
    · exact h htype
  rw [Impl.handleRelay_eq,hrel]
  simp only [ite_true]
  rw [hnew]
  rfl

end

/-- A relay payload for a third node with a small frame inside. -/
def sampleRelay (packetId : UInt64) (payload : Bytes) : Arrival where
  conn := 1
  plaintext := 5 :: ((sampleKey 9).bytes ++
    ((frameHeader 0 100 payload.length packetId).encode ++ payload))
  meanwhile := id

theorem relay_confuses_only_same_key_small :
    (∀ a ∈ [sampleRelay 1 [7]], a.Fair) ∧ (sampleRelay 2 [8]).Fair ∧
      ((Impl.start NodeIdentity.alice).relays (Env.sample false) [sampleRelay 1 [7]]).handleRelay
          (Env.sample false) 1 (sampleRelay 2 [8]).plaintext =
        ((((Impl.start NodeIdentity.alice).relays (Env.sample false) [sampleRelay 1 [7]]).relaySeen
          (Env.sample false) (Header.decode (relayedFrame (sampleRelay 2 [8]).plaintext))).1.passOn
            (Env.sample false) 1 (sampleRelay 2 [8]).plaintext) := by
  have hfair : ∀ a ∈ [sampleRelay 1 [7]], a.Fair := by
    intro a ha
    rw [List.mem_singleton.mp ha]
    exact fun _ => rfl
  refine ⟨hfair,fun _ => rfl,?_⟩
  have hstart : (Impl.start NodeIdentity.alice).relayDedup = [] := rfl
  exact (relay_confuses_only_same_key hstart [sampleRelay 1 [7]] hfair (sampleRelay 2 [8])
    (fun _ => rfl)).2 (by decide +kernel) (by decide +kernel)

/-- Two frames of different nodes that happen to have the same packet id and type. -/
theorem relay_drops_other_frame :
    ((Impl.start NodeIdentity.alice).relays (Env.sample false) [sampleRelay 1 [7]]).dropsDuplicate
        (Env.sample false) (sampleRelay 1 [8]).plaintext = true ∧
      relayedFrame (sampleRelay 1 [8]).plaintext ∉
        (Impl.start NodeIdentity.alice).processed (Env.sample false) [sampleRelay 1 [7]] := by
  constructor
  · decide +kernel
  · decide +kernel

end GoodNet
