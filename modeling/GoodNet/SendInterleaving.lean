import GoodNet.ManagerRun
import GoodNet.Lib.NonceLedger
set_option autoImplicit false

/-! `build_frame` and `rekey_session` on one connection, each cut into the two steps between
which other threads may run: the packet id is drawn before the key is read, and the key is
replaced before the counter is set back. -/

namespace GoodNet
open Codec NonceLedger

/-- Whether `build_frame` encrypts a frame of the given type once there is a session. -/
def ConnectionRecord.seals (r : ConnectionRecord) (msgType : UInt32) : Bool :=
  !isHandshakeType msgType && !r.isLocalhost && !r.localhostPassthrough

/-- The key it does so with. -/
def ConnectionRecord.sealingKey (r : ConnectionRecord) (msgType : UInt32) : Option Key :=
  if r.seals msgType then r.session.map NoiseSession.sendKey else none

/-- The record as a thread sees it that holds a packet id already. -/
def ConnectionRecord.numbered (r : ConnectionRecord) (packetId : UInt64) : ConnectionRecord :=
  { r with sendPacketId := packetId }

/-- A call of `build_frame` between its two steps. -/
structure Build where
  packetId : UInt64
  msgType : UInt32
  payload : Bytes
  deriving DecidableEq, Repr

/-- A frame that was built, with the key it was encrypted with. -/
structure BuiltFrame where
  key : Option Key
  packetId : UInt64
  frame : Bytes
  deriving DecidableEq, Repr

/-- One connection and the threads at work on it. `keys` are the send keys so far, newest
first, and `next` is the packet counter without wrap-around. -/
structure Sender where
  record : ConnectionRecord
  building : List (Nat × Build) := []
  rekeying : List Nat := []
  built : List BuiltFrame := []
  keys : List Key := []
  next : Nat := 0

inductive SendStep where
  | take (thread : Nat) (msgType : UInt32) (payload : Bytes)
  | assemble (thread : Nat)
  | establish (handshake : Noise.HandshakeState)
  | replaceKey (thread : Nat)
  | resetCounter (thread : Nat)

/-- A thread that is in the middle of neither call. -/
def Sender.idle (s : Sender) (thread : Nat) : Bool :=
  s.building.all (fun b => b.1 != thread) && s.rekeying.all (fun t => t != thread)

def ConnectionRecord.build (S : Sodium) (Z : Zstd) (c : Compression) (r : ConnectionRecord)
    (b : Build) : BuiltFrame where
  key := r.sealingKey b.msgType
  packetId := b.packetId
  frame := (r.numbered b.packetId).frame S Z c b.msgType b.payload

/-- A step that its thread cannot take leaves everything as it is. -/
def Sender.act (S : Sodium) (Z : Zstd) (c : Compression) (s : Sender) : SendStep → Sender
  | .take thread msgType payload =>
    if s.idle thread then
      { s with record := s.record.takePacketId,
               building := (thread,⟨s.record.sendPacketId,msgType,payload⟩) :: s.building,
               next := s.next+1 }
    else s
  | .assemble thread =>
    match s.building.find? (fun b => b.1 == thread) with
    | none => s
    | some b =>
      { s with building := s.building.erase b,
               built := s.record.build S Z c b.2 :: s.built }
  | .establish hs =>
    match s.record.session with
    | none => { s with record := s.record.committed S hs, keys := [(hs.split S).1.key] }
    | some _ => s
  | .replaceKey thread =>
    match s.record.session with
    | none => s
    | some session =>
      if s.idle thread && s.record.established then
        { s with record := s.record.withSession (session.rekey S),
                 rekeying := thread :: s.rekeying,
                 keys := (session.rekey S).sendKey :: s.keys }
      else s
  | .resetCounter thread =>
    if thread ∈ s.rekeying then
      { s with record := s.record.numbered 1, rekeying := s.rekeying.erase thread, next := 1 }
    else s

def Sender.run (S : Sodium) (Z : Zstd) (c : Compression) (s : Sender) (steps : List SendStep) :
    Sender :=
  steps.foldl (Sender.act S Z c) s

/-- A promise about every step of a run, made in the state before it. -/
def Sender.Along (S : Sodium) (Z : Zstd) (c : Compression) (P : Sender → SendStep → Prop)
    (s : Sender) : List SendStep → Prop
  | [] => True
  | a :: rest => P s a ∧ (s.act S Z c a).Along S Z c P rest

/-- The key and the packet id of every encrypted frame. -/
def Sender.sealed (s : Sender) : List (Key × UInt64) :=
  s.built.filterMap (fun f => f.key.map (fun k => (k,f.packetId)))

/-- No nonce is used twice under one key, and none is zero. -/
structure Sender.NonceSafe (s : Sender) : Prop where
  once : s.sealed.Nodup
  positive : ∀ f ∈ s.sealed, 1 ≤ f.2

/-- The packet ids drawn for frames that are still to be encrypted. -/
def Sender.waiting (s : Sender) : List UInt64 :=
  (s.building.filter (fun b => s.record.seals b.2.msgType)).map (fun b => b.2.packetId)

/-- No frame is begun while a rekey is half done, none is half built when one begins, and
the session is not made before the counter has left zero. -/
def Sender.Orderly (s : Sender) : SendStep → Prop
  | .take _ msgType _ => s.record.seals msgType = true → s.rekeying = []
  | .establish _ => s.record.sendPacketId ≠ 0 ∧ 0 ∉ s.waiting
  | .replaceKey _ => s.waiting = []
  | _ => True

/-- Fewer than `2^64` packet ids are drawn before the counter is set back. -/
def Sender.Few (s : Sender) : SendStep → Prop
  | .take .. => s.next < 2^64
  | _ => True

instance Sender.decidableOrderly (s : Sender) : (a : SendStep) → Decidable (s.Orderly a)
  | .take _ msgType _ => inferInstanceAs (Decidable (s.record.seals msgType = true → s.rekeying = []))
  | .assemble _ => inferInstanceAs (Decidable True)
  | .establish _ => inferInstanceAs (Decidable (s.record.sendPacketId ≠ 0 ∧ 0 ∉ s.waiting))
  | .replaceKey _ => inferInstanceAs (Decidable (s.waiting = []))
  | .resetCounter _ => inferInstanceAs (Decidable True)

instance Sender.decidableFew (s : Sender) : (a : SendStep) → Decidable (s.Few a)
  | .take .. => inferInstanceAs (Decidable (s.next < 2^64))
  | .assemble _ => inferInstanceAs (Decidable True)
  | .establish _ => inferInstanceAs (Decidable True)
  | .replaceKey _ => inferInstanceAs (Decidable True)
  | .resetCounter _ => inferInstanceAs (Decidable True)

instance Sender.decidableAlong (S : Sodium) (Z : Zstd) (c : Compression)
    (P : Sender → SendStep → Prop) [∀ s a, Decidable (P s a)] :
    (s : Sender) → (steps : List SendStep) → Decidable (s.Along S Z c P steps)
  | _, [] => inferInstanceAs (Decidable True)
  | s, a :: rest => @instDecidableAnd _ _ _ (decidableAlong S Z c P (s.act S Z c a) rest)

/-- The connection as a ledger of the packet ids under each key. -/
def Sender.ledger (s : Sender) : Ledger Key where
  current := s.record.session.map NoiseSession.sendKey
  retired := s.keys.tail
  next := s.next
  renewals := s.rekeying.length
  waiting := s.waiting.map UInt64.toNat
  used := s.sealed.map (fun f => (f.1,f.2.toNat))

/-- The counter is the unbounded one cut to 64 bits, and the newest key is the one in use. -/
structure Sender.Aligned (s : Sender) : Prop where
  counter : s.record.sendPacketId = UInt64.ofNat s.next
  current : s.keys.head? = s.record.session.map NoiseSession.sendKey

section
variable {S : Sodium} {Z : Zstd} {c : Compression} {s : Sender}

/-- `sealingKey` is the key of the ciphertext in the frame. -/
theorem ConnectionRecord.frame_sealingKey {r : ConnectionRecord} {msgType : UInt32} {k : Key}
    (h : r.sealingKey msgType = some k) (payload : Bytes) :
    ∃ session, r.session = some session ∧ session.sendKey = k ∧
      (r.frame S Z c msgType payload).drop headerSize =
        session.encrypt S Z payload r.sendPacketId c := by
  unfold sealingKey at h
  split at h
  · rename_i hseal
    obtain ⟨session,hs,hk⟩ := Option.map_eq_some_iff.mp h
    simp only [seals,Bool.and_eq_true,Bool.not_eq_true'] at hseal
    refine ⟨session,hs,hk,?_⟩
    unfold frame
    simp only [hseal,hs,Bool.false_and,Bool.false_eq_true,ite_false,Bool.not_false,Bool.and_self,
      ite_true]
    exact List.drop_left' (Header.encode_length _)
  · cases h

/-- Without one, the payload is in the frame as it is. -/
theorem ConnectionRecord.frame_clear {r : ConnectionRecord} {msgType : UInt32}
    (h : r.sealingKey msgType = none) (payload : Bytes) :
    (r.frame S Z c msgType payload).drop headerSize = payload := by
  unfold sealingKey seals at h
  unfold frame
  cases hh : isHandshakeType msgType with
  | true =>
    simp only [Bool.not_true,Bool.and_false,Bool.false_and,Bool.false_eq_true,ite_false]
    exact List.drop_left' (Header.encode_length _)
  | false =>
    cases hp : r.localhostPassthrough with
    | true => exact List.drop_left' (Header.encode_length _)
    | false =>
      cases hl : r.isLocalhost with
      | true => exact List.drop_left' (Header.encode_length _)
      | false =>
        have hs : r.session = none := by simpa [hh,hp,hl] using h
        simp only [hs]
        exact List.drop_left' (Header.encode_length _)

/-- The two steps of `build_frame` with nothing in between. -/
theorem Sender.build_alone {thread : Nat} (h : s.idle thread = true) (msgType : UInt32)
    (payload : Bytes) :
    (s.act S Z c (.take thread msgType payload)).act S Z c (.assemble thread) =
      { s with
        record := s.record.takePacketId,
        next := s.next+1,
        built := ⟨s.record.sealingKey msgType,s.record.sendPacketId,
          s.record.frame S Z c msgType payload⟩ :: s.built } := by
  simp only [act,h,ite_true,List.find?_cons,beq_self_eq_true,List.erase_cons_head]
  rfl

theorem Impl.buildFrame_alone {env : Env} {st : Impl} {id : Nat} (hr : st.find id = some s.record)
    {thread : Nat} (h : s.idle thread = true) (msgType : UInt32) (payload : Bytes) :
    ∃ s', s' = (s.act env.sodium env.zstd st.compression (.take thread msgType payload)).act
        env.sodium env.zstd st.compression (.assemble thread) ∧
      (st.buildFrame env id msgType payload).1.find id = some s'.record ∧
      s'.built.head?.map BuiltFrame.frame = some (st.buildFrame env id msgType payload).2 := by
  refine ⟨_,rfl,?_,?_⟩
  · rw [Sender.build_alone h]
    unfold buildFrame
    rw [hr]
    simp only [Impl.find_modify_self,hr,Option.map_some]
  · rw [Sender.build_alone h]
    unfold buildFrame
    rw [hr]
    rfl

/-- The two steps of `rekey_session` with nothing in between. -/
theorem Impl.rekeySession_alone {env : Env} {st : Impl} {id : Nat}
    (hr : st.find id = some s.record) (he : s.record.established = true) {session : NoiseSession}
    (hs : s.record.session = some session) {thread : Nat} (h : s.idle thread = true) :
    ∃ s', s' = (s.act env.sodium env.zstd c (.replaceKey thread)).act env.sodium env.zstd c
        (.resetCounter thread) ∧
      (st.rekeySession env id).1.find id = some s'.record ∧ s'.rekeying = s.rekeying := by
  refine ⟨_,rfl,?_,?_⟩
  · unfold rekeySession
    simp only [hr,hs,he,Bool.not_true,Bool.false_eq_true,ite_false,Impl.find_emit,
      Impl.find_modify_self,Option.map_some,Sender.act,h,Bool.and_self,ite_true,List.mem_cons,
      true_or]
    rfl
  · simp only [Sender.act,hs,he,h,Bool.and_self,ite_true,List.mem_cons,true_or,
      List.erase_cons_head]

theorem ConnectionRecord.seals_committed (r : ConnectionRecord) (hs : Noise.HandshakeState)
    (msgType : UInt32) : (r.committed S hs).seals msgType = r.seals msgType := by
  unfold seals committed
  cases h : r.isLocalhost with
  | true => simp
  | false => simp

theorem Sender.Aligned.act (h : s.Aligned) (a : SendStep) : (s.act S Z c a).Aligned := by
  cases a with
  | take thread msgType payload =>
    simp only [Sender.act]
    split
    · refine ⟨?_,h.current⟩
      simp only [ConnectionRecord.takePacketId]
      rw [h.counter,UInt64.ofNat_add]
      rfl
    · exact h
  | assemble thread =>
    simp only [Sender.act]
    split
    · exact h
    · exact ⟨h.counter,h.current⟩
  | establish hs =>
    simp only [Sender.act]
    split
    · exact ⟨h.counter,rfl⟩
    · exact h
  | replaceKey thread =>
    simp only [Sender.act]
    split
    · exact h
    · split
      · exact ⟨h.counter,rfl⟩
      · exact h
  | resetCounter thread =>
    simp only [Sender.act]
    split
    · exact ⟨rfl,h.current⟩
    · exact h

theorem Sender.take_refines (h : s.Aligned) (thread : Nat) (msgType : UInt32) (payload : Bytes)
    (ho : s.Orderly (.take thread msgType payload)) (hf : s.next < 2^64) :
    s.act S Z c (.take thread msgType payload) = s ∨
      Step s.ledger (s.act S Z c (.take thread msgType payload)).ledger := by
  have hid : s.record.sendPacketId.toNat = s.next := by
    rw [h.counter,UInt64.toNat_ofNat']
    exact Nat.mod_eq_of_lt hf
  simp only [act]
  split
  · right
    cases hseal : s.record.seals msgType with
    | false =>
      have hwait : Sender.waiting { s with
          record := s.record.takePacketId,
          building := (thread,⟨s.record.sendPacketId,msgType,payload⟩) :: s.building,
          next := s.next+1 } = s.waiting := by
        unfold waiting
        rw [List.filter_cons_of_neg (by rw [Bool.not_eq_true]; exact hseal)]
        rfl
      have hstep := Step.skip s.ledger
      unfold ledger at hstep ⊢
      rw [hwait]
      exact hstep
    | true =>
      have hwait : Sender.waiting { s with
          record := s.record.takePacketId,
          building := (thread,⟨s.record.sendPacketId,msgType,payload⟩) :: s.building,
          next := s.next+1 } = s.record.sendPacketId :: s.waiting := by
        unfold waiting
        rw [List.filter_cons_of_pos (by exact hseal)]
        rfl
      have hstep := Step.draw s.ledger (by simp [ledger,ho hseal])
      unfold ledger at hstep ⊢
      rw [hwait,List.map_cons,hid]
      exact hstep
  · exact Or.inl rfl

theorem filter_erase_of_neg {α : Type} [BEq α] [LawfulBEq α] (p : α → Bool) (b : α)
    (hb : p b = false) (l : List α) : (l.erase b).filter p = l.filter p := by
  induction l with
  | nil => rfl
  | cons a l ih =>
    cases hab : a == b with
    | true =>
      rw [eq_of_beq hab,List.erase_cons_head,List.filter_cons_of_neg (by simp [hb])]
    | false =>
      rw [List.erase_cons_tail (by simp [hab]),List.filter_cons,List.filter_cons,ih]

theorem Sender.assemble_refines (thread : Nat) :
    (s.act S Z c (.assemble thread)).ledger = s.ledger ∨
      Step s.ledger (s.act S Z c (.assemble thread)).ledger := by
  simp only [act]
  split
  · exact Or.inl rfl
  · rename_i b hb
    have hmem := List.mem_of_find?_eq_some hb
    have hperm := List.perm_cons_erase hmem
    cases hseal : s.record.seals b.2.msgType with
    | false =>
      left
      have hkey : s.record.sealingKey b.2.msgType = none := by
        unfold ConnectionRecord.sealingKey
        rw [hseal]
        rfl
      have hwait : (s.building.erase b).filter (fun b => s.record.seals b.2.msgType) =
          s.building.filter (fun b => s.record.seals b.2.msgType) :=
        filter_erase_of_neg _ b hseal s.building
      unfold ledger waiting sealed
      rw [List.filterMap_cons_none (by simp [ConnectionRecord.build,hkey]),hwait]
    | true =>
      right
      have hwait : (s.waiting.map UInt64.toNat).Perm (b.2.packetId.toNat ::
          (((s.building.erase b).filter (fun b => s.record.seals b.2.msgType)).map
            (fun b => b.2.packetId)).map UInt64.toNat) := by
        have hpick := ((hperm.filter (fun b => s.record.seals b.2.msgType)).map
          (fun b => b.2.packetId)).map UInt64.toNat
        rw [List.filter_cons_of_pos (by exact hseal)] at hpick
        exact hpick
      cases hsess : s.record.session with
      | none =>
        have hkey : s.record.sealingKey b.2.msgType = none := by
          unfold ConnectionRecord.sealingKey
          rw [hseal,hsess]
          rfl
        have hstep := Step.drop s.ledger hwait
        unfold ledger sealed at hstep ⊢
        rw [List.filterMap_cons_none (by simp [ConnectionRecord.build,hkey])]
        exact hstep
      | some session =>
        have hkey : s.record.sealingKey b.2.msgType = some session.sendKey := by
          unfold ConnectionRecord.sealingKey
          rw [hseal,hsess]
          rfl
        have hstep := Step.use s.ledger (k := session.sendKey) (by simp [ledger,hsess]) hwait
        unfold ledger sealed at hstep ⊢
        rw [List.filterMap_cons_some (b := (session.sendKey,b.2.packetId))
          (by simp [ConnectionRecord.build,hkey])]
        exact hstep

theorem Sender.establish_refines (h : s.Aligned) (hs : Noise.HandshakeState)
    (ho : s.Orderly (.establish hs)) (hsound : Sound s.ledger) :
    s.act S Z c (.establish hs) = s ∨ Step s.ledger (s.act S Z c (.establish hs)).ledger := by
  simp only [act]
  split
  · rename_i hn
    right
    have hnone : s.ledger.current = none := by simp [ledger,hn]
    have hnext : s.ledger.next ≠ 0 := by
      intro hz
      apply ho.1
      rw [h.counter]
      exact congrArg UInt64.ofNat hz
    have hzero : 0 ∉ s.ledger.waiting := by
      intro hm
      obtain ⟨n,hn,hz⟩ := List.mem_map.mp hm
      have hid : n = 0 := UInt64.toNat_inj.mp hz
      rw [hid] at hn
      exact ho.2 hn
    have hkeys : s.keys.tail = [] := (hsound.closed hnone).2.1
    have hwait : Sender.waiting { s with
        record := s.record.committed S hs, keys := [(hs.split S).1.key] } = s.waiting := by
      unfold waiting
      simp only [ConnectionRecord.seals_committed]
    have hledger : Sender.ledger { s with
        record := s.record.committed S hs, keys := [(hs.split S).1.key] } =
          { s.ledger with current := some (hs.split S).1.key } := by
      unfold ledger
      rw [hwait,hkeys]
      rfl
    rw [hledger]
    exact Step.first s.ledger (hs.split S).1.key hnone hnext hzero
  · exact Or.inl rfl

theorem Sender.replaceKey_refines (h : s.Aligned) (thread : Nat)
    (ho : s.Orderly (.replaceKey thread)) (hk : (s.act S Z c (.replaceKey thread)).keys.Nodup) :
    s.act S Z c (.replaceKey thread) = s ∨
      Step s.ledger (s.act S Z c (.replaceKey thread)).ledger := by
  simp only [act] at hk ⊢
  split
  · exact Or.inl rfl
  · rename_i session hs
    simp only [hs] at hk
    split
    · rename_i hidle
      rw [if_pos hidle] at hk
      right
      have hkeys : s.keys = session.sendKey :: s.keys.tail := by
        have hhead := h.current
        rw [hs,Option.map_some] at hhead
        exact List.eq_cons_of_mem_head? hhead
      have hfresh : (session.rekey S).sendKey ∉ session.sendKey :: s.keys.tail := by
        rw [← hkeys]
        exact (List.nodup_cons.mp hk).1
      have hcurrent : s.ledger.current = some session.sendKey := by simp [ledger,hs]
      have hnone : s.waiting = [] := ho
      have hstep := Step.renew s.ledger (session.rekey S).sendKey hcurrent hfresh
        (by simp [ledger,hnone])
      unfold ledger at hstep ⊢
      rw [← hkeys] at hstep
      exact hstep
    · exact Or.inl rfl

theorem Sender.resetCounter_refines (thread : Nat) :
    s.act S Z c (.resetCounter thread) = s ∨
      Step s.ledger (s.act S Z c (.resetCounter thread)).ledger := by
  simp only [act]
  split
  · rename_i hm
    right
    have hopen : s.ledger.renewals ≠ 0 := by
      have hlen := List.length_pos_of_mem hm
      show s.rekeying.length ≠ 0
      omega
    have hstep := Step.restart s.ledger hopen
    unfold ledger at hstep ⊢
    rw [List.length_erase_of_mem hm]
    exact hstep
  · exact Or.inl rfl

/-- What a connection is known to be in, all along an orderly run. -/
structure Sender.Sound (s : Sender) : Prop where
  aligned : s.Aligned
  ledger : NonceLedger.Sound s.ledger

theorem Sender.Sound.act (h : s.Sound) (a : SendStep) (ho : s.Orderly a) (hf : s.Few a)
    (hk : (s.act S Z c a).keys.Nodup) : (s.act S Z c a).Sound := by
  have hrefines : (s.act S Z c a).ledger = s.ledger ∨ Step s.ledger (s.act S Z c a).ledger := by
    cases a with
    | take thread msgType payload =>
      exact (take_refines h.aligned thread msgType payload ho hf).imp_left (congrArg Sender.ledger)
    | assemble thread => exact assemble_refines thread
    | establish hs =>
      exact (establish_refines h.aligned hs ho h.ledger).imp_left (congrArg Sender.ledger)
    | replaceKey thread =>
      exact (replaceKey_refines h.aligned thread ho hk).imp_left (congrArg Sender.ledger)
    | resetCounter thread =>
      exact (resetCounter_refines thread).imp_left (congrArg Sender.ledger)
  refine ⟨h.aligned.act a,?_⟩
  rcases hrefines with he | hs
  · rw [he]
    exact h.ledger
  · exact hs.sound h.ledger

theorem Sender.Sound.fresh {r : ConnectionRecord} (hn : r.session = none)
    (hz : r.sendPacketId = 0) : Sender.Sound { record := r } where
  aligned := ⟨hz,by rw [hn]; rfl⟩
  ledger := {
    closed := fun _ => ⟨rfl,rfl,rfl⟩
    keyed := fun u hu => by cases hu
    retired := fun k hk => by cases hk
    once := List.nodup_nil
    positive := fun u hu => by cases hu
    waitingOnce := List.nodup_nil
    waitingBelow := fun n hm => by cases hm
    waitingPositive := fun _ hm => by cases hm
    unused := fun hr => absurd rfl hr
    begun := fun hc => absurd (by simp [Sender.ledger,hn]) hc
    spent := fun _ u hu => by cases hu }

/-- Keys are only ever added. -/
theorem Sender.keys_suffix (h : s.Aligned) (a : SendStep) : s.keys <:+ (s.act S Z c a).keys := by
  cases a with
  | take thread msgType payload =>
    simp only [act]
    split
    · exact List.suffix_rfl
    · exact List.suffix_rfl
  | assemble thread =>
    simp only [act]
    split
    · exact List.suffix_rfl
    · exact List.suffix_rfl
  | establish hs =>
    simp only [act]
    split
    · rename_i hn
      have hnone : s.keys = [] := by
        have hhead := h.current
        rw [hn] at hhead
        exact List.head?_eq_none_iff.mp hhead
      rw [hnone]
      exact List.nil_suffix
    · exact List.suffix_rfl
  | replaceKey thread =>
    simp only [act]
    split
    · exact List.suffix_rfl
    · split
      · exact List.suffix_cons _ _
      · exact List.suffix_rfl
  | resetCounter thread =>
    simp only [act]
    split
    · exact List.suffix_rfl
    · exact List.suffix_rfl

theorem Sender.keys_run (h : s.Aligned) (steps : List SendStep) :
    s.keys <:+ (s.run S Z c steps).keys := by
  induction steps generalizing s with
  | nil => exact List.suffix_rfl
  | cons a steps ih => exact (keys_suffix h a).trans (ih (h.act a))

theorem Sender.Sound.run (h : s.Sound) (steps : List SendStep)
    (ho : s.Along S Z c Sender.Orderly steps) (hf : s.Along S Z c Sender.Few steps)
    (hk : (s.run S Z c steps).keys.Nodup) : (s.run S Z c steps).Sound := by
  induction steps generalizing s with
  | nil => exact h
  | cons a steps ih =>
    have hnext : (s.act S Z c a).keys.Nodup :=
      hk.sublist (keys_run (h.aligned.act a) steps).sublist
    exact ih (h.act a ho.1 hf.1 hnext) ho.2 hf.2 hk

theorem Sender.Sound.nonceSafe (h : s.Sound) : s.NonceSafe := by
  refine ⟨List.Nodup.of_map _ h.ledger.once,fun f hf => ?_⟩
  have hpos := h.ledger.positive (f.1,f.2.toNat) (List.mem_map_of_mem hf)
  rw [UInt64.le_iff_toNat_le]
  exact Nat.one_le_iff_ne_zero.mpr hpos

end

/-- In every run of a connection in which no frame is begun or half built while the key
changes, no two frames are encrypted with the same key and packet id, and none with packet
id zero, as long as the keys differ and the counter does not run over. -/
theorem orderly_sends_nonce_safe (S : Sodium) (Z : Zstd) (c : Compression) (r : ConnectionRecord)
    (hn : r.session = none) (hz : r.sendPacketId = 0) (steps : List SendStep)
    (ho : Sender.Along S Z c Sender.Orderly { record := r } steps)
    (hf : Sender.Along S Z c Sender.Few { record := r } steps)
    (hk : (Sender.run S Z c { record := r } steps).keys.Nodup) :
    (Sender.run S Z c { record := r } steps).NonceSafe :=
  ((Sender.Sound.fresh hn hz).run steps ho hf hk).nonceSafe

/-- A connection to a remote peer, before anything has been sent on it. -/
def freshRecord : ConnectionRecord := { id := 1, remote := Endpoint.sample "a" 0 }

/-- The handshake frame, then the session. -/
def establishes : List SendStep :=
  [.take 0 msgTypeNoiseResp [],.assemble 0,
    .establish (Noise.HandshakeState.init Sodium.sample false (sampleKey 1) (sampleKey 2))]

/-- One frame under each of two keys. -/
def orderlySends : List SendStep := establishes ++
  [.take 1 msgTypeChat [104],.assemble 1,.replaceKey 2,.resetCounter 2,
    .take 1 msgTypeChat [105],.assemble 1]

set_option maxRecDepth 10000 in
theorem orderly_sends_nonce_safe_rekeyed :
    (Sender.run Sodium.sample Zstd.sample {} { record := freshRecord } orderlySends).NonceSafe ∧
      (Sender.run Sodium.sample Zstd.sample {} { record := freshRecord } orderlySends).sealed.length =
        2 := by
  constructor
  · exact orderly_sends_nonce_safe Sodium.sample Zstd.sample {} freshRecord rfl rfl orderlySends
      (by decide +kernel) (by decide +kernel) (by decide +kernel)
  · decide +kernel

/-- A frame gets its packet id before the key changes and is encrypted after it; the counter
comes round to the same number again. -/
def crossedSends : List SendStep := establishes ++
  [.take 1 msgTypeChat [104],.replaceKey 2,.assemble 1,.resetCounter 2,
    .take 1 msgTypeChat [105],.assemble 1]

set_option maxRecDepth 10000 in
theorem crossed_sends_reuse_nonce :
    Sender.Along Sodium.sample Zstd.sample {} Sender.Few { record := freshRecord } crossedSends ∧
      (Sender.run Sodium.sample Zstd.sample {} { record := freshRecord } crossedSends).keys.Nodup ∧
      ¬(Sender.run Sodium.sample Zstd.sample {} { record := freshRecord } crossedSends).NonceSafe := by
  refine ⟨by decide +kernel,by decide +kernel,fun h => ?_⟩
  have hnot : ¬(Sender.run Sodium.sample Zstd.sample {} { record := freshRecord }
      crossedSends).sealed.Nodup := by decide +kernel
  exact hnot h.once

end GoodNet
