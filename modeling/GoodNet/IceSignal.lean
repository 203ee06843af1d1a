import GoodNet.IceSession
import Mathlib.Data.List.GetD
set_option autoImplicit false

/-! The signals of the ICE connector: the payload of `MSG_TYPE_ICE_SIGNAL` and, in it, the
credentials and candidates of a session. The structures are packed and little-endian. -/

namespace GoodNet.Ice
open Codec

inductive IceSignalKind where
  | offer
  | answer
  | other (raw : UInt8)
  deriving DecidableEq, Repr

def IceSignalKind.ofByte (raw : UInt8) : IceSignalKind :=
  if raw = 0 then .offer else if raw = 1 then .answer else .other raw

def IceSignalKind.byte : IceSignalKind → UInt8
  | .offer => 0
  | .answer => 1
  | .other raw => raw

def CandidateType.byte : CandidateType → UInt8
  | .host => 0
  | .srflx => 1
  | .other raw => raw

def IceCandidateWire.size : Nat := 24

def IceCandidateWire.encode (w : IceCandidateWire) : Bytes :=
  [w.type,w.family] ++ leBytes 2 w.port.toNat ++ leBytes 4 w.priority.toNat ++ w.addr.bytes

def IceCandidateWire.decode (b : Bytes) : IceCandidateWire where
  type := b.getD 0 0
  family := b.getD 1 0
  port := UInt16.ofNat (leNat ((b.drop 2).take 2))
  priority := UInt32.ofNat (leNat ((b.drop 4).take 4))
  addr := Block.ofBytes 16 (b.drop 8)

@[simp] theorem IceCandidateWire.encode_length (w : IceCandidateWire) :
    w.encode.length = IceCandidateWire.size := by
  simp [encode,size]

theorem IceCandidateWire.decode_encode (w : IceCandidateWire) (tail : Bytes) :
    IceCandidateWire.decode (w.encode ++ tail) = w := by
  have hport := leNat_leBytes_of_lt (w := 2) (n := w.port.toNat) w.port.toNat_lt
  have hprio := leNat_leBytes_of_lt (w := 4) (n := w.priority.toNat) w.priority.toNat_lt
  have haddr := Block.ofBytes_append w.addr tail
  cases w
  simp_all [decode,encode,List.drop_append,List.drop_eq_nil_of_le]

def candidateToWire (c : Candidate) : IceCandidateWire where
  type := c.type.byte
  family := if c.endpoint.ip.isV4 then 4 else 6
  port := c.endpoint.port
  priority := c.priority
  addr :=
    match c.endpoint.ip with
    | .v4 a => Block.ofBytes 16 a.bytes
    | .v6 a => a

/-- A candidate keeps what it is, unless its type is one of the two with a name under another
one. -/
theorem wireToCandidate_toWire {c : Candidate} (h : CandidateType.ofByte c.type.byte = c.type) :
    wireToCandidate (candidateToWire c) = c := by
  obtain ⟨type,⟨ip,port⟩,priority⟩ := c
  cases ip with
  | v4 a =>
    have haddr : Block.ofBytes 4 (Block.ofBytes 16 a.bytes).bytes = a := by
      have hlen := a.size_eq
      have hall : List.take 16 a.bytes = a.bytes := List.take_of_length_le (by omega)
      apply Block.ext
      simp [Block.ofBytes,hlen,hall,List.take_append]
    simp only [wireToCandidate,candidateToWire,IpAddress.isV4,if_true,haddr]
    exact congrArg (fun t => (⟨t,⟨.v4 a,port⟩,priority⟩ : Candidate)) h
  | v6 a =>
    have hfamily : ¬((6 : UInt8) = 4) := by decide
    simp only [wireToCandidate,candidateToWire,IpAddress.isV4,Bool.false_eq_true,if_false,hfamily]
    exact congrArg (fun t => (⟨t,⟨.v6 a,port⟩,priority⟩ : Candidate)) h

def IceSignalData.size : Nat := 44

/-- With the count of the candidates that follow. -/
def IceSignalData.encode (d : IceSignalData) (candidateCount : UInt16) : Bytes :=
  d.ufrag.bytes ++ d.pwd.bytes ++ leBytes 2 candidateCount.toNat ++ [0,0]

def IceSignalData.decode (b : Bytes) : IceSignalData where
  ufrag := Block.ofBytes 16 b
  pwd := Block.ofBytes 24 (b.drop 16)

def candidateCount (b : Bytes) : UInt16 := UInt16.ofNat (leNat ((b.drop 40).take 2))

@[simp] theorem IceSignalData.encode_length (d : IceSignalData) (count : UInt16) :
    (d.encode count).length = IceSignalData.size := by
  simp [encode,size]

theorem IceSignalData.decode_encode (d : IceSignalData) (count : UInt16) (tail : Bytes) :
    IceSignalData.decode (d.encode count ++ tail) = d ∧
      candidateCount (d.encode count ++ tail) = count := by
  have hcount := leNat_leBytes_of_lt (w := 2) (n := count.toNat) count.toNat_lt
  have hufrag := d.ufrag.drop_bytes
  have hfront : (d.ufrag.bytes ++ d.pwd.bytes).length = 40 := by simp
  refine ⟨?_,?_⟩
  · simp only [decode,encode,List.append_assoc,Block.ofBytes_append,hufrag]
  · rw [candidateCount,encode,List.append_assoc,List.append_assoc,List.drop_left' hfront]
    simp [hcount]

def serializeSignal (creds : IceCredentials) (candidates : List Candidate) : Bytes :=
  IceSignalData.encode ⟨Block.ofBytes 16 creds.ufrag,Block.ofBytes 24 creds.pwd⟩
      (UInt16.ofNat candidates.length) ++
    candidates.flatMap (fun c => (candidateToWire c).encode)

def IceSession.serializeSignal (s : IceSession) : Bytes :=
  Ice.serializeSignal s.localCreds s.localCandidates

def readCandidates : Nat → Bytes → List IceCandidateWire
  | 0, _ => []
  | n+1, b => IceCandidateWire.decode b :: readCandidates n (b.drop IceCandidateWire.size)

/-- What the posted task makes of the data of a signal. -/
def parseSignal (data : Bytes) : Option (IceSignalData × List IceCandidateWire) :=
  let count := (candidateCount data).toNat
  if data.length < IceSignalData.size+count*IceCandidateWire.size then none
  else some (IceSignalData.decode data,readCandidates count (data.drop IceSignalData.size))

theorem readCandidates_encode (candidates : List Candidate) :
    readCandidates candidates.length (candidates.flatMap fun c => (candidateToWire c).encode) =
      candidates.map candidateToWire := by
  induction candidates with
  | nil => rfl
  | cons c rest ih =>
    have hdrop : ((candidateToWire c).encode ++
        rest.flatMap fun c => (candidateToWire c).encode).drop IceCandidateWire.size =
          rest.flatMap fun c => (candidateToWire c).encode :=
      List.drop_left' (IceCandidateWire.encode_length _)
    rw [List.length_cons,readCandidates,List.flatMap_cons,IceCandidateWire.decode_encode,hdrop,ih,
      List.map_cons]

theorem encoded_length (candidates : List Candidate) :
    (candidates.flatMap fun c => (candidateToWire c).encode).length =
      candidates.length*IceCandidateWire.size := by
  induction candidates with
  | nil => rfl
  | cons c rest ih =>
    rw [List.flatMap_cons,List.length_append,ih,IceCandidateWire.encode_length,List.length_cons]
    ring

theorem serializeSignal_length (creds : IceCredentials) (candidates : List Candidate) :
    (serializeSignal creds candidates).length =
      IceSignalData.size+candidates.length*IceCandidateWire.size := by
  rw [serializeSignal,List.length_append,IceSignalData.encode_length,encoded_length]

/-- A session's signal is read as it was written. -/
theorem parseSignal_serialize (creds : IceCredentials) {candidates : List Candidate}
    (h : candidates.length < 65536) : parseSignal (serializeSignal creds candidates) =
      some (⟨Block.ofBytes 16 creds.ufrag,Block.ofBytes 24 creds.pwd⟩,
        candidates.map candidateToWire) := by
  have hcount : (UInt16.ofNat candidates.length).toNat = candidates.length := by
    simp [Nat.mod_eq_of_lt h]
  obtain ⟨hdata,hread⟩ : IceSignalData.decode (serializeSignal creds candidates) =
      ⟨Block.ofBytes 16 creds.ufrag,Block.ofBytes 24 creds.pwd⟩ ∧
        candidateCount (serializeSignal creds candidates) = UInt16.ofNat candidates.length :=
    IceSignalData.decode_encode _ _ _
  have hdrop : (serializeSignal creds candidates).drop IceSignalData.size =
      candidates.flatMap fun c => (candidateToWire c).encode :=
    List.drop_left' (IceSignalData.encode_length _ _)
  have hlen := serializeSignal_length creds candidates
  unfold parseSignal
  simp only [hread,hcount,hdata,hdrop,hlen,Nat.lt_irrefl,if_false,readCandidates_encode]

/-- A name that fits into its field comes out of it as it was. -/
theorem upToZero_ofBytes {n : Nat} {name : Bytes} (hlen : name.length ≤ n)
    (hz : ∀ b ∈ name, b ≠ 0) : upToZero (Block.ofBytes n name).bytes = name := by
  have hfield : (Block.ofBytes n name).bytes = name ++ List.replicate (n-name.length) 0 := by
    simp [Block.ofBytes,List.take_append,List.take_of_length_le hlen]
  rw [upToZero,hfield,List.takeWhile_append_of_pos (by simpa using hz)]
  cases n-name.length with
  | zero => simp
  | succ k => simp [List.replicate_succ]

def IceSignalPayload.size : Nat := 8

/-- The packet of `send_signal`. -/
def signalPacket (kind : IceSignalKind) (data : Bytes) : Bytes :=
  [kind.byte,0,0,0] ++ leBytes 4 data.length ++ data

/-- What `on_ice_signal` lets through: kind and data. -/
def readSignal (pl : Bytes) : Option (IceSignalKind × Bytes) :=
  let sdpLen := leNat ((pl.drop 4).take 4)
  if pl.length < IceSignalPayload.size then none
  else if pl.length < IceSignalPayload.size+sdpLen then none
  else if sdpLen < IceSignalData.size then none
  else some (IceSignalKind.ofByte (pl.getD 0 0),(pl.drop IceSignalPayload.size).take sdpLen)

theorem readSignal_packet {kind : IceSignalKind} {data : Bytes}
    (hkind : IceSignalKind.ofByte kind.byte = kind) (hmin : IceSignalData.size ≤ data.length)
    (hmax : data.length < 2^32) : readSignal (signalPacket kind data) = some (kind,data) := by
  have hlen := leNat_leBytes_of_lt (w := 4) (n := data.length) hmax
  have hsdp : leNat (((signalPacket kind data).drop 4).take 4) = data.length := by
    simp [signalPacket,hlen]
  have hall : (signalPacket kind data).length = IceSignalPayload.size+data.length := by
    simp [signalPacket,IceSignalPayload.size]
    omega
  have hdrop : (signalPacket kind data).drop IceSignalPayload.size = data :=
    List.drop_left' (by simp [IceSignalPayload.size])
  unfold readSignal
  simp only [hsdp,hall,hdrop]
  rw [if_neg (by omega),if_neg (by omega),if_neg (by omega),List.take_of_length_le (le_refl _)]
  exact congrArg (fun k => some (k,data)) hkind

/-- What a session can announce: names that fit into their fields, and at least one candidate, of
the types that are collected. -/
structure Announceable (creds : IceCredentials) (candidates : List Candidate) : Prop where
  ufrag : creds.ufrag.length ≤ 16 ∧ ∀ b ∈ creds.ufrag, b ≠ 0
  pwd : creds.pwd.length ≤ 24 ∧ ∀ b ∈ creds.pwd, b ≠ 0
  some : candidates ≠ []
  count : candidates.length < 65536
  types : ∀ c ∈ candidates, c.type = .host ∨ c.type = .srflx

section
variable {creds : IceCredentials} {candidates : List Candidate}

theorem Announceable.candidates_eq (h : Announceable creds candidates) :
    (candidates.map candidateToWire).map wireToCandidate = candidates := by
  rw [List.map_map]
  refine (List.map_congr_left fun c hc => ?_).trans (List.map_id candidates)
  refine wireToCandidate_toWire ?_
  rcases h.types c hc with htype | htype <;> rw [htype] <;> rfl

theorem Announceable.readSignal (h : Announceable creds candidates) {kind : IceSignalKind}
    (hkind : IceSignalKind.ofByte kind.byte = kind) :
    Ice.readSignal (signalPacket kind (serializeSignal creds candidates)) =
      Option.some (kind,serializeSignal creds candidates) := by
  have hlen := serializeSignal_length creds candidates
  have hcount := h.count
  refine readSignal_packet hkind ?_ ?_
  · omega
  · rw [hlen,IceSignalData.size,IceCandidateWire.size]
    omega

end

theorem randomAlphanumeric_valid (random : Bytes) (len : Nat) :
    (randomAlphanumeric random len).length = len ∧ ∀ b ∈ randomAlphanumeric random len, b ≠ 0 := by
  have hsize : alphanumerics.length = 62 := by decide +kernel
  have hnonzero : ∀ b ∈ alphanumerics, b ≠ 0 := by decide +kernel
  refine ⟨by simp [randomAlphanumeric],fun b hb => ?_⟩
  obtain ⟨i,-,rfl⟩ := List.mem_map.1 hb
  have hlt : (random.getD i 0).toNat%62 < alphanumerics.length := by
    rw [hsize]
    exact Nat.mod_lt _ (by decide)
  rw [List.getD_eq_getElem _ _ hlt]
  exact hnonzero _ (List.getElem_mem hlt)

end GoodNet.Ice
