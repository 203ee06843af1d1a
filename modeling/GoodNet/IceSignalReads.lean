import GoodNet.IceConnector
import GoodNet.Lib.CheckedReads
set_option autoImplicit false

/-! A signal from one end to the other: what a session announces is what the peer's session knows
afterwards, and `on_ice_signal` and what it posts read no bytes but those of the payload. -/

namespace GoodNet.Ice
open Codec CheckedReads

/-- Names that fit into their fields, and candidates the count can count. -/
structure FitsSignal (creds : IceCredentials) (candidates : List Candidate) : Prop where
  ufrag : creds.ufrag.length ≤ 16 ∧ ∀ b ∈ creds.ufrag, b ≠ 0
  pwd : creds.pwd.length ≤ 24 ∧ ∀ b ∈ creds.pwd, b ≠ 0
  count : candidates.length < 65536
  types : ∀ c ∈ candidates, CandidateType.ofByte c.type.byte = c.type

/-- What a payload tells the session: the kind, the credentials and the candidates. -/
def heardSignal (pl : Bytes) : Option (IceSignalKind × IceCredentials × List Candidate) :=
  (readSignal pl).bind (fun signal => (parseSignal signal.2).map (fun p =>
    (signal.1,⟨upToZero p.1.ufrag.bytes,upToZero p.1.pwd.bytes⟩,p.2.map wireToCandidate)))

def leU16At (b : Bytes) (i : Nat) : Option UInt16 :=
  (readBlock b i 2).map (fun x => UInt16.ofNat (leNat x))

def leU32At (b : Bytes) (i : Nat) : Option UInt32 :=
  (readBlock b i 4).map (fun x => UInt32.ofNat (leNat x))

/-- `wire_to_candidate` of the candidate at `i`. -/
def candidateAt (data : Bytes) (i : Nat) : Option Candidate := do
  let type ← data[i]?
  let priority ← leU32At data (i+4)
  let family ← data[i+1]?
  if family = 4 then do
    let addr ← readBlock data (i+8) 4
    let port ← leU16At data (i+2)
    some ⟨CandidateType.ofByte type,⟨.v4 (Block.ofBytes 4 addr),port⟩,priority⟩
  else do
    let addr ← readBlock data (i+8) 16
    let port ← leU16At data (i+2)
    some ⟨CandidateType.ofByte type,⟨.v6 (Block.ofBytes 16 addr),port⟩,priority⟩

/-- What `set_remote` reads: two names by `strnlen`, and the candidates. -/
def remoteAt (data : Bytes) (count : Nat) : Option (IceCredentials × List Candidate) := do
  let ufrag ← readUntil (fun x => x = 0) data 0 16
  let pwd ← readUntil (fun x => x = 0) data 16 24
  let candidates ← readEach (fun i => candidateAt data
    (IceSignalData.size+IceCandidateWire.size*i)) (List.range count)
  some (⟨ufrag,pwd⟩,candidates)

/-- `on_ice_signal` and the task it posts, with every read checked. -/
def readIceSignal (pl : Bytes) :
    Option (Option (IceSignalKind × IceCredentials × List Candidate)) :=
  if pl.length < IceSignalPayload.size then some none
  else do
    let sdpLen ← leU32At pl 4
    if pl.length < IceSignalPayload.size+sdpLen.toNat then some none
    else do
      let kind ← pl[0]?
      if sdpLen.toNat < IceSignalData.size then some none
      else do
        let data ← readBlock pl IceSignalPayload.size sdpLen.toNat
        let count ← leU16At data 40
        if data.length < IceSignalData.size+count.toNat*IceCandidateWire.size then some none
        else do
          let remote ← remoteAt data count.toNat
          some (some (IceSignalKind.ofByte kind,remote))

section
variable {b : Bytes} {i n : Nat}

theorem leU16At_eq (h : i+2 ≤ b.length) :
    leU16At b i = some (UInt16.ofNat (leNat ((b.drop i).take 2))) := by
  unfold leU16At
  rw [readBlock_eq h,Option.map_some]

theorem leU32At_eq (h : i+4 ≤ b.length) :
    leU32At b i = some (UInt32.ofNat (leNat ((b.drop i).take 4))) := by
  unfold leU32At
  rw [readBlock_eq h,Option.map_some]

theorem ofBytes_long (h : n ≤ b.length) : (Block.ofBytes n b).bytes = b.take n :=
  List.take_append_of_le_length h

theorem candidateAt_eq (h : i+IceCandidateWire.size ≤ b.length) :
    candidateAt b i = some (wireToCandidate (IceCandidateWire.decode (b.drop i))) := by
  unfold IceCandidateWire.size at h
  have hbyte : ∀ k < 24, b[i+k]? = some ((b.drop i).getD k 0) := by
    intro k hk
    rw [List.getD_eq_getElem?_getD,List.getElem?_drop,List.getElem?_eq_getElem (by omega)]
    rfl
  have haddr : ∀ k ≤ 16, Block.ofBytes k ((b.drop (i+8)).take k) =
      Block.ofBytes k (Block.ofBytes 16 ((b.drop i).drop 8)).bytes := by
    intro k hk
    have hlong : 16 ≤ (b.drop (i+8)).length := by
      rw [List.length_drop]
      omega
    apply Block.ext
    rw [List.drop_drop,ofBytes_long hlong,ofBytes_long (by rw [List.length_take]; omega),
      ofBytes_long (by rw [List.length_take]; omega),List.take_take,List.take_take,
      min_self,min_eq_left hk]
  unfold candidateAt
  rw [hbyte 1 (by omega),show b[i]? = _ from hbyte 0 (by omega),leU32At_eq (by omega),
    leU16At_eq (by omega),readBlock_eq (by omega),readBlock_eq (by omega)]
  simp only [Option.bind_eq_bind,Option.bind_some,haddr 4 (by omega),haddr 16 (Nat.le_refl 16),
    Block.ofBytes_bytes]
  unfold wireToCandidate IceCandidateWire.decode
  dsimp only
  simp only [List.drop_drop]
  split
  · rfl
  · rfl

theorem readCandidates_range (n : Nat) (b : Bytes) : readCandidates n b =
    (List.range n).map (fun i => IceCandidateWire.decode (b.drop (IceCandidateWire.size*i))) := by
  induction n generalizing b with
  | zero => rfl
  | succ n ih =>
    rw [readCandidates,ih,List.range_succ_eq_map,List.map_cons,List.map_map]
    refine congrArg _ (List.map_congr_left fun i _ => ?_)
    rw [List.drop_drop]
    exact congrArg (fun k => IceCandidateWire.decode (b.drop k)) (by
      change _ = IceCandidateWire.size*(i+1)
      ring)

theorem remoteAt_eq (h : IceSignalData.size+n*IceCandidateWire.size ≤ b.length) :
    remoteAt b n = some (⟨upToZero (IceSignalData.decode b).ufrag.bytes,
      upToZero (IceSignalData.decode b).pwd.bytes⟩,
      (readCandidates n (b.drop IceSignalData.size)).map wireToCandidate) := by
  have hsize : 44+n*24 ≤ b.length := h
  have hufrag : (Block.ofBytes 16 b).bytes = (b.drop 0).take 16 := ofBytes_long (by omega)
  have hpwd : (Block.ofBytes 24 (b.drop 16)).bytes = (b.drop 16).take 24 :=
    ofBytes_long (by rw [List.length_drop]; omega)
  have heach : readEach (fun i => candidateAt b (IceSignalData.size+IceCandidateWire.size*i))
      (List.range n) = some ((List.range n).map (fun i => wireToCandidate
        (IceCandidateWire.decode (b.drop (IceSignalData.size+IceCandidateWire.size*i))))) := by
    refine readEach_eq fun i hi => candidateAt_eq ?_
    have hlt := List.mem_range.1 hi
    unfold IceSignalData.size IceCandidateWire.size
    omega
  unfold remoteAt IceSignalData.decode upToZero
  rw [readUntil_eq _ (by omega),readUntil_eq _ (by omega),heach,hufrag,hpwd,
    readCandidates_range,List.map_map]
  simp only [Option.bind_eq_bind,Option.bind_some,List.drop_drop,Option.some.injEq,Prod.mk.injEq,
    IceCredentials.mk.injEq]
  refine ⟨⟨?_,?_⟩,rfl⟩
  · exact congrArg₂ List.takeWhile (funext fun x => by simp) rfl
  · exact congrArg₂ List.takeWhile (funext fun x => by simp) rfl

theorem leNat_lt (b : Bytes) : leNat b < 256^b.length := by
  induction b with
  | nil => exact Nat.one_pos
  | cons x rest ih =>
    have hx := x.toNat_lt
    rw [leNat,List.length_cons,Nat.pow_succ]
    omega

theorem readIceSignal_eq (pl : Bytes) : readIceSignal pl = some (heardSignal pl) := by
  unfold readIceSignal heardSignal readSignal
  dsimp only
  by_cases hhead : pl.length < IceSignalPayload.size
  · rw [if_pos hhead,if_pos hhead]
    rfl
  · have hsize : 8 ≤ pl.length := Nat.not_lt.1 hhead
    have hlen : (UInt32.ofNat (leNat ((pl.drop 4).take 4))).toNat = leNat ((pl.drop 4).take 4) := by
      have hfour : ((pl.drop 4).take 4).length = 4 := by
        rw [List.length_take,List.length_drop]
        omega
      have hlt := leNat_lt ((pl.drop 4).take 4)
      rw [hfour] at hlt
      exact UInt32.toNat_ofNat'.trans (Nat.mod_eq_of_lt hlt)
    have hkind : pl[0]? = some (pl.getD 0 0) := by
      rw [List.getD_eq_getElem?_getD,List.getElem?_eq_getElem (by omega)]
      rfl
    rw [if_neg hhead,if_neg hhead,leU32At_eq (by omega),hkind]
    simp only [Option.bind_eq_bind,Option.bind_some,hlen]
    by_cases hwhole : pl.length < IceSignalPayload.size+leNat ((pl.drop 4).take 4)
    · rw [if_pos hwhole,if_pos hwhole]
      rfl
    · rw [if_neg hwhole,if_neg hwhole]
      by_cases hshort : leNat ((pl.drop 4).take 4) < IceSignalData.size
      · rw [if_pos hshort,if_pos hshort]
        rfl
      · rw [if_neg hshort,if_neg hshort,readBlock_eq (Nat.not_lt.1 hwhole)]
        obtain ⟨data,hdata⟩ : ∃ d, d = (pl.drop IceSignalPayload.size).take
            (leNat ((pl.drop 4).take 4)) := ⟨_,rfl⟩
        have hroom : 44 ≤ data.length := by
          unfold IceSignalPayload.size at hwhole hdata
          unfold IceSignalData.size at hshort
          rw [hdata,List.length_take,List.length_drop]
          omega
        have hcount : leU16At data 40 = some (candidateCount data) := leU16At_eq (by omega)
        rw [← hdata,Option.bind_some,hcount,Option.bind_some,Option.bind_some]
        unfold parseSignal
        dsimp only
        by_cases hfew : data.length <
            IceSignalData.size+(candidateCount data).toNat*IceCandidateWire.size
        · rw [if_pos hfew,if_pos hfew]
          rfl
        · rw [if_neg hfew,if_neg hfew,remoteAt_eq (Nat.not_lt.1 hfew)]
          rfl

end

section
variable {creds : IceCredentials} {candidates : List Candidate}

theorem FitsSignal.length (h : FitsSignal creds candidates) :
    IceSignalData.size ≤ (serializeSignal creds candidates).length ∧
      (serializeSignal creds candidates).length < 2^32 := by
  have hcount := h.count
  rw [serializeSignal_length]
  unfold IceSignalData.size IceCandidateWire.size
  omega

theorem FitsSignal.candidates_eq (h : FitsSignal creds candidates) :
    (candidates.map candidateToWire).map wireToCandidate = candidates := by
  rw [List.map_map]
  exact (List.map_congr_left fun c hc => wireToCandidate_toWire (h.types c hc)).trans
    (List.map_id candidates)

theorem signalKind_byte (s : IceSession) : IceSignalKind.ofByte s.signalKind.byte = s.signalKind := by
  unfold IceSession.signalKind
  split
  · rfl
  · rfl

/-- What a session knows of its peer. -/
def IceSession.told (s : IceSession) : IceCredentials × List Candidate :=
  (s.remoteCreds,s.remoteCandidates)

theorem sendNextCheck_told (w : IceWorld) (s : IceSession) : (s.sendNextCheck w).told = s.told := by
  have hnext : (s.checkNext w).told = s.told :=
    core_field IceSession.told (fun _ => rfl) (checkNext_core w s)
  unfold IceSession.sendNextCheck
  split
  · rfl
  · dsimp only
    split
    · exact hnext
    · split
      · exact hnext
      · exact hnext

/-- The checks that may begin leave what the peer has announced as it is. -/
theorem setRemote_told (w : IceWorld) (t : IceSession) (remote : IceSignalData)
    (wires : List IceCandidateWire) : (t.setRemote w remote wires).told =
      (⟨upToZero remote.ufrag.bytes,upToZero remote.pwd.bytes⟩,wires.map wireToCandidate) := by
  unfold IceSession.setRemote
  dsimp only
  split
  · exact sendNextCheck_told w _
  · rfl

end

/-- A session's signal tells the peer's session its credentials and candidates, and of any payload
no bytes are read but its own. -/
theorem ice_signal_round_trip (s : IceSession) (h : FitsSignal s.localCreds s.localCandidates) :
    (∀ (c : IceConnector) (peer : String),
      (c.onIceSignal peer (signalPacket s.signalKind s.serializeSignal)).tasks =
        c.tasks ++ [.signal peer s.signalKind s.serializeSignal]) ∧
    (∃ remote wires, parseSignal s.serializeSignal = some (remote,wires) ∧
      ∀ (w : IceWorld) (t : IceSession),
        (t.setRemote w remote wires).told = (s.localCreds,s.localCandidates)) ∧
    heardSignal (signalPacket s.signalKind s.serializeSignal) =
      some (s.signalKind,s.localCreds,s.localCandidates) ∧
    ∀ pl, readIceSignal pl = some (heardSignal pl) := by
  have hread : readSignal (signalPacket s.signalKind s.serializeSignal) =
      some (s.signalKind,s.serializeSignal) :=
    readSignal_packet (signalKind_byte s) h.length.1 h.length.2
  have hparse : parseSignal s.serializeSignal = _ := parseSignal_serialize s.localCreds h.count
  have hufrag := upToZero_ofBytes h.ufrag.1 h.ufrag.2
  have hpwd := upToZero_ofBytes h.pwd.1 h.pwd.2
  refine ⟨fun c peer => ?_,⟨_,_,hparse,fun w t => ?_⟩,?_,readIceSignal_eq⟩
  · unfold IceConnector.onIceSignal
    rw [hread]
  · rw [setRemote_told,h.candidates_eq,hufrag,hpwd]
  · unfold heardSignal
    rw [hread,Option.bind_some,hparse,Option.map_some]
    dsimp only
    rw [h.candidates_eq,hufrag,hpwd]

/-- A session with a candidate of each family. -/
def dualStack : IceSession :=
  { IceSession.create true ⟨[],3⟩ [] [] 0 with
    localCandidates := [{ endpoint := ⟨.v4 ⟨[10,0,0,41],rfl⟩,5000⟩, priority := 7 },
      { type := .srflx, endpoint := ⟨.v6 ⟨List.replicate 16 9,rfl⟩,5001⟩, priority := 6 }] }

theorem dualStack_heard :
    heardSignal (signalPacket dualStack.signalKind dualStack.serializeSignal) =
      some (.offer,dualStack.localCreds,dualStack.localCandidates) := by
  have hfits : FitsSignal dualStack.localCreds dualStack.localCandidates := by
    obtain ⟨hulen,huzero⟩ := randomAlphanumeric_valid [] 16
    obtain ⟨hplen,hpzero⟩ := randomAlphanumeric_valid [] 24
    refine ⟨⟨hulen.le,huzero⟩,⟨hplen.le,hpzero⟩,by decide,?_⟩
    intro c hc
    simp only [dualStack,List.mem_cons,List.not_mem_nil,or_false] at hc
    rcases hc with rfl | rfl
    · rfl
    · rfl
  exact (ice_signal_round_trip dualStack hfits).2.2.1

end GoodNet.Ice
