import GoodNet.SchemeTable
import GoodNet.SendFootprint
import GoodNet.Lib.CheckedReads
set_option autoImplicit false

/-! The paths a heartbeat tells the peer of. `send_heartbeat` writes a count and an entry for each
of the first eight paths, and `handle_heartbeat` reads as many as are counted and complete. -/

namespace GoodNet
open Codec CheckedReads

/-- What the peer learns of a path. -/
def TransportPath.shown (p : TransportPath) : PeerPathInfo where
  scheme := stringOfBytes (cutScheme (bytesOfString p.scheme))
  active := p.active
  priority := p.priority
  rttCompressed := UInt16.ofNat (min (p.lastRttUs.toNat/10) 65535)

/-- The payload of a heartbeat. -/
def heartbeatBytes (hb : HeartbeatPayload) (paths : List TransportPath) : Bytes :=
  hb.encode ++ heartbeatExtension paths

/-- Where the entries start. -/
def heartbeatEntriesOffset : Nat := heartbeatPayloadSize+1

/-- The entries are no more than counted and than eight, and each is complete. -/
structure EntriesComplete (payload : Bytes) (info : List PeerPathInfo) : Prop where
  few : info.length ≤ heartbeatMaxPaths
  counted : info.length ≤ (payload.getD heartbeatPayloadSize 0).toNat
  inside : info ≠ [] →
    heartbeatEntriesOffset+heartbeatPathEntrySize*info.length ≤ payload.length
  entry : ∀ i (h : i < info.length), info[i] = parseHeartbeatEntry
    ((payload.drop (heartbeatEntriesOffset+heartbeatPathEntrySize*i)).take heartbeatPathEntrySize)

/-- The fields of the base payload that are used, read one by one. -/
def readHeartbeatPayload (payload : Bytes) : Option HeartbeatPayload := do
  let timestamp ← readBlock payload 0 8
  let seq ← readBlock payload 8 4
  let flags ← payload[12]?
  some ⟨UInt64.ofNat (leNat timestamp),UInt32.ofNat (leNat seq),flags⟩

/-- An entry, its name by `strnlen`. -/
def readHeartbeatEntry (payload : Bytes) (offset : Nat) : Option PeerPathInfo := do
  let name ← readUntil (fun x => x = 0) payload offset 16
  let active ← payload[offset+16]?
  let priority ← payload[offset+17]?
  let rtt ← readBlock payload (offset+18) 2
  some ⟨stringOfBytes name,active != 0,priority,UInt16.ofNat (leNat rtt)⟩

def readHeartbeatExtension (payload : Bytes) : Option (List PeerPathInfo) :=
  if payload.length ≤ heartbeatPayloadSize+1 then some []
  else do
    let count ← payload[heartbeatPayloadSize]?
    let parseable := min (min count.toNat heartbeatMaxPaths)
      ((payload.length-heartbeatEntriesOffset)/heartbeatPathEntrySize)
    readEach (fun i => readHeartbeatEntry payload (heartbeatEntriesOffset+heartbeatPathEntrySize*i))
      (List.range parseable)

/-- `handle_heartbeat` with every read checked. -/
def Impl.handleHeartbeatReads (env : Env) (st : Impl) (id : Nat) (payload : Bytes) : Option Impl :=
  if payload.length < heartbeatPayloadSize then some st
  else do
    let hb ← readHeartbeatPayload payload
    let info ← readHeartbeatExtension payload
    let st := st.modify id (fun r => r.heardPaths info)
    some (if hb.flags = 0 then
        st.sendFrame env id msgTypeHeartbeat ({ hb with flags := 1 } : HeartbeatPayload).encode
      else if hb.flags = 1 then
        st.ask.modify id (fun r => r.pong (env.steady st.asked) (env.wall st.asked) hb)
      else st)

section
variable {env : Env} {st : Impl} {id : Nat} {r : ConnectionRecord} {payload : Bytes}

theorem HeartbeatPayload.encode_length (hb : HeartbeatPayload) :
    hb.encode.length = heartbeatPayloadSize := by
  simp [encode,heartbeatPayloadSize]

theorem TransportPath.heartbeatEntry_length (p : TransportPath) :
    p.heartbeatEntry.length = heartbeatPathEntrySize := by
  unfold TransportPath.heartbeatEntry
  rw [List.length_append,List.length_append,schemeSlot_length,leBytes_length]
  rfl

theorem getElem?_of_lt {b : Bytes} {i : Nat} (h : i < b.length) : b[i]? = some (b.getD i 0) := by
  rw [List.getD_eq_getElem?_getD,List.getElem?_eq_getElem h,Option.getD_some]

/-- An entry is read as it was written. -/
theorem parseHeartbeatEntry_shown (p : TransportPath) :
    parseHeartbeatEntry p.heartbeatEntry = p.shown := by
  have hslot : schemeSlot p.scheme = schemeSlot (stringOfBytes (bytesOfString p.scheme)) := by
    unfold schemeSlot
    rw [bytesOfString_stringOfBytes]
  have hname : cString (schemeSlot p.scheme) = cutScheme (bytesOfString p.scheme) := by
    have hread := cString_schemeSlot (bytesOfString p.scheme) []
    rw [List.append_nil,← hslot] at hread
    exact hread
  have hlen : (schemeSlot p.scheme).length = 16 := schemeSlot_length p.scheme
  have hrtt : min (p.lastRttUs.toNat/10) 65535 < 256^2 := by omega
  have hentry : p.heartbeatEntry = schemeSlot p.scheme ++
      ((if p.active then 1 else 0) :: p.priority ::
        leBytes 2 (min (p.lastRttUs.toNat/10) 65535)) := by
    unfold TransportPath.heartbeatEntry
    rw [List.append_assoc]
    rfl
  rw [hentry]
  generalize schemeSlot p.scheme = slot at hname hlen
  have hfield : ∀ (rest : Bytes) (i : Nat), (slot ++ rest).getD (16+i) 0 = rest.getD i 0 := by
    intro rest i
    have hle : slot.length ≤ 16+i := by omega
    rw [List.getD_eq_getElem?_getD,List.getElem?_append_right hle,hlen,Nat.add_sub_cancel_left,
      List.getD_eq_getElem?_getD]
  have hdrop : ∀ rest : Bytes, (slot ++ rest).drop 18 = rest.drop 2 := by
    intro rest
    rw [show 18 = slot.length+2 by rw [hlen],← List.drop_drop,List.drop_left]
  unfold parseHeartbeatEntry TransportPath.shown
  rw [List.take_left' hlen,hfield _ 0,hfield _ 1,hdrop]
  congr 1
  · exact congrArg stringOfBytes hname
  · cases p.active <;> rfl
  · rw [List.drop_succ_cons,List.drop_succ_cons,List.drop_zero,
      List.take_of_length_le (leBytes_length 2 _).le,leNat_leBytes_of_lt hrtt]

theorem entries_read (paths : List TransportPath) :
    (List.range paths.length).map (fun i => parseHeartbeatEntry
      (((paths.flatMap TransportPath.heartbeatEntry).drop (heartbeatPathEntrySize*i)).take
        heartbeatPathEntrySize)) = paths.map TransportPath.shown := by
  induction paths with
  | nil => rfl
  | cons p paths ih =>
    rw [List.length_cons,List.range_succ_eq_map,List.map_cons,List.map_map,List.map_cons,← ih]
    refine congrArg₂ List.cons ?_ ?_
    · rw [Nat.mul_zero,List.drop_zero,List.flatMap_cons,
        List.take_left' p.heartbeatEntry_length,parseHeartbeatEntry_shown]
    · refine List.map_congr_left fun i _ => ?_
      have hdrop : heartbeatPathEntrySize*(i+1) =
          p.heartbeatEntry.length+heartbeatPathEntrySize*i := by
        rw [p.heartbeatEntry_length]
        unfold heartbeatPathEntrySize
        omega
      rw [Function.comp_apply,Nat.succ_eq_add_one,hdrop,List.flatMap_cons,← List.drop_drop,
        List.drop_left]

theorem entries_length (paths : List TransportPath) :
    (paths.flatMap TransportPath.heartbeatEntry).length = heartbeatPathEntrySize*paths.length := by
  induction paths with
  | nil => rfl
  | cons p paths ih =>
    rw [List.flatMap_cons,List.length_append,ih,p.heartbeatEntry_length,List.length_cons,
      Nat.mul_succ,Nat.add_comm]

/-- The paths that were written are read back. -/
theorem parseHeartbeatExtension_shown (hb : HeartbeatPayload) (paths : List TransportPath) :
    parseHeartbeatExtension (heartbeatBytes hb paths) =
      (paths.take heartbeatMaxPaths).map TransportPath.shown := by
  have hfew : (paths.take heartbeatMaxPaths).length ≤ heartbeatMaxPaths := List.length_take_le _ _
  generalize hshown : paths.take heartbeatMaxPaths = shown at hfew ⊢
  have hbase := hb.encode_length
  have hsplit : heartbeatBytes hb paths = hb.encode ++
      (UInt8.ofNat shown.length :: shown.flatMap TransportPath.heartbeatEntry) := by
    unfold heartbeatBytes heartbeatExtension
    rw [hshown]
  have hlen : (heartbeatBytes hb paths).length =
      heartbeatPayloadSize+(heartbeatPathEntrySize*shown.length+1) := by
    rw [hsplit,List.length_append,hbase,List.length_cons,entries_length]
  have hcount : ((heartbeatBytes hb paths).getD heartbeatPayloadSize 0).toNat = shown.length := by
    rw [hsplit,List.getD_eq_getElem?_getD,List.getElem?_append_right hbase.le,hbase,Nat.sub_self,
      List.getElem?_cons_zero,Option.getD_some,UInt8.toNat_ofNat']
    unfold heartbeatMaxPaths at hfew
    omega
  have hentries : (heartbeatBytes hb paths).drop (heartbeatPayloadSize+1) =
      shown.flatMap TransportPath.heartbeatEntry := by
    rw [hsplit,← List.drop_drop,← hbase,List.drop_left]
    rfl
  unfold parseHeartbeatExtension
  cases shown with
  | nil =>
    rw [if_pos (by rw [hlen]; simp)]
    rfl
  | cons p shown =>
    rw [if_neg (by
      rw [hlen,List.length_cons]
      unfold heartbeatPathEntrySize
      omega)]
    dsimp only
    have hpos : 0 < heartbeatPathEntrySize := by decide
    rw [hentries,hcount,entries_length,Nat.mul_div_cancel_left _ hpos,Nat.min_eq_left hfew,
      Nat.min_self,entries_read]

/-- Whatever the bytes, no more is taken than is there. -/
theorem parseHeartbeatExtension_complete (payload : Bytes) :
    EntriesComplete payload (parseHeartbeatExtension payload) := by
  unfold parseHeartbeatExtension
  split
  · exact ⟨Nat.zero_le _,Nat.zero_le _,fun h => absurd rfl h,fun i h => absurd h (Nat.not_lt_zero _)⟩
  · rename_i hlong
    dsimp only
    generalize hn : min (min (payload.getD heartbeatPayloadSize 0).toNat heartbeatMaxPaths)
      ((payload.drop (heartbeatPayloadSize+1)).length/heartbeatPathEntrySize) = n
    have hdiv : n ≤ (payload.drop (heartbeatPayloadSize+1)).length/heartbeatPathEntrySize := by omega
    have hroom : n*heartbeatPathEntrySize ≤ (payload.drop (heartbeatPayloadSize+1)).length :=
      (Nat.le_div_iff_mul_le (by decide)).1 hdiv
    rw [List.length_drop] at hroom
    refine ⟨?_,?_,fun _ => ?_,fun i hi => ?_⟩
    · rw [List.length_map,List.length_range]
      omega
    · rw [List.length_map,List.length_range]
      omega
    · rw [List.length_map,List.length_range,Nat.mul_comm]
      unfold heartbeatEntriesOffset
      omega
    · rw [List.getElem_map,List.getElem_range,List.drop_drop]
      rfl

theorem readHeartbeatPayload_eq (h : heartbeatPayloadSize ≤ payload.length) :
    readHeartbeatPayload payload = some (HeartbeatPayload.decode payload) := by
  unfold heartbeatPayloadSize at h
  unfold readHeartbeatPayload
  rw [readBlock_eq (by omega),readBlock_eq (by omega),getElem?_of_lt (by omega)]
  rfl

theorem readHeartbeatEntry_eq {offset : Nat}
    (h : offset+heartbeatPathEntrySize ≤ payload.length) : readHeartbeatEntry payload offset =
      some (parseHeartbeatEntry ((payload.drop offset).take heartbeatPathEntrySize)) := by
  unfold heartbeatPathEntrySize at h ⊢
  have hfield : ∀ i < 20, ((payload.drop offset).take 20).getD i 0 = payload.getD (offset+i) 0 := by
    intro i hi
    simp only [List.getD_eq_getElem?_getD,List.getElem?_take_of_lt hi,List.getElem?_drop]
  have hname : ((payload.drop offset).take 20).take 16 = (payload.drop offset).take 16 := by
    rw [List.take_take]
    rfl
  have hrtt : (((payload.drop offset).take 20).drop 18).take 2 =
      (payload.drop (offset+18)).take 2 := by
    rw [List.drop_take,List.drop_drop,List.take_take]
    rfl
  unfold readHeartbeatEntry parseHeartbeatEntry
  rw [readUntil_eq _ (by omega),getElem?_of_lt (by omega),getElem?_of_lt (by omega),
    readBlock_eq (by omega),hfield 16 (by omega),hfield 17 (by omega),hname,hrtt]
  simp only [Option.bind_eq_bind,Option.bind_some,Option.some.injEq,PeerPathInfo.mk.injEq,
    and_true]
  congr 2
  funext x
  simp

theorem readHeartbeatExtension_eq (payload : Bytes) :
    readHeartbeatExtension payload = some (parseHeartbeatExtension payload) := by
  unfold readHeartbeatExtension parseHeartbeatExtension
  split
  · rfl
  · rename_i hlong
    have hcount : heartbeatPayloadSize < payload.length := by omega
    have hsize : (payload.drop (heartbeatPayloadSize+1)).length =
        payload.length-heartbeatEntriesOffset := List.length_drop ..
    dsimp only
    rw [getElem?_of_lt hcount,hsize,Option.bind_eq_bind,Option.bind_some]
    refine (readEach_eq fun i hi => ?_).trans (congrArg some (List.map_congr_left fun i hi => rfl))
    have hi' := List.mem_range.1 hi
    have hdiv : i+1 ≤ (payload.length-heartbeatEntriesOffset)/heartbeatPathEntrySize := by omega
    have hroom := (Nat.le_div_iff_mul_le (by decide)).1 hdiv
    have hinside : heartbeatEntriesOffset+heartbeatPathEntrySize*i+heartbeatPathEntrySize ≤
        payload.length := by
      unfold heartbeatEntriesOffset heartbeatPathEntrySize at *
      omega
    rw [readHeartbeatEntry_eq hinside,List.drop_drop]
    rfl

/-- No read is outside of the payload. -/
theorem Impl.handleHeartbeatReads_eq (env : Env) (st : Impl) (id : Nat) (payload : Bytes) :
    st.handleHeartbeatReads env id payload = some (st.handleHeartbeat env id payload) := by
  unfold handleHeartbeatReads handleHeartbeat
  split
  · rfl
  · rename_i hlong
    rw [readHeartbeatPayload_eq (Nat.not_lt.1 hlong),readHeartbeatExtension_eq]
    rfl

theorem ConnectionRecord.pong_info (r : ConnectionRecord) (steady wall : Nat)
    (hb : HeartbeatPayload) : (r.pong steady wall hb).peerTransportInfo = r.peerTransportInfo := by
  unfold pong recordRtt
  dsimp only
  split
  · split
    · rfl
    · rfl
  · rfl

/-- What a heartbeat leaves in the record of its connection. -/
theorem Impl.handleHeartbeat_info (hr : st.find id = some r) (payload : Bytes) :
    ∃ r', (st.handleHeartbeat env id payload).find id = some r' ∧
      r'.peerTransportInfo = if parseHeartbeatExtension payload = [] then r.peerTransportInfo
        else parseHeartbeatExtension payload := by
  unfold handleHeartbeat
  split
  · rename_i hshort
    refine ⟨r,hr,?_⟩
    have hnone : parseHeartbeatExtension payload = [] := by
      unfold parseHeartbeatExtension
      rw [if_pos (by omega)]
    rw [if_pos hnone]
  · dsimp only
    generalize parseHeartbeatExtension payload = info
    have hheard : (r.heardPaths info).peerTransportInfo =
        if info = [] then r.peerTransportInfo else info := by
      unfold ConnectionRecord.heardPaths
      cases info with
      | nil => rfl
      | cons p info => rfl
    have hfind : (st.modify id (fun r => r.heardPaths info)).find id = some (r.heardPaths info) := by
      rw [find_modify_self,hr]
      rfl
    split
    · have hfoot : Footprint ((st.modify id (fun r => r.heardPaths info)).OnPath id)
          (st.modify id (fun r => r.heardPaths info)) _ := sendFrame_footprint env _ id
            msgTypeHeartbeat ({ HeartbeatPayload.decode payload with flags := 1 } :
              HeartbeatPayload).encode
      obtain ⟨r',hr',hsame⟩ := hfoot.found hfind
      refine ⟨r',hr',?_⟩
      rw [ConnectionRecord.unsent_field ConnectionRecord.peerTransportInfo (fun _ => rfl) hsame]
      exact hheard
    · split
      · refine ⟨(r.heardPaths info).pong (env.steady st.asked) (env.wall st.asked)
          (HeartbeatPayload.decode payload),?_,(ConnectionRecord.pong_info ..).trans hheard⟩
        rw [find_modify_self,find_ask,hfind]
        rfl
      · exact ⟨_,hfind,hheard⟩

end

/-- The bytes of a heartbeat that was sent leave the first eight paths, each scheme cut at its first
NUL and at fifteen characters. Of any bytes none outside the payload is read, and what is stored are
complete entries. -/
theorem heartbeat_paths (env : Env) :
    (∀ (sender : Impl) id r, sender.find id = some r → r.established = true →
      ∃ hb, sender.sendHeartbeat env id = (sender.ask.modify id (fun r =>
        { r with heartbeatSeq := r.heartbeatSeq+1 })).sendFrame env id msgTypeHeartbeat
          (heartbeatBytes hb r.transportPaths)) ∧
    (∀ (st : Impl) id r hb paths, st.find id = some r → paths ≠ [] →
      ∃ r', (st.handleHeartbeat env id (heartbeatBytes hb paths)).find id = some r' ∧
        r'.peerTransportInfo = (paths.take heartbeatMaxPaths).map TransportPath.shown) ∧
    (∀ p : TransportPath, p.shown.rttCompressed.toNat = min (p.lastRttUs.toNat/10) 65535 ∧
      (0 ∉ bytesOfString p.scheme →
        p.shown.scheme = stringOfBytes ((bytesOfString p.scheme).take 15))) ∧
    ∀ (st : Impl) id payload,
      st.handleHeartbeatReads env id payload = some (st.handleHeartbeat env id payload) ∧
      ∀ r, st.find id = some r → ∃ r', (st.handleHeartbeat env id payload).find id = some r' ∧
        (r'.peerTransportInfo = r.peerTransportInfo ∨
          r'.peerTransportInfo ≠ [] ∧ EntriesComplete payload r'.peerTransportInfo) := by
  refine ⟨fun sender id r hr he => ?_,fun st id r hb paths hr hne => ?_,fun p => ⟨?_,fun h => ?_⟩,
    fun st id payload => ⟨st.handleHeartbeatReads_eq env id payload,fun r hr => ?_⟩⟩
  · refine ⟨⟨UInt64.ofNat (env.wall sender.asked),r.heartbeatSeq,0⟩,?_⟩
    simp only [Impl.sendHeartbeat,hr,he,Bool.not_true,Bool.false_eq_true,if_false]
    rfl
  · obtain ⟨r',hr',hinfo⟩ := Impl.handleHeartbeat_info hr (heartbeatBytes hb paths)
    refine ⟨r',hr',?_⟩
    rw [parseHeartbeatExtension_shown] at hinfo
    have hsome : (paths.take heartbeatMaxPaths).map TransportPath.shown ≠ [] := by
      simpa [heartbeatMaxPaths] using hne
    rw [hinfo,if_neg hsome]
  · change (UInt16.ofNat (min (p.lastRttUs.toNat/10) 65535)).toNat = _
    rw [UInt16.toNat_ofNat']
    omega
  · change stringOfBytes (cutScheme (bytesOfString p.scheme)) = _
    unfold cutScheme
    rw [cString_self h]
    rfl
  · obtain ⟨r',hr',hinfo⟩ := Impl.handleHeartbeat_info hr payload
    refine ⟨r',hr',?_⟩
    by_cases hnone : parseHeartbeatExtension payload = []
    · rw [if_pos hnone] at hinfo
      exact .inl hinfo
    · rw [if_neg hnone] at hinfo
      rw [hinfo]
      exact .inr ⟨hnone,parseHeartbeatExtension_complete payload⟩

/-- A node with one connection. -/
def oneConnection : Impl :=
  { Impl.start NodeIdentity.alice with
    records := AList.singleton 1 { id := 1, remote := Endpoint.sample "a" 0 } }

def pathOver (scheme : String) : TransportPath :=
  { transportConnId := 1, scheme := scheme, remote := Endpoint.sample "a" 0 }

theorem heartbeat_paths_tcp :
    ∃ r', (oneConnection.handleHeartbeat (Env.sample false) 1
        (heartbeatBytes ⟨0,0,0⟩ [pathOver "tcp"])).find 1 = some r' ∧
      r'.peerTransportInfo = [⟨"tcp",true,255,0⟩] := by
  obtain ⟨r',hr',hinfo⟩ := (heartbeat_paths (Env.sample false)).2.1 oneConnection 1 _ ⟨0,0,0⟩
    [pathOver "tcp"] rfl (by simp)
  refine ⟨r',hr',hinfo.trans ?_⟩
  decide +kernel

/-- A path whose scheme has a NUL in it. -/
def nulPath : TransportPath := pathOver (stringOfBytes [97,0,98])

/-- Of that scheme only what stands before the NUL arrives. -/
theorem scheme_cut_at_nul :
    ¬ ∀ (env : Env) (st : Impl) id r hb paths, st.find id = some r → paths ≠ [] →
      ∃ r', (st.handleHeartbeat env id (heartbeatBytes hb paths)).find id = some r' ∧
        r'.peerTransportInfo = (paths.take heartbeatMaxPaths).map (fun p =>
          { p.shown with scheme := stringOfBytes ((bytesOfString p.scheme).take 15) }) := by
  intro hall
  obtain ⟨r',hr',hinfo⟩ := hall (Env.sample false) oneConnection 1 _ ⟨0,0,0⟩ [nulPath] rfl (by simp)
  have hstored : ((oneConnection.handleHeartbeat (Env.sample false) 1
      (heartbeatBytes ⟨0,0,0⟩ [nulPath])).find 1).map ConnectionRecord.peerTransportInfo ≠
        some (([nulPath].take heartbeatMaxPaths).map (fun p =>
          { p.shown with scheme := stringOfBytes ((bytesOfString p.scheme).take 15) })) := by
    decide +kernel
  rw [hr'] at hstored
  exact hstored (congrArg some hinfo)

end GoodNet
