import GoodNet.RelayedWindow
import GoodNet.Lib.Flood
set_option autoImplicit false

/-! Nodes that relay a frame to each other over established connections. -/

namespace GoodNet
open Codec Flood

/-- The connections `relay` sends to. -/
def Impl.relayTargets (st : Impl) (exclude : Nat) (dest : Key) : List Nat :=
  let direct := st.findConnByPubkey (bytesToHex dest.bytes)
  if direct ≠ connIdInvalid ∧ direct ≠ exclude then [direct]
  else (st.ids.filter (fun id => id != exclude)).filter st.establishedIn

def relayPayload (ttl : UInt8) (dest : Key) (inner : Bytes) : Bytes := ttl :: (dest.bytes ++ inner)

def Impl.sendRelays (env : Env) (st : Impl) (targets : List Nat) (payload : Bytes) : Impl :=
  targets.foldl (fun st id => st.sendFrame env id msgTypeRelay payload) st

/-- What a node passes on: one hop less. -/
def forwardedPayload (plaintext : Bytes) : Bytes :=
  relayPayload (plaintext.getD 0 0-1) (relayDest plaintext) (relayedFrame plaintext)

/-- The connections `handle_relay` passes a payload on to. -/
def Impl.forwardTargets (env : Env) (st : Impl) (id : Nat) (plaintext : Bytes) : List Nat :=
  if st.processes env plaintext && relayDest plaintext != st.identity.userPubkey then
    st.relayTargets id (relayDest plaintext)
  else []

section
variable {env : Env} {st st' : Impl}

theorem apart_pkIndex : Apart (fun st => st.pkIndex) :=
  ⟨fun _ _ => rfl,fun _ => rfl,fun _ _ _ => rfl,fun _ _ _ => rfl⟩

theorem apart_identity : Apart Impl.identity :=
  ⟨fun _ _ => rfl,fun _ => rfl,fun _ _ _ => rfl,fun _ _ _ => rfl⟩

theorem Impl.establishedIn_agrees (h : Impl.Agrees ConnectionRecord.keyed st st') (id : Nat) :
    st'.establishedIn id = st.establishedIn id := by
  have hid := h id
  unfold establishedIn
  cases hf : st.find id with
  | none =>
    rw [hf,Option.map_none,Option.map_eq_none_iff] at hid
    rw [hid]
  | some r =>
    rw [hf] at hid
    obtain ⟨r',hr',hk⟩ := Option.map_eq_some_iff.mp hid
    rw [hr']
    exact (ConnectionRecord.standing_eq (Prod.mk.inj hk).1).1

theorem Impl.sendFrame_established (id j : Nat) (msgType : UInt32) (payload : Bytes) :
    (st.sendFrame env j msgType payload).establishedIn id = st.establishedIn id :=
  establishedIn_agrees ((st.sendFrame_outward env j msgType payload).agrees (fun _ => rfl)) id

theorem Impl.sendAll_eq (ids : List Nat) (payload : Bytes) :
    st.sendAll env ids msgTypeRelay payload =
      st.sendRelays env (ids.filter st.establishedIn) payload := by
  unfold sendAll sendRelays
  induction ids generalizing st with
  | nil => rfl
  | cons id ids ih =>
    rw [List.foldl_cons,ih]
    cases he : st.establishedIn id with
    | false => simp [he]
    | true =>
      have hsame : (st.sendFrame env id msgTypeRelay payload).establishedIn = st.establishedIn :=
        funext (fun j => sendFrame_established j id msgTypeRelay payload)
      simp [he,hsame]

theorem Impl.relay_eq (exclude : Nat) (ttl : UInt8) (dest : Key) (inner : Bytes) :
    st.relay env exclude ttl dest inner =
      st.sendRelays env (st.relayTargets exclude dest) (relayPayload ttl dest inner) := by
  unfold relay relayTargets
  dsimp only
  split
  · rfl
  · exact sendAll_eq _ _

theorem Impl.relayTargets_same (hr : st'.records = st.records) (hp : st'.pkIndex = st.pkIndex)
    (exclude : Nat) (dest : Key) :
    st'.relayTargets exclude dest = st.relayTargets exclude dest := by
  have hest : st'.establishedIn = st.establishedIn := by
    funext id
    unfold establishedIn find
    rw [hr]
  unfold relayTargets findConnByPubkey ids
  rw [hest,hr,hp]

/-- `handle_relay`, with the sends it makes. -/
theorem Impl.handleRelay_sends (id : Nat) (plaintext : Bytes) :
    (st.handleRelay env id plaintext).1 =
      (st.heard env id plaintext).sendRelays env (st.forwardTargets env id plaintext)
        (forwardedPayload plaintext) := by
  obtain ⟨hrecords,hindex,_⟩ := st.heard_same env id plaintext
  unfold forwardTargets
  rcases st.handleRelay_cases env id plaintext with
    ⟨hp,h⟩ | ⟨hp,hdest,h⟩ | ⟨hp,hdest,h⟩
  · rw [h,hp]
    rfl
  · rw [h,hp,if_neg (by simp [hdest])]
    rfl
  · rw [h,hp,if_pos (by simp [hdest]),relay_eq,relayTargets_same hrecords hindex]
    rfl

theorem Impl.handleRelay_dispatches (id : Nat) (plaintext : Bytes) :
    (st.handleRelay env id plaintext).2.isSome =
      (st.processes env plaintext && decide (relayDest plaintext = st.identity.userPubkey)) := by
  rcases st.handleRelay_cases env id plaintext with
    ⟨hp,h⟩ | ⟨hp,hdest,h⟩ | ⟨hp,hdest,h⟩
  · rw [h,hp]
    rfl
  · rw [h,hp]
    simp [hdest]
  · rw [h,hp]
    simp [hdest]

end

/-- An entry that `relay_seen` takes for the given frame. -/
def Header.matches (env : Env) (hdr : Header) (f : RelayFingerprint) : Bool :=
  (hdr.fingerprint env f.ts).same f

/-- The frame has been seen, at `start` or later. -/
def Impl.Marked (env : Env) (start : Nat) (hdr : Header) (st : Impl) : Prop :=
  ∃ f ∈ st.relayDedup, hdr.matches env f = true ∧ start ≤ f.ts

def Impl.Unmarked (env : Env) (hdr : Header) (st : Impl) : Prop :=
  ∀ f ∈ st.relayDedup, hdr.matches env f = false

/-- The clock is within 30 seconds of `start`. -/
def Impl.Timely (env : Env) (start : Nat) (st : Impl) : Prop :=
  start ≤ env.steady st.asked ∧ env.steady st.asked ≤ start+relayTtl

/-- Two headers that a node tells apart. -/
def Header.Distinct (a b : Header) : Prop :=
  ¬ (a.packetId = b.packetId ∧ a.payloadType = b.payloadType)

section
variable {env : Env} {st : Impl} {hdr : Header} {start : Nat}

theorem Impl.remembered_subset : st.remembered env ⊆ st.relayDedup := by
  unfold remembered
  split
  · exact List.filter_subset_self _
  · exact fun _ h => h

/-- An entry of the last 30 seconds is never thrown out. -/
theorem Impl.Marked.remembered (h : st.Marked env start hdr) (ht : st.Timely env start) :
    ∃ f ∈ st.remembered env, hdr.matches env f = true ∧ start ≤ f.ts := by
  obtain ⟨f,hf,hm,hts⟩ := h
  refine ⟨f,?_,hm,hts⟩
  unfold Impl.remembered
  split
  · refine List.mem_filter.mpr ⟨hf,decide_eq_true ?_⟩
    obtain ⟨_,hnow⟩ := ht
    omega
  · exact hf

theorem Impl.Marked.seen (h : st.Marked env start hdr) (ht : st.Timely env start) :
    (st.relaySeen env hdr).2 = true := by
  obtain ⟨f,hf,hm,_⟩ := h.remembered ht
  have hany : (st.remembered env).any (hdr.fingerprint env (env.steady st.asked)).same = true :=
    List.any_eq_true.mpr ⟨f,hf,hm⟩
  rw [relaySeen_eq,if_pos hany]

theorem Impl.Unmarked.seen (h : st.Unmarked env hdr) : (st.relaySeen env hdr).2 = false := by
  rw [relaySeen_eq,if_neg]
  intro hany
  obtain ⟨f,hf,hm⟩ := List.any_eq_true.mp hany
  have hfalse := h f (remembered_subset hf)
  exact absurd (hm.symm.trans hfalse) (by decide)

theorem Impl.Marked.heard (h : st.Marked env start hdr) (ht : st.Timely env start) (id : Nat)
    (plaintext : Bytes) : (st.heard env id plaintext).Marked env start hdr := by
  obtain ⟨f,hf,hm⟩ := h.remembered ht
  unfold Impl.heard
  split
  · rw [relaySeen_eq]
    split
    · exact ⟨f,hf,hm⟩
    · exact ⟨f,List.mem_cons_of_mem _ hf,hm⟩
  · exact h

theorem Impl.Unmarked.heard_other (h : st.Unmarked env hdr) {id : Nat} {plaintext : Bytes}
    (ho : isRelayable plaintext = true → hdr.Distinct (Header.decode (relayedFrame plaintext))) :
    (st.heard env id plaintext).Unmarked env hdr := by
  unfold Impl.heard
  split
  · rename_i hr
    rw [relaySeen_eq]
    split
    · exact fun f hf => h f (remembered_subset hf)
    · intro f hf
      rcases List.mem_cons.mp hf with rfl | hf
      · refine Bool.eq_false_iff.mpr (fun hm => ho hr ?_)
        exact (Header.fingerprint_same _ _ _ _ _).mp hm
      · exact h f (remembered_subset hf)
  · exact h

theorem Impl.Unmarked.heard_own (h : st.Unmarked env hdr) (ht : st.Timely env start) {id : Nat}
    {plaintext : Bytes} (hr : isRelayable plaintext = true)
    (hown : Header.decode (relayedFrame plaintext) = hdr) :
    (st.heard env id plaintext).Marked env start hdr := by
  have hseen := h.seen
  unfold Impl.heard
  rw [if_pos hr,hown]
  rw [relaySeen_eq] at hseen ⊢
  split at hseen
  · cases hseen
  · rename_i hnew
    rw [if_neg hnew]
    refine ⟨_,List.mem_cons_self,?_,ht.1⟩
    exact (Header.fingerprint_same _ _ _ _ _).mpr ⟨rfl,rfl⟩

theorem Impl.sendRelays_dedup (targets : List Nat) (payload : Bytes) :
    (st.sendRelays env targets payload).relayDedup = st.relayDedup := by
  unfold sendRelays
  induction targets generalizing st with
  | nil => rfl
  | cons id targets ih => rw [List.foldl_cons,ih,apart_relayDedup.sendFrame]

end

/-- Nodes and the established connections between them, as they stay while a frame is
relayed: `far` names the node and the connection at the other end, and `index` is what
`find_conn_by_pubkey` returns. -/
structure Network (V : Type) where
  env : V → Env
  key : V → Key
  key_inj : Function.Injective key
  links : V → Finset Nat
  valid : ∀ v, connIdInvalid ∉ links v
  far : V → Nat → V × Nat
  far_link : ∀ v, ∀ id ∈ links v, (far v id).2 ∈ links (far v id).1
  far_far : ∀ v, ∀ id ∈ links v, far (far v id).1 (far v id).2 = (v,id)
  index : V → Key → Nat
  index_link : ∀ v k, index v k ≠ connIdInvalid →
    index v k ∈ links v ∧ key (far v (index v k)).1 = k

/-- The state of a node with these connections. -/
structure Network.Fits {V : Type} (g : Network V) (v : V) (st : Impl) : Prop where
  key : st.identity.userPubkey = g.key v
  links : ∀ id, st.establishedIn id = true ↔ id ∈ g.links v
  index : ∀ k, st.findConnByPubkey (bytesToHex k.bytes) = g.index v k

/-- The network as frames for `dest` go through it. -/
def Network.flood {V : Type} (g : Network V) (dest : Key) : Mesh V Nat where
  links := g.links
  far := g.far
  far_link := g.far_link
  far_far := g.far_far
  out v exclude :=
    if g.index v dest ≠ connIdInvalid ∧ g.index v dest ≠ exclude then {g.index v dest}
    else (g.links v).erase exclude
  out_links v exclude := by
    split
    · rename_i h
      exact Finset.singleton_subset_iff.mpr (g.index_link v dest h.1).1
    · exact Finset.erase_subset _ _
  out_ne v exclude := by
    split
    · rename_i h
      exact fun he => h.2 (Finset.mem_singleton.mp he).symm
    · exact Finset.notMem_erase _ _
  ends v := decide (g.key v = dest)

section
variable {V : Type} {g : Network V} {v : V} {env : Env} {st : Impl}

theorem Network.Fits.sendRelays (h : g.Fits v st) (targets : List Nat) (payload : Bytes) :
    g.Fits v (st.sendRelays env targets payload) := by
  unfold Impl.sendRelays
  induction targets generalizing st with
  | nil => exact h
  | cons id targets ih =>
    rw [List.foldl_cons]
    refine ih ⟨?_,?_,?_⟩
    · rw [apart_identity.sendFrame]
      exact h.key
    · intro j
      rw [Impl.sendFrame_established]
      exact h.links j
    · intro k
      unfold Impl.findConnByPubkey
      rw [apart_pkIndex.sendFrame]
      exact h.index k

theorem Network.Fits.heard (h : g.Fits v st) (id : Nat) (plaintext : Bytes) :
    g.Fits v (st.heard env id plaintext) := by
  obtain ⟨hrecords,hindex,hident⟩ := st.heard_same env id plaintext
  refine ⟨?_,?_,?_⟩
  · rw [hident]
    exact h.key
  · intro j
    unfold Impl.establishedIn Impl.find
    rw [hrecords]
    exact h.links j
  · intro k
    unfold Impl.findConnByPubkey
    rw [hindex]
    exact h.index k

theorem Network.Fits.handleRelay (h : g.Fits v st) (id : Nat) (plaintext : Bytes) :
    g.Fits v (st.handleRelay env id plaintext).1 := by
  rw [Impl.handleRelay_sends]
  exact (h.heard id plaintext).sendRelays _ _

/-- Over these connections `relay` sends as the network says. -/
theorem Network.Fits.targets (h : g.Fits v st) (exclude : Nat) (dest : Key) :
    (st.relayTargets exclude dest : Multiset Nat) = ((g.flood dest).out v exclude).val := by
  unfold Impl.relayTargets Network.flood
  dsimp only
  rw [h.index dest]
  split
  · rfl
  · have hids : st.ids.Nodup := st.records.nodupKeys
    refine Multiset.Nodup.ext ?_ (Finset.nodup _) |>.mpr ?_
    · exact Multiset.coe_nodup.mpr ((hids.filter _).filter _)
    · intro id
      have hmem : st.establishedIn id = true → id ∈ st.ids := by
        intro he
        unfold Impl.establishedIn at he
        split at he
        · rename_i r hr
          exact AList.mem_keys.mp (AList.lookup_isSome.mp (Option.isSome_of_mem hr))
        · cases he
      simp only [Multiset.mem_coe,List.mem_filter,bne_iff_ne,Finset.mem_val,Finset.mem_erase,
        ← h.links]
      tauto

end

end GoodNet
