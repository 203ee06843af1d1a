import GoodNet.SchemeTable
import GoodNet.Lib.Preference
set_option autoImplicit false

/-! The scheme two nodes agree on. Each tells the other its schemes in the payload of its second
handshake message, and each then takes the first scheme of its priority list that both have. -/

namespace GoodNet
open Codec Preference

/-- A connector's name as `get_scheme` gives it, a C string, and of a length that fits a slot. -/
def IsSchemeName (s : String) : Prop :=
  ∃ name : Bytes, s = stringOfBytes name ∧ 0 ∉ name ∧ name.length ≤ handshakeSchemeLen-1

/-- A node when it builds its payload and when it reads the other's. Its connectors are the same,
the order of the map may be another. -/
structure SchemeParty where
  built : Impl
  st : Impl
  same : built.localSchemes.Perm st.localSchemes
  few : st.localSchemes.length ≤ handshakeMaxSchemes
  names : ∀ s ∈ st.localSchemes, IsSchemeName s

/-- A name that fits its slot is kept as it is. -/
theorem cutScheme_name {name : Bytes} (h : 0 ∉ name) (hlen : name.length ≤ handshakeSchemeLen-1) :
    cutScheme name = name := by
  unfold cutScheme
  rw [cString_self h,List.take_of_length_le hlen]

/-- The bytes of names that are strings. -/
theorem exists_names {schemes : List String} (h : ∀ s ∈ schemes, IsSchemeName s) :
    ∃ names : List Bytes, schemes = names.map stringOfBytes ∧
      ∀ name ∈ names, 0 ∉ name ∧ name.length ≤ handshakeSchemeLen-1 := by
  induction schemes with
  | nil => exact ⟨[],rfl,by simp⟩
  | cons s schemes ih =>
    obtain ⟨name,rfl,hname⟩ := h s (List.mem_cons_self ..)
    obtain ⟨names,rfl,hnames⟩ := ih (fun s hs => h s (List.mem_cons_of_mem _ hs))
    refine ⟨name :: names,rfl,fun n hn => ?_⟩
    rcases List.mem_cons.1 hn with rfl | hn
    · exact hname
    · exact hnames n hn

namespace SchemeParty

/-- What the other node decodes is what this one has. -/
theorem told (A : SchemeParty) (env : Env) :
    (getSchemes (A.built.buildHandshakePayload env)).Perm A.st.localSchemes := by
  have hnamed : ∀ s ∈ A.built.localSchemes, IsSchemeName s :=
    fun s hs => A.names s (A.same.subset hs)
  obtain ⟨names,hlocal,hnames⟩ := exists_names hnamed
  have hfew : names.length ≤ handshakeMaxSchemes := by
    have hlen := A.same.length_eq
    rw [hlocal,List.length_map] at hlen
    exact hlen.trans_le A.few
  have hread := getSchemes_setSchemes
    { userPubkey := A.built.identity.userPubkey, devicePubkey := A.built.identity.devicePubkey,
      signature := env.sodium.signDetached A.built.identity.userSeckey
        (A.built.identity.userPubkey.bytes ++ A.built.identity.devicePubkey.bytes),
      schemesCount := 0, schemes := [], coreMeta := A.built.localCoreMeta } names []
  rw [List.append_nil,List.take_of_length_le hfew,← hlocal] at hread
  have hcut : names.map (fun name => stringOfBytes (cutScheme name)) = A.built.localSchemes := by
    rw [hlocal]
    refine List.map_congr_left fun name hname => ?_
    rw [cutScheme_name (hnames name hname).1 (hnames name hname).2]
  rw [hcut] at hread
  have hpayload : getSchemes (A.built.buildHandshakePayload env) = A.built.localSchemes := hread
  rw [hpayload]
  exact A.same

/-- Either node takes the earliest scheme in its list that both have. -/
theorem negotiates (A B : SchemeParty) (env : Env) {scheme : String}
    (h : Earliest A.st.schemePriority
      (fun s => s ∈ A.st.localSchemes ∧ s ∈ B.st.localSchemes) scheme) {r : ConnectionRecord}
    (hr : r.peerSchemes = getSchemes (B.built.buildHandshakePayload env)) :
    A.st.negotiateScheme r = scheme := by
  have htold : ∀ s, s ∈ r.peerSchemes ↔ s ∈ B.st.localSchemes := by
    intro s
    rw [hr]
    exact (B.told env).mem_iff
  have hsome : r.peerSchemes ≠ [] := by
    obtain ⟨before,after,-,hboth,-⟩ := h
    intro hnil
    have hmem := (htold scheme).2 hboth.2
    rw [hnil] at hmem
    cases hmem
  have hfind := (h.congr (q := fun s => (A.st.localSchemes.contains s &&
      (r.peerSchemes.isEmpty || r.peerSchemes.contains s)) = true) (fun s => by
    simp [hsome,htold])).find?
  unfold Impl.negotiateScheme
  rw [hfind]

end SchemeParty

/-- The record of an accepted payload has the scheme that `negotiate_scheme` gives. -/
theorem Impl.processHandshakePayload_scheme {env : Env} {st : Impl} {id : Nat} {data : Bytes}
    {scheme : String}
    (hscheme : ∀ r : ConnectionRecord, r.peerSchemes = getSchemes data →
      st.negotiateScheme r = scheme)
    (h : (st.processHandshakePayload env id data).2 = true) :
    ∃ r, (st.processHandshakePayload env id data).1.find id = some r ∧
      r.negotiatedScheme = scheme := by
  obtain ⟨r,hr,-,hst⟩ := processHandshakePayload_accepted h
  refine ⟨st.authenticate (HandshakePayload.decode data) (getSchemes data) r,?_,?_⟩
  · rw [hst,find_modify_self,hr]
    rfl
  · unfold authenticate
    dsimp only
    split
    · exact hscheme _ rfl
    · exact hscheme _ rfl

/-- Two nodes with the same priority list and a scheme of it in common take the same scheme, the
earliest in the list that both have, whatever the order of their maps. -/
theorem schemes_agree (A B : SchemeParty) (env env' : Env)
    (hprio : B.st.schemePriority = A.st.schemePriority)
    (hcommon : ∃ s ∈ A.st.schemePriority, s ∈ A.st.localSchemes ∧ s ∈ B.st.localSchemes) :
    ∃ scheme, Earliest A.st.schemePriority
        (fun s => s ∈ A.st.localSchemes ∧ s ∈ B.st.localSchemes) scheme ∧
      (∀ r, r.peerSchemes = getSchemes (B.built.buildHandshakePayload env') →
        A.st.negotiateScheme r = scheme) ∧
      (∀ r, r.peerSchemes = getSchemes (A.built.buildHandshakePayload env) →
        B.st.negotiateScheme r = scheme) ∧
      (∀ id, (A.st.processHandshakePayload env id (B.built.buildHandshakePayload env')).2 = true →
        ∃ r, (A.st.processHandshakePayload env id
          (B.built.buildHandshakePayload env')).1.find id = some r ∧ r.negotiatedScheme = scheme) ∧
      ∀ id, (B.st.processHandshakePayload env' id (A.built.buildHandshakePayload env)).2 = true →
        ∃ r, (B.st.processHandshakePayload env' id
          (A.built.buildHandshakePayload env)).1.find id = some r ∧ r.negotiatedScheme = scheme := by
  obtain ⟨scheme,hfirst⟩ := exists_earliest hcommon
  have hswapped : Earliest B.st.schemePriority
      (fun s => s ∈ B.st.localSchemes ∧ s ∈ A.st.localSchemes) scheme := by
    rw [hprio]
    exact hfirst.congr (fun s => and_comm)
  have hA : ∀ r : ConnectionRecord,
      r.peerSchemes = getSchemes (B.built.buildHandshakePayload env') →
        A.st.negotiateScheme r = scheme := fun r hr => A.negotiates B env' hfirst hr
  have hB : ∀ r : ConnectionRecord,
      r.peerSchemes = getSchemes (A.built.buildHandshakePayload env) →
        B.st.negotiateScheme r = scheme := fun r hr => B.negotiates A env hswapped hr
  exact ⟨scheme,hfirst,hA,hB,fun id h => Impl.processHandshakePayload_scheme hA h,
    fun id h => Impl.processHandshakePayload_scheme hB h⟩

/-- A node with both connectors, which were registered in the given order. -/
def withSchemes (me : NodeIdentity) (schemes : List String) : Impl :=
  { Impl.start me with
    connectors := schemes.foldl (fun t s => t.insert s {}) ∅,
    schemePriority := ["ice","tcp"] }

theorem isSchemeName_known {s : String} (h : s = "ice" ∨ s = "tcp") : IsSchemeName s := by
  refine ⟨bytesOfString s,?_⟩
  rcases h with rfl | rfl
  · decide
  · decide

/-- The order of the map has changed since the payload was built. -/
def aliceParty : SchemeParty where
  built := withSchemes NodeIdentity.alice ["tcp","ice"]
  st := withSchemes NodeIdentity.alice ["ice","tcp"]
  same := by decide +kernel
  few := by decide +kernel
  names := by
    have hlocal : (withSchemes NodeIdentity.alice ["ice","tcp"]).localSchemes = ["tcp","ice"] := by
      decide +kernel
    rw [hlocal]
    exact fun s hs => isSchemeName_known (by simpa [or_comm] using hs)

def bobParty : SchemeParty where
  built := withSchemes NodeIdentity.bob ["ice"]
  st := withSchemes NodeIdentity.bob ["ice"]
  same := List.Perm.refl _
  few := by decide +kernel
  names := by
    have hlocal : (withSchemes NodeIdentity.bob ["ice"]).localSchemes = ["ice"] := by decide +kernel
    rw [hlocal]
    exact fun s hs => isSchemeName_known (.inl (List.mem_singleton.1 hs))

theorem schemes_agree_ice :
    ∃ scheme, scheme = "ice" ∧ ∀ ra rb : ConnectionRecord,
      ra.peerSchemes = getSchemes (bobParty.built.buildHandshakePayload (Env.sample false)) →
      rb.peerSchemes = getSchemes (aliceParty.built.buildHandshakePayload (Env.sample false)) →
      aliceParty.st.negotiateScheme ra = scheme ∧ bobParty.st.negotiateScheme rb = scheme := by
  obtain ⟨hA,hB⟩ : "ice" ∈ aliceParty.st.localSchemes ∧ bobParty.st.localSchemes = ["ice"] := by
    decide +kernel
  obtain ⟨scheme,⟨_,_,_,hboth,_⟩,ha,hb,_⟩ := schemes_agree aliceParty bobParty (Env.sample false)
    (Env.sample false) rfl ⟨"ice",List.mem_cons_self ..,hA,by rw [hB]; exact List.mem_cons_self ..⟩
  refine ⟨scheme,?_,fun ra rb hra hrb => ⟨ha ra hra,hb rb hrb⟩⟩
  have hmem := hboth.2
  rw [hB] at hmem
  exact List.mem_singleton.1 hmem

end GoodNet
