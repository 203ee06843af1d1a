import GoodNet.RelayedWindow
import GoodNet.RelayMemory
import GoodNet.Lib.Nesting
import Mathlib.Data.Finset.Card
import Mathlib.Data.Finset.Range
set_option autoImplicit false

/-! The recursion of `dispatch_packet` and `handle_relay`: a frame within a relay frame for this
node is dispatched in turn, on the same connection. -/

namespace GoodNet
open Codec Nesting

/-- A call of `dispatch_packet` on a connection. -/
structure DispatchLevel where
  st : Impl
  hdr : Header
  payload : Bytes

/-- The payload as `dispatch_packet` goes on with it, and the state then. -/
def DispatchLevel.opened (env : Env) (id : Nat) (l : DispatchLevel) :
    Option (ConnectionRecord × Impl × Bytes) :=
  if isHandshakeType l.hdr.type then none
  else
    match l.st.find id with
    | none => none
    | some r =>
      if !r.established then none
      else
        match l.st.openPayload env id r l.hdr l.payload with
        | (_,none) => none
        | (st,some plain) => some (r,st,plain)

/-- The state in which `handle_relay` looks at the payload. -/
def DispatchLevel.relaying (env : Env) (id : Nat) (l : DispatchLevel) : Option (Impl × Bytes) :=
  match l.opened env id with
  | none => none
  | some (r,st,plain) =>
    if l.hdr.type = msgTypeRelay then some (st.deliver id r .relay l.hdr l.payload plain,plain)
    else none

/-- The call this one ends in. -/
def DispatchLevel.inner (env : Env) (id : Nat) (l : DispatchLevel) : Option DispatchLevel :=
  match l.relaying env id with
  | none => none
  | some (st,plain) =>
    match st.handleRelay env id plain with
    | (_,none) => none
    | (st,some (innerHdr,innerPayload)) => some ⟨st,innerHdr,innerPayload⟩

/-- The frame whose fingerprint the call records, and when. -/
def DispatchLevel.records (env : Env) (id : Nat) (l : DispatchLevel) : Option (Header × Nat) :=
  match l.relaying env id with
  | none => none
  | some (st,plain) =>
    if st.processes env plain then
      some (Header.decode (relayedFrame plain),env.steady st.asked)
    else none

/-- The session that frames on a connection are decrypted with, where they are. -/
def ConnectionRecord.cipher (r : ConnectionRecord) : Option NoiseSession :=
  if r.localhostPassthrough || r.isLocalhost then none else r.session

def DispatchLevel.cipher (id : Nat) (l : DispatchLevel) : Option NoiseSession :=
  (l.st.find id).bind ConnectionRecord.cipher

/-- The packet ids a window still takes. -/
def NonceWindow.free (w : NonceWindow) : Finset Nat :=
  (Finset.range (2^64)).filter (fun n => (w.accept (UInt64.ofNat n)).2 = true)

/-- What a nested call has less of: packet ids the window still takes, or bytes. -/
def DispatchLevel.rank (id : Nat) (l : DispatchLevel) : Nat :=
  match l.cipher id with
  | some s => s.recvWindow.free.card
  | none => l.payload.length

section
variable {env : Env} {st : Impl} {id : Nat} {a b l : DispatchLevel}

theorem DispatchLevel.inner_handshake (h : isHandshakeType l.hdr.type = true) :
    l.inner env id = none := by
  simp [inner,relaying,opened,h]

/-- A call ends without another, or in the one that `inner` names. -/
theorem DispatchLevel.inner_cases (env : Env) (id : Nat) (l : DispatchLevel) :
    (l.inner env id = none ∧ ∃ out, ∀ depth,
      l.st.dispatchNested env (depth+1) id l.hdr l.payload = out) ∨
    ∃ y, l.inner env id = some y ∧ ∀ depth,
      l.st.dispatchNested env (depth+1) id l.hdr l.payload =
        y.st.dispatchNested env depth id y.hdr y.payload := by
  cases ht : isHandshakeType l.hdr.type with
  | true =>
    refine .inl ⟨DispatchLevel.inner_handshake ht,?_⟩
    simp only [isHandshakeType,Bool.or_eq_true,beq_iff_eq] at ht
    rcases ht with (ht | ht) | ht
    · exact ⟨_,fun depth => by simp only [Impl.dispatchNested,ht,ite_true]; rfl⟩
    · exact ⟨_,fun depth => by simp only [Impl.dispatchNested,ht,ite_true]; rfl⟩
    · exact ⟨_,fun depth => by simp only [Impl.dispatchNested,ht,ite_true]; rfl⟩
  | false =>
    have hno := ht
    simp only [isHandshakeType,Bool.or_eq_false_iff,beq_eq_false_iff_ne,ne_eq] at hno
    obtain ⟨⟨h1,h2⟩,h3⟩ := hno
    simp only [DispatchLevel.inner,DispatchLevel.relaying,DispatchLevel.opened,ht,
      Bool.false_eq_true,ite_false,Impl.dispatchNested,h1,h2,h3]
    cases hr : l.st.find id with
    | none => exact .inl ⟨rfl,_,fun depth => rfl⟩
    | some r =>
      dsimp only
      cases he : r.established with
      | false => exact .inl ⟨rfl,_,fun depth => rfl⟩
      | true =>
        simp only [Bool.not_true,Bool.false_eq_true,ite_false]
        obtain ⟨mid,out⟩ := l.st.openPayload env id r l.hdr l.payload
        cases out with
        | none => exact .inl ⟨rfl,_,fun depth => rfl⟩
        | some plain =>
          dsimp only
          by_cases hbeat : l.hdr.type = msgTypeHeartbeat
          · have hnot : ¬ msgTypeHeartbeat = msgTypeRelay := by decide
            simp only [hbeat,hnot,ite_true,ite_false]
            exact .inl ⟨trivial,_,fun depth => rfl⟩
          · by_cases hrelay : l.hdr.type = msgTypeRelay
            · have hnot : ¬ msgTypeRelay = msgTypeHeartbeat := by decide
              simp only [hrelay,hnot,ite_true,ite_false]
              obtain ⟨st,_ | inner⟩ := Impl.handleRelay env _ id plain
              · exact .inl ⟨rfl,_,fun depth => rfl⟩
              · exact .inr ⟨_,rfl,fun depth => rfl⟩
            · simp only [hbeat,hrelay,ite_false]
              exact .inl ⟨trivial,_,fun depth => rfl⟩

theorem dispatchNested_unfolds (env : Env) (id : Nat) :
    Unfolds (DispatchLevel.inner env id)
      (fun depth l => l.st.dispatchNested env depth id l.hdr l.payload) := by
  intro depth l
  rcases l.inner_cases env id with ⟨hin,out,hout⟩ | ⟨y,hin,hout⟩
  · rw [hin]
    exact (hout depth).trans (hout 0).symm
  · rw [hin]
    exact hout depth

theorem DispatchLevel.opened_some {r : ConnectionRecord} {mid : Impl} {plain : Bytes}
    (h : l.opened env id = some (r,mid,plain)) :
    l.st.find id = some r ∧ r.established = true ∧
      l.st.openPayload env id r l.hdr l.payload = (mid,some plain) := by
  unfold opened at h
  split at h
  · cases h
  · split at h
    · cases h
    · rename_i r' hr
      split at h
      · cases h
      · rename_i he
        split at h
        · cases h
        · rename_i mid' plain' ho
          cases h
          exact ⟨hr,by simpa using he,ho⟩

theorem DispatchLevel.relaying_some {plain : Bytes} (h : l.relaying env id = some (st,plain)) :
    ∃ r mid, l.opened env id = some (r,mid,plain) ∧ l.hdr.type = msgTypeRelay ∧
      st = mid.deliver id r .relay l.hdr l.payload plain := by
  unfold relaying at h
  split at h
  · cases h
  · rename_i r mid plain' ho
    split at h
    · rename_i ht
      cases h
      exact ⟨r,mid,ho,ht,rfl⟩
    · cases h

theorem DispatchLevel.inner_some (h : l.inner env id = some b) :
    ∃ st plain, l.relaying env id = some (st,plain) ∧ st.processes env plain = true ∧
      b = ⟨(st.relaySeen env (Header.decode (relayedFrame plain))).1,
        Header.decode (relayedFrame plain),relayedPayload plain⟩ := by
  unfold inner at h
  split at h
  · cases h
  · rename_i st plain hrel
    refine ⟨st,plain,hrel,?_⟩
    rcases st.handleRelay_cases env id plain with ⟨_,hcase⟩ | ⟨hproc,_,hcase⟩ | ⟨_,_,hcase⟩
    · rw [hcase] at h
      cases h
    · rw [hcase] at h
      have hrelayable : isRelayable plain = true := by
        unfold Impl.processes at hproc
        exact (Bool.and_eq_true _ _ ▸ hproc).1
      unfold Impl.heard at h
      rw [if_pos hrelayable] at h
      exact ⟨hproc,(Option.some.inj h).symm⟩
    · rw [hcase] at h
      cases h

theorem Impl.openPayload_clear {r : ConnectionRecord} {hdr : Header} {payload plain : Bytes}
    {mid : Impl} (hc : r.cipher = none)
    (ho : st.openPayload env id r hdr payload = (mid,some plain)) :
    mid = st ∧ plain = payload := by
  rcases openPayload_cases ho with
    ⟨hst,hout,_⟩ | ⟨_,hout⟩ | ⟨_,_,_,_,hout,_⟩ | ⟨s,hs,_,_,_,_⟩
  · exact ⟨hst,Option.some.inj hout⟩
  · cases hout
  · cases hout
  · unfold ConnectionRecord.cipher at hc
    unfold openPayload at ho
    by_cases hp : r.localhostPassthrough = true
    · rw [if_pos hp] at ho
      cases ho
      exact ⟨rfl,rfl⟩
    · by_cases hl : r.isLocalhost = true
      · simp only [hp,hl,Bool.false_eq_true,ite_false,Bool.not_true,ite_true] at ho
        split at ho <;> (cases ho; exact ⟨rfl,rfl⟩)
      · simp [hp,hl,hs] at hc

theorem Impl.openPayload_sealed {r : ConnectionRecord} {hdr : Header} {payload plain : Bytes}
    {mid : Impl} {s : NoiseSession} (hc : r.cipher = some s)
    (ho : st.openPayload env id r hdr payload = (mid,some plain)) :
    mid = (st.decryptFor env id s hdr payload).1 ∧
      (st.decryptFor env id s hdr payload).2 ≠ [] := by
  unfold ConnectionRecord.cipher at hc
  split at hc
  · cases hc
  · rename_i hfar
    rw [Bool.or_eq_true,not_or] at hfar
    rcases openPayload_cases ho with
      ⟨_,_,hclear⟩ | ⟨_,hout⟩ | ⟨_,_,_,_,hout,_⟩ | ⟨s',hs,_,hne,_,hmid⟩
    · rcases hclear with hp | hl | hs
      · exact absurd hp hfar.1
      · exact absurd hl hfar.2
      · rw [hs] at hc
        cases hc
    · cases hout
    · cases hout
    · rw [hs] at hc
      cases hc
      exact ⟨hmid,hne⟩

theorem relayedPayload_length {plain : Bytes} (h : isRelayable plain = true) :
    (relayedPayload plain).length+53 ≤ plain.length := by
  unfold isRelayable at h
  rw [Bool.and_eq_true,Bool.and_eq_true] at h
  have hlong := of_decide_eq_true h.1.1
  simp only [relayHeaderSize,headerSize] at hlong
  unfold relayedPayload relayedFrame
  simp only [List.length_take,List.length_drop,relayHeaderSize,headerSize]
  omega

theorem Impl.processes_relayable {plain : Bytes} (h : st.processes env plain = true) :
    isRelayable plain = true ∧
      (st.relaySeen env (Header.decode (relayedFrame plain))).2 = false := by
  unfold processes at h
  rw [Bool.and_eq_true,Bool.not_eq_true'] at h
  exact h

theorem ConnectionRecord.cipher_withSession {r : ConnectionRecord} {s : NoiseSession}
    (h : r.cipher = some s) (s' : NoiseSession) : (r.withSession s').cipher = some s' := by
  unfold cipher at h ⊢
  split at h
  · cases h
  · rename_i hfar
    exact if_neg hfar

theorem DispatchLevel.cipher_eq {r : ConnectionRecord} (h : l.st.find id = some r) :
    l.cipher id = r.cipher := by
  unfold cipher
  rw [h]
  rfl

theorem Impl.decrypt_taken {s : NoiseSession} {hdr : Header} {payload : Bytes}
    (h : (st.decryptFor env id s hdr payload).2 ≠ []) :
    ¬ s.recvWindow.Refuses hdr.packetId ∧
      (s.decrypt env.sodium env.zstd payload hdr.packetId).1 = s.afterOwn hdr.packetId := by
  have hne : (s.decrypt env.sodium env.zstd payload hdr.packetId).2 ≠ [] := by
    unfold decryptFor at h
    dsimp only at h
    split at h
    · exact h
    · exact h
  obtain ⟨_,_,_,hfree,_⟩ := NoiseSession.decrypt_nonempty hne
  exact ⟨hfree,NoiseSession.decrypt_own hne⟩

/-- A frame that is opened on an encrypted connection uses up its packet id. -/
theorem DispatchLevel.opened_sealed {r : ConnectionRecord} {mid : Impl} {plain : Bytes}
    {s : NoiseSession} (h : l.opened env id = some (r,mid,plain)) (hs : l.cipher id = some s) :
    ¬ s.recvWindow.Refuses l.hdr.packetId ∧
      (mid.find id).bind ConnectionRecord.cipher = some (s.afterOwn l.hdr.packetId) := by
  obtain ⟨hr,_,ho⟩ := opened_some h
  have hc : r.cipher = some s := (cipher_eq hr).symm.trans hs
  obtain ⟨rfl,hne⟩ := Impl.openPayload_sealed hc ho
  obtain ⟨hfree,hown⟩ := Impl.decrypt_taken hne
  refine ⟨hfree,?_⟩
  rw [Impl.decryptFor_find,Impl.find_modify_self,hr,Option.map_some,hown]
  exact ConnectionRecord.cipher_withSession hc _

theorem DispatchLevel.opened_clear {r : ConnectionRecord} {mid : Impl} {plain : Bytes}
    (h : l.opened env id = some (r,mid,plain)) (hc : l.cipher id = none) :
    mid = l.st ∧ plain = l.payload := by
  obtain ⟨hr,_,ho⟩ := opened_some h
  exact Impl.openPayload_clear ((cipher_eq hr).symm.trans hc) ho

/-- A nested call has fewer bytes, or a packet id less. -/
theorem DispatchLevel.inner_cipher (h : a.inner env id = some b) :
    (a.cipher id = none ∧ b.cipher id = none ∧ b.payload.length+53 ≤ a.payload.length) ∨
    ∃ s, a.cipher id = some s ∧ ¬ s.recvWindow.Refuses a.hdr.packetId ∧
      b.cipher id = some (s.afterOwn a.hdr.packetId) := by
  obtain ⟨st,plain,hrel,hproc,rfl⟩ := inner_some h
  obtain ⟨r,mid,hopen,_,rfl⟩ := relaying_some hrel
  obtain ⟨hrelayable,_⟩ := Impl.processes_relayable hproc
  have hfind : ∀ hdr : Header, ((mid.deliver id r .relay a.hdr a.payload plain).relaySeen env
      hdr).1.find id = mid.find id := by
    intro hdr
    have hrecords : ((mid.deliver id r .relay a.hdr a.payload plain).relaySeen env hdr).1.records =
        mid.records := (Impl.relaySeen_records _ hdr).1
    unfold Impl.find
    rw [hrecords]
  cases hc : a.cipher id with
  | none =>
    obtain ⟨rfl,rfl⟩ := opened_clear hopen hc
    refine .inl ⟨rfl,?_,relayedPayload_length hrelayable⟩
    unfold cipher at hc ⊢
    rw [hfind]
    exact hc
  | some s =>
    obtain ⟨hfree,hmid⟩ := opened_sealed hopen hc
    refine .inr ⟨s,rfl,hfree,?_⟩
    unfold cipher
    rw [hfind]
    exact hmid

theorem NonceWindow.free_shrinks {w : NonceWindow} {n : UInt64} (h : ¬ w.Refuses n) :
    (w.accept n).1.free.card < w.free.card := by
  have hmem : ∀ (w : NonceWindow) (m : Nat), m ∈ w.free ↔
      m < 2^64 ∧ ¬ w.Refuses (UInt64.ofNat m) := by
    intro w m
    rw [free,Finset.mem_filter,Finset.mem_range,accept_result_true]
  refine Finset.card_lt_card ⟨fun m hm => ?_,fun hsub => ?_⟩
  · rw [hmem] at hm ⊢
    exact ⟨hm.1,fun href => hm.2 ((refuses_accept _ _ _).mpr (Or.inl href))⟩
  · have hin : n.toNat ∈ w.free := by
      rw [hmem]
      exact ⟨n.toNat_lt,by simpa using h⟩
    have hgone := (hmem _ _).1 (hsub hin)
    refine hgone.2 ((refuses_accept _ _ _).mpr (Or.inr (Or.inl ?_)))
    simp

theorem DispatchLevel.rank_falls (h : a.inner env id = some b) : b.rank id < a.rank id := by
  unfold rank
  rcases inner_cipher h with ⟨ha,hb,hlen⟩ | ⟨s,ha,hfree,hb⟩
  · rw [ha,hb]
    dsimp only
    omega
  · rw [ha,hb]
    exact NonceWindow.free_shrinks hfree

theorem DispatchLevel.rank_lt (h : l.payload.length < 2^32) : l.rank id < dispatchDepth := by
  unfold rank dispatchDepth
  split
  · rename_i s _
    have hcard : s.recvWindow.free.card ≤ 2^64 :=
      (Finset.card_filter_le _ _).trans (Finset.card_range _).le
    omega
  · omega

/-- `b` is `a`, or is nested in it. -/
abbrev Nested (env : Env) (id : Nat) : DispatchLevel → DispatchLevel → Prop :=
  Relation.ReflTransGen (fun a b => a.inner env id = some b)

theorem Nested.refuses (h : Nested env id a b) {s : NoiseSession} {n : UInt64}
    (ha : a.cipher id = some s) (hn : s.recvWindow.Refuses n) :
    ∃ s', b.cipher id = some s' ∧ s'.recvWindow.Refuses n := by
  induction h with
  | refl => exact ⟨s,ha,hn⟩
  | tail _ hstep ih =>
    obtain ⟨s',hs',hn'⟩ := ih
    rcases DispatchLevel.inner_cipher hstep with ⟨hc,_⟩ | ⟨s'',hc,_,hnext⟩
    · rw [hc] at hs'
      cases hs'
    · rw [hc] at hs'
      cases hs'
      exact ⟨_,hnext,(NonceWindow.refuses_accept _ _ _).mpr (Or.inl hn')⟩

/-- Within a call no packet id is used up twice on an encrypted connection. -/
theorem Nested.packetId_ne {a' : DispatchLevel} (hin : a.inner env id = some a')
    (h : Nested env id a' b) {s : NoiseSession} (hb : b.cipher id = some s)
    (hopen : (b.opened env id).isSome = true) : a.hdr.packetId ≠ b.hdr.packetId := by
  obtain ⟨⟨r,mid,plain⟩,hopen⟩ := Option.isSome_iff_exists.1 hopen
  obtain ⟨hfree,_⟩ := DispatchLevel.opened_sealed hopen hb
  rcases DispatchLevel.inner_cipher hin with ⟨_,hc,_⟩ | ⟨s₀,_,_,hnext⟩
  · have hnone : ∀ {c}, Nested env id a' c → c.cipher id = none := by
      intro c hac
      induction hac with
      | refl => exact hc
      | tail _ hstep ih =>
        rcases DispatchLevel.inner_cipher hstep with ⟨_,hnone,_⟩ | ⟨_,hsome,_⟩
        · exact hnone
        · rw [ih] at hsome
          cases hsome
    rw [hnone h] at hb
    cases hb
  · have hshut : (s₀.afterOwn a.hdr.packetId).recvWindow.Refuses a.hdr.packetId :=
      (NonceWindow.refuses_accept _ _ _).mpr (Or.inr (Or.inl rfl))
    obtain ⟨s',hs',href⟩ := h.refuses hnext hshut
    rw [hs'] at hb
    cases hb
    intro heq
    exact hfree (heq ▸ href)

theorem DispatchLevel.opened_dedup {r : ConnectionRecord} {mid : Impl} {plain : Bytes}
    (h : l.opened env id = some (r,mid,plain)) :
    mid.relayDedup = l.st.relayDedup ∧ mid.asked = l.st.asked := by
  obtain ⟨_,_,ho⟩ := opened_some h
  have hdec : ∀ s, (l.st.decryptFor env id s l.hdr l.payload).1.relayDedup = l.st.relayDedup ∧
      (l.st.decryptFor env id s l.hdr l.payload).1.asked = l.st.asked := by
    intro s
    rcases l.st.decryptFor_cases env id s l.hdr l.payload with ⟨_,_,hd⟩ | ⟨_,hd⟩
    · rw [hd]
      exact ⟨rfl,rfl⟩
    · rw [hd]
      exact ⟨rfl,rfl⟩
  rcases Impl.openPayload_cases ho with ⟨rfl,_⟩ | ⟨_,hout⟩ | ⟨_,_,_,_,hout,_⟩ | ⟨s,_,_,_,_,rfl⟩
  · exact ⟨rfl,rfl⟩
  · cases hout
  · cases hout
  · exact hdec s

/-- The state a payload is relayed in is, for `relay_seen`, the one the call began in. -/
theorem DispatchLevel.relaying_dedup {plain : Bytes} (h : l.relaying env id = some (st,plain)) :
    st.relayDedup = l.st.relayDedup ∧ st.asked = l.st.asked := by
  obtain ⟨r,mid,hopen,_,rfl⟩ := relaying_some h
  obtain ⟨hd,hq⟩ := opened_dedup hopen
  exact ⟨hd,hq⟩

theorem DispatchLevel.records_some {hdr : Header} {t : Nat}
    (h : l.records env id = some (hdr,t)) :
    (l.st.relaySeen env hdr).2 = false ∧ t = env.steady l.st.asked := by
  unfold records at h
  split at h
  · cases h
  · rename_i st plain hrel
    obtain ⟨hd,hq⟩ := relaying_dedup hrel
    split at h
    · rename_i hproc
      obtain ⟨-,hnew⟩ := Impl.processes_relayable hproc
      cases h
      rw [Impl.relaySeen_result hd hq] at hnew
      exact ⟨hnew,by rw [hq]⟩
    · cases h

theorem DispatchLevel.inner_records (h : a.inner env id = some b) :
    a.records env id = some (b.hdr,env.steady a.st.asked) := by
  obtain ⟨st,plain,hrel,hproc,rfl⟩ := inner_some h
  obtain ⟨_,hq⟩ := relaying_dedup hrel
  unfold records
  rw [hrel]
  dsimp only
  rw [if_pos hproc,hq]

theorem DispatchLevel.inner_dedup (h : a.inner env id = some b) :
    b.st.relayDedup = (a.st.relaySeen env b.hdr).1.relayDedup ∧ b.st.asked = a.st.asked+1 := by
  obtain ⟨st,plain,hrel,_,rfl⟩ := inner_some h
  obtain ⟨hd,hq⟩ := relaying_dedup hrel
  have hkept : st.remembered env = a.st.remembered env := by
    unfold Impl.remembered
    rw [hd,hq]
  dsimp only
  rw [Impl.relaySeen_eq,Impl.relaySeen_eq,hkept,hq]
  constructor
  · split
    · rfl
    · rfl
  · split
    · exact congrArg (· + 1) hq
    · exact congrArg (· + 1) hq

/-- A fingerprint recorded by a call is recorded again within it only when more than 30 seconds
have passed and it has been thrown out. -/
theorem Nested.records_later (hclock : ∀ i j, i ≤ j → env.steady i ≤ env.steady j)
    {a' : DispatchLevel} (hin : a.inner env id = some a') (h : Nested env id a' b)
    {hdr hdr' : Header} {t t' : Nat} (ha : a.records env id = some (hdr,t))
    (hb : b.records env id = some (hdr',t'))
    (hpair : hdr.packetId = hdr'.packetId ∧ hdr.payloadType = hdr'.payloadType) :
    t+relayTtl < t' := by
  have hhdr : hdr = a'.hdr ∧ t = env.steady a.st.asked := by
    have heq := ha.symm.trans (DispatchLevel.inner_records hin)
    cases heq
    exact ⟨rfl,rfl⟩
  obtain ⟨rfl,rfl⟩ := hhdr
  obtain ⟨hnew,_⟩ := DispatchLevel.records_some ha
  obtain ⟨hnone,rfl⟩ := DispatchLevel.records_some hb
  -- the entry is there, or its time is over
  have hthere : a'.hdr.fingerprint env (env.steady a.st.asked) ∈ b.st.relayDedup ∨
      env.steady a.st.asked+relayTtl < env.steady b.st.asked := by
    clear hb hnone
    induction h with
    | refl =>
      rw [(DispatchLevel.inner_dedup hin).1]
      exact .inl (Impl.relaySeen_records_new hnew)
    | @tail c d _ hstep ih =>
      obtain ⟨hd,hq⟩ := DispatchLevel.inner_dedup hstep
      have hlater : env.steady c.st.asked ≤ env.steady d.st.asked := by
        rw [hq]
        exact hclock _ _ (Nat.le_succ _)
      rcases ih with hmem | hover
      · by_cases hrecent : env.steady c.st.asked ≤ env.steady a.st.asked+relayTtl
        · rw [hd]
          exact .inl (Impl.relaySeen_keeps hmem hrecent)
        · exact .inr (by omega)
      · exact .inr (by omega)
  rcases hthere with hmem | hover
  · by_contra hrecent
    have hkept : a'.hdr.fingerprint env (env.steady a.st.asked) ∈ b.st.remembered env := by
      unfold Impl.remembered
      split
      · exact List.mem_filter.2 ⟨hmem,decide_eq_true (by
          change env.steady b.st.asked ≤ env.steady a.st.asked+relayTtl
          omega)⟩
      · exact hmem
    have hsame := (Header.fingerprint_same env (env.steady b.st.asked) (env.steady a.st.asked)
      hdr' a'.hdr).2 ⟨hpair.1.symm,hpair.2.symm⟩
    rw [Impl.relaySeen_eq,if_pos (List.any_eq_true.2 ⟨_,hkept,hsame⟩)] at hnone
    cases hnone
  · exact hover

end

/-- The recursion of `dispatch_packet` and `handle_relay` ends for every packet, and the bound on
its depth is never met. A nested call without decryption has 53 bytes less; one with decryption
comes after a packet id has been used up that no call within it uses again. Each records a
fingerprint, and one it has recorded before only after more than 30 seconds. -/
theorem relay_recursion_ends {env : Env} (hclock : ∀ i j, i ≤ j → env.steady i ≤ env.steady j)
    (id : Nat) :
    WellFounded (fun b a : DispatchLevel => a.inner env id = some b) ∧
    (∀ (st : Impl) (hdr : Header) (payload : Bytes), ∃ depth, ∀ more, depth ≤ more →
      st.dispatchNested env more id hdr payload = st.dispatchNested env depth id hdr payload) ∧
    (∀ (st : Impl) (hdr : Header) (payload : Bytes), payload.length < 2^32 → ∀ more,
      st.dispatchNested env (dispatchDepth+more) id hdr payload =
        st.dispatchPacket env id hdr payload) ∧
    ∀ a a' b : DispatchLevel, a.inner env id = some a' → Nested env id a' b →
      (a.cipher id = none → a'.payload.length+53 ≤ a.payload.length) ∧
      (∀ s, a.cipher id = some s → ¬ s.recvWindow.Refuses a.hdr.packetId ∧
        a'.cipher id = some (s.afterOwn a.hdr.packetId)) ∧
      (b.cipher id ≠ none → (b.opened env id).isSome = true →
        a.hdr.packetId ≠ b.hdr.packetId) ∧
      ∃ hdr t, a.records env id = some (hdr,t) ∧ ∀ hdr' t', b.records env id = some (hdr',t') →
        hdr.packetId = hdr'.packetId ∧ hdr.payloadType = hdr'.payloadType → t+relayTtl < t' := by
  have hrank : ∀ a b : DispatchLevel, a.inner env id = some b → b.rank id < a.rank id :=
    fun a b h => DispatchLevel.rank_falls h
  have hdepth : ∀ (l : DispatchLevel) n m, l.rank id < n → l.rank id < m →
      l.st.dispatchNested env n id l.hdr l.payload = l.st.dispatchNested env m id l.hdr l.payload :=
    fun l n m hn hm => (dispatchNested_unfolds env id).depth hrank hn hm
  refine ⟨wellFounded hrank,fun st hdr payload => ?_,fun st hdr payload hlen more => ?_,
    fun a a' b hin hab => ⟨fun hclear => ?_,fun s hs => ?_,fun hb hopen => ?_,?_⟩⟩
  · let l : DispatchLevel := ⟨st,hdr,payload⟩
    exact ⟨l.rank id+1,fun more hmore => hdepth l more (l.rank id+1) (by omega) (by omega)⟩
  · have hlt : (⟨st,hdr,payload⟩ : DispatchLevel).rank id < dispatchDepth :=
      DispatchLevel.rank_lt hlen
    exact hdepth ⟨st,hdr,payload⟩ _ _ (by omega) hlt
  · rcases DispatchLevel.inner_cipher hin with ⟨_,_,hlen⟩ | ⟨_,hsome,_⟩
    · exact hlen
    · rw [hclear] at hsome
      cases hsome
  · rcases DispatchLevel.inner_cipher hin with ⟨hnone,_⟩ | ⟨s',hsome,hfree,hnext⟩
    · rw [hs] at hnone
      cases hnone
    · rw [hs] at hsome
      cases hsome
      exact ⟨hfree,hnext⟩
  · obtain ⟨s,hs⟩ := Option.ne_none_iff_exists'.1 hb
    exact Nested.packetId_ne hin hab hs hopen
  · exact ⟨_,_,DispatchLevel.inner_records hin,fun hdr' t' hb hpair =>
      Nested.records_later hclock hin hab (DispatchLevel.inner_records hin) hb hpair⟩

section
variable {env : Env} {st : Impl} {id : Nat} {s : NoiseSession} {r : ConnectionRecord}

theorem Hop.cipher_eq (h : Hop st id s r) : r.cipher = some s := by
  unfold ConnectionRecord.cipher
  rw [h.sealed,h.remote]
  exact h.session

theorem Hop.level_cipher (h : Hop st id s r) (hdr : Header) (wire : Bytes) :
    (⟨st,hdr,wire⟩ : DispatchLevel).cipher id = some s := by
  unfold DispatchLevel.cipher
  rw [h.find]
  exact h.cipher_eq

/-- A relay frame on a remote connection that is opened. -/
theorem Hop.relaying_eq (h : Hop st id s r) {hdr : Header} {wire plain : Bytes}
    (ht : hdr.type = msgTypeRelay) (hu : hdr.flags &&& gnetFlagTrusted = 0)
    (hp : (s.decrypt env.sodium env.zstd wire hdr.packetId).2 = plain) (hne : plain ≠ []) :
    (⟨st,hdr,wire⟩ : DispatchLevel).relaying env id =
      some ((st.decryptFor env id s hdr wire).1.deliver id r .relay hdr wire plain,plain) := by
  have hno : isHandshakeType hdr.type = false := by
    rw [ht]
    decide
  have hopen : st.openPayload env id r hdr wire = ((st.decryptFor env id s hdr wire).1,some plain) := by
    rw [h.openPayload_eq,if_neg (by simpa using hu),hp,if_neg (by simpa using hne)]
  have hopened : (⟨st,hdr,wire⟩ : DispatchLevel).opened env id =
      some (r,(st.decryptFor env id s hdr wire).1,plain) := by
    simp [DispatchLevel.opened,hno,h.find,h.established,hopen]
  unfold DispatchLevel.relaying
  rw [hopened]
  exact if_pos ht

theorem Hop.records_eq (h : Hop st id s r) {hdr : Header} {wire plain : Bytes}
    (ht : hdr.type = msgTypeRelay) (hu : hdr.flags &&& gnetFlagTrusted = 0)
    (hp : (s.decrypt env.sodium env.zstd wire hdr.packetId).2 = plain) (hne : plain ≠ [])
    (hproc : st.processes env plain = true) :
    (⟨st,hdr,wire⟩ : DispatchLevel).records env id =
      some (Header.decode (relayedFrame plain),env.steady st.asked) := by
  have hrel := h.relaying_eq ht hu hp hne
  unfold DispatchLevel.records
  rw [hrel]
  dsimp only
  rw [Impl.processes_opened,if_pos hproc,(DispatchLevel.relaying_dedup hrel).2]

/-- It ends in the call for the frame inside, if that is for this node. -/
theorem Hop.inner_eq (h : Hop st id s r) {hdr : Header} {wire plain : Bytes}
    (ht : hdr.type = msgTypeRelay) (hu : hdr.flags &&& gnetFlagTrusted = 0)
    (hp : (s.decrypt env.sodium env.zstd wire hdr.packetId).2 = plain) (hne : plain ≠ [])
    (hproc : st.processes env plain = true) (hdest : relayDest plain = st.identity.userPubkey) :
    ∃ b own, (⟨st,hdr,wire⟩ : DispatchLevel).inner env id = some b ∧
      Hop b.st id (s.afterOwn hdr.packetId) own ∧ b.hdr = Header.decode (relayedFrame plain) ∧
      b.payload = relayedPayload plain := by
  have hrel := h.relaying_eq ht hu hp hne
  have hmid : Hop ((st.decryptFor env id s hdr wire).1.deliver id r .relay hdr wire plain) id _ _ :=
    (h.decrypted hdr wire).deliver r .relay hdr wire plain
  have hown : (s.decrypt env.sodium env.zstd wire hdr.packetId).1 = s.afterOwn hdr.packetId :=
    NoiseSession.decrypt_own (by rwa [hp])
  have hident : ((st.decryptFor env id s hdr wire).1.deliver id r .relay hdr wire plain).identity =
      st.identity := by
    rcases st.decryptFor_cases env id s hdr wire with ⟨_,_,hd⟩ | ⟨_,hd⟩
    · rw [hd]
      rfl
    · rw [hd]
      rfl
  have hopened : ((st.decryptFor env id s hdr wire).1.deliver id r .relay hdr wire plain).processes
      env plain = st.processes env plain := st.processes_opened hdr wire plain
  rw [hown] at hmid
  rw [hproc] at hopened
  generalize (st.decryptFor env id s hdr wire).1.deliver id r .relay hdr wire plain = mid at *
  have hhere : mid.handleRelay env id plain = _ :=
    Impl.handleRelay_here hopened (hident ▸ hdest)
  have hquiet : Quiet Effect.Outward mid
      (mid.relaySeen env (Header.decode (relayedFrame plain))).1 := mid.relaySeen_quiet _
  obtain ⟨own,hlast⟩ := hmid.agrees (hquiet.agrees (fun r => rfl))
  refine ⟨⟨(mid.relaySeen env (Header.decode (relayedFrame plain))).1,
    Header.decode (relayedFrame plain),relayedPayload plain⟩,own,?_,hlast,rfl,rfl⟩
  unfold DispatchLevel.inner
  rw [hrel]
  dsimp only
  rw [hhere]

end

/-- A relay payload for the responder of the sample exchange, with a relay frame inside. -/
def relayWithin (packetId : UInt64) (payload : Bytes) : Bytes :=
  5 :: ((sampleKey 3).bytes ++
    ((frameHeader 0 msgTypeRelay payload.length packetId).encode ++ payload))

/-- What the initiator seals for the responder. -/
def aliceSeals (plain : Bytes) (nonce : UInt64) : Bytes :=
  ((((Impl.start NodeIdentity.alice).run (Env.sample false) aliceConfirms).sessionOf 1).map
    (fun s => s.encrypt Sodium.sample Zstd.sample plain nonce {})).getD []

/-- Within a sealed relay frame another one, and within that again the header of a third with the
packet id of the second. -/
def innerRelay : Bytes := relayWithin 400 []
def outerRelay : Bytes := relayWithin 400 (aliceSeals innerRelay 400)

/-- A clock that stands still for 8193 calls of `relay_seen`, and goes 31 seconds on with each call
from there. -/
def lateEnv : Env := { Env.sample false with steady := fun i => (i-8192)*(31*10^9) }

/-- The responder once it has seen a number of relayed frames. -/
def bobHasSeen (seen : List RelayFingerprint) : Impl :=
  { (Impl.start NodeIdentity.bob).run lateEnv bobConfirms with
    relayDedup := seen, asked := seen.length }

def outerHeader : Header := frameHeader 0 msgTypeRelay (aliceSeals outerRelay 2).length 2

set_option maxRecDepth 10000 in
/-- The responder can open both frames, one after the other. -/
theorem bobHasSeen_opens (seen : List RelayFingerprint) :
    ((bobHasSeen seen).find 1).any (fun r => r.established && !r.isLocalhost &&
      !r.localhostPassthrough && !r.handshake.isSome && r.session.any (fun s =>
        decide ((s.decrypt Sodium.sample Zstd.sample (aliceSeals outerRelay 2) 2).2 = outerRelay) &&
          decide (((s.afterOwn 2).decrypt Sodium.sample Zstd.sample (relayedPayload outerRelay)
            400).2 = innerRelay))) = true := by
  have hfind : (bobHasSeen seen).find 1 = (bobHasSeen []).find 1 := rfl
  rw [hfind]
  decide +kernel

/-- As many fingerprints as the set holds before it is swept, of other frames and long ago. -/
structure FullSet (seen : List RelayFingerprint) : Prop where
  size : seen.length = 8192
  other : ∀ f ∈ seen, f.packetId ≠ 400
  old : ∀ f ∈ seen, f.ts = 0

section
variable {seen : List RelayFingerprint}

theorem FullSet.remembered (h : FullSet seen) : (bobHasSeen seen).remembered lateEnv = seen :=
  if_neg (by
    change ¬ 8192 < seen.length
    rw [h.size]
    exact Nat.lt_irrefl _)

theorem FullSet.processes (h : FullSet seen) :
    (bobHasSeen seen).processes lateEnv outerRelay = true := by
  have hrelayable : isRelayable outerRelay = true := by decide +kernel
  have hid : (Header.decode (relayedFrame outerRelay)).packetId = 400 := by decide +kernel
  have hnew : ∀ now, seen.any ((Header.decode (relayedFrame outerRelay)).fingerprint lateEnv
      now).same = false := by
    intro now
    rw [List.any_eq_false]
    intro f hf hsame
    simp only [RelayFingerprint.same,Header.fingerprint,Bool.and_eq_true,beq_iff_eq,hid] at hsame
    exact h.other f hf hsame.2.symm
  unfold Impl.processes
  rw [hrelayable,Impl.relaySeen_eq,h.remembered,hnew]
  rfl

/-- Once the set is over its limit and the time is up, the entry the outer frame made is thrown out
and the inner frame makes it again. -/
theorem FullSet.processes_again (h : FullSet seen) {st : Impl} {hdr : Header}
    (hdedup : st.relayDedup =
      hdr.fingerprint lateEnv (lateEnv.steady (bobHasSeen seen).asked) :: seen)
    (hasked : st.asked = (bobHasSeen seen).asked+1) {plain : Bytes} (hp : isRelayable plain = true) :
    st.processes lateEnv plain = true := by
  have hlast : (bobHasSeen seen).asked = 8192 := h.size
  have hlate : ∀ f ∈ st.relayDedup, ¬ lateEnv.steady st.asked ≤ f.ts+relayTtl := by
    intro f hf
    have hts : f.ts = 0 := by
      rw [hdedup,hlast] at hf
      rcases List.mem_cons.1 hf with rfl | hf
      · rfl
      · exact h.old f hf
    change ¬ (st.asked-8192)*(31*10^9) ≤ f.ts+30*10^9
    rw [hasked,hlast,hts]
    omega
  have hnone : st.remembered lateEnv = [] := by
    have hover : 8192 < st.relayDedup.length := by
      rw [hdedup,List.length_cons,h.size]
      exact Nat.lt_succ_self _
    unfold Impl.remembered
    rw [if_pos hover,List.filter_eq_nil_iff]
    intro f hf
    simpa using hlate f hf
  unfold Impl.processes
  rw [hp,Impl.relaySeen_eq,hnone]
  rfl

theorem FullSet.records_twice (h : FullSet seen) :
    ∃ b, (⟨bobHasSeen seen,outerHeader,aliceSeals outerRelay 2⟩ : DispatchLevel).inner lateEnv 1 =
        some b ∧
      (⟨bobHasSeen seen,outerHeader,aliceSeals outerRelay 2⟩ : DispatchLevel).cipher 1 ≠ none ∧
      b.cipher 1 ≠ none ∧ ∃ hdr t hdr' t',
        (⟨bobHasSeen seen,outerHeader,aliceSeals outerRelay 2⟩ : DispatchLevel).records lateEnv 1 =
          some (hdr,t) ∧
        b.records lateEnv 1 = some (hdr',t') ∧ hdr.packetId = hdr'.packetId ∧
        hdr.payloadType = hdr'.payloadType := by
  obtain ⟨r,hr,hr'⟩ := (Option.any_eq_true _ _).mp (bobHasSeen_opens seen)
  simp only [Bool.and_eq_true,Bool.not_eq_true'] at hr'
  obtain ⟨⟨⟨⟨he,hl⟩,hp⟩,hh⟩,hs⟩ := hr'
  obtain ⟨s,hs,hopens⟩ := (Option.any_eq_true _ _).mp hs
  rw [Bool.and_eq_true,decide_eq_true_eq,decide_eq_true_eq] at hopens
  obtain ⟨hfirst,hsecond⟩ := hopens
  have hop : Hop (bobHasSeen seen) 1 s r := ⟨hr,he,hl,hp,hh,hs⟩
  have houter : outerRelay ≠ [] := by simp [outerRelay,relayWithin]
  have hinner : innerRelay ≠ [] := by simp [innerRelay,relayWithin]
  have hdest : relayDest outerRelay = (bobHasSeen seen).identity.userPubkey := by
    change relayDest outerRelay = (bobHasSeen []).identity.userPubkey
    decide +kernel
  have htype : outerHeader.type = msgTypeRelay := by decide +kernel
  have hflags : outerHeader.flags &&& gnetFlagTrusted = 0 := by decide +kernel
  have hfirst' : (s.decrypt lateEnv.sodium lateEnv.zstd (aliceSeals outerRelay 2)
      outerHeader.packetId).2 = outerRelay := hfirst
  have hread : (Header.decode (relayedFrame outerRelay)).type = msgTypeRelay ∧
      (Header.decode (relayedFrame outerRelay)).flags &&& gnetFlagTrusted = 0 ∧
      (Header.decode (relayedFrame outerRelay)).packetId = 400 ∧
      (Header.decode (relayedFrame outerRelay)).payloadType = msgTypeRelay.toUInt16 := by
    decide +kernel
  have hsame : (Header.decode (relayedFrame innerRelay)).packetId = 400 ∧
      (Header.decode (relayedFrame innerRelay)).payloadType = msgTypeRelay.toUInt16 := by
    decide +kernel
  have hrelayable : isRelayable innerRelay = true := by decide +kernel
  obtain ⟨b,own,hin,hhop,hbhdr,hbpayload⟩ :=
    hop.inner_eq htype hflags hfirst' houter h.processes hdest
  obtain ⟨st,hdr,wire⟩ := b
  dsimp only at hhop hbhdr hbpayload
  rw [← hbhdr] at hread
  obtain ⟨htype',hflags',hpid,hpayloadType⟩ := hread
  have hsecond' : ((s.afterOwn outerHeader.packetId).decrypt lateEnv.sodium lateEnv.zstd wire
      hdr.packetId).2 = innerRelay := by
    rw [hbpayload,hpid]
    exact hsecond
  obtain ⟨hdedup,hasked⟩ := DispatchLevel.inner_dedup hin
  have hrecorded := DispatchLevel.inner_records hin
  have hnew := (DispatchLevel.records_some hrecorded).1
  have hfirstly : ((bobHasSeen seen).relaySeen lateEnv hdr).1.relayDedup =
      hdr.fingerprint lateEnv (lateEnv.steady (bobHasSeen seen).asked) :: seen := by
    rw [Impl.relaySeen_eq,h.remembered] at hnew ⊢
    split
    · rename_i hseen
      rw [if_pos hseen] at hnew
      cases hnew
    · rfl
  have hagain : st.processes lateEnv innerRelay = true :=
    h.processes_again (hdedup.trans hfirstly) hasked hrelayable
  have hrecords := hhop.records_eq htype' hflags' hsecond' hinner hagain
  refine ⟨_,hin,?_,?_,_,_,_,_,hrecorded,hrecords,?_,?_⟩
  · rw [hop.level_cipher]
    exact Option.some_ne_none _
  · rw [hhop.level_cipher]
    exact Option.some_ne_none _
  · exact hpid.trans hsame.1.symm
  · exact hpayloadType.trans hsame.2.symm

end

/-- The fingerprints of 8192 frames. -/
def manySeen : List RelayFingerprint :=
  (List.range 8192).map (fun i =>
    (frameHeader 0 msgTypeRelay 0 (UInt64.ofNat (1000+i))).fingerprint lateEnv 0)

theorem manySeen_full : FullSet manySeen where
  size := by rw [manySeen,List.length_map,List.length_range]
  other := by
    intro f hf
    obtain ⟨i,hi,rfl⟩ := List.mem_map.1 hf
    rw [List.mem_range] at hi
    intro heq
    have hnat := congrArg UInt64.toNat heq
    simp only [Header.fingerprint,frameHeader,UInt64.toNat_ofNat'] at hnat
    have hconst : (400 : UInt64).toNat = 400 := rfl
    omega
  old := by
    intro f hf
    obtain ⟨i,_,rfl⟩ := List.mem_map.1 hf
    rfl

/-- A call for a relay frame and the one nested in it, both on an encrypted connection, record the
same fingerprint: 31 seconds lie between them and the first entry has been thrown out. -/
theorem fingerprint_recorded_twice : ∃ b,
    (⟨bobHasSeen manySeen,outerHeader,aliceSeals outerRelay 2⟩ : DispatchLevel).inner lateEnv 1 =
      some b ∧
    (⟨bobHasSeen manySeen,outerHeader,aliceSeals outerRelay 2⟩ : DispatchLevel).cipher 1 ≠ none ∧
    b.cipher 1 ≠ none ∧ ∃ hdr t hdr' t',
      (⟨bobHasSeen manySeen,outerHeader,aliceSeals outerRelay 2⟩ : DispatchLevel).records lateEnv 1
        = some (hdr,t) ∧
      b.records lateEnv 1 = some (hdr',t') ∧ hdr.packetId = hdr'.packetId ∧
      hdr.payloadType = hdr'.payloadType :=
  manySeen_full.records_twice

/-- The node with the slow clock: a nested call on an encrypted connection uses up another packet
id, and records the fingerprint of the call around it more than 30 seconds later. -/
theorem relay_recursion_ends_slowly : ∃ a b : DispatchLevel, a.inner lateEnv 1 = some b ∧
    (∃ s, a.cipher 1 = some s ∧ b.cipher 1 = some (s.afterOwn a.hdr.packetId)) ∧
    a.hdr.packetId ≠ b.hdr.packetId ∧ ∃ hdr t hdr' t', a.records lateEnv 1 = some (hdr,t) ∧
      b.records lateEnv 1 = some (hdr',t') ∧ hdr.packetId = hdr'.packetId ∧
      hdr.payloadType = hdr'.payloadType ∧ t+relayTtl < t' := by
  obtain ⟨_,_,_,hlevels⟩ := @relay_recursion_ends lateEnv
    (fun _ _ h => Nat.mul_le_mul_right _ (Nat.sub_le_sub_right h 8192)) 1
  obtain ⟨b,hin,ha,hb,hdr,t,hdr',t',houter,hinner,hid,htype⟩ := manySeen_full.records_twice
  obtain ⟨_,hsealed,hids,_,_,hfirst,hlater⟩ := hlevels _ b b hin .refl
  obtain ⟨s,hs⟩ := Option.ne_none_iff_exists'.1 ha
  have hopened : (b.opened lateEnv 1).isSome = true := by
    unfold DispatchLevel.records at hinner
    split at hinner
    · cases hinner
    · rename_i hrel
      obtain ⟨_,_,hopen,_⟩ := DispatchLevel.relaying_some hrel
      rw [hopen]
      rfl
  cases hfirst.symm.trans houter
  exact ⟨_,b,hin,⟨s,hs,(hsealed s hs).2⟩,hids hb hopened,_,_,_,_,houter,hinner,hid,htype,
    hlater hdr' t' hinner ⟨hid,htype⟩⟩

end GoodNet
