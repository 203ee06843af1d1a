import GoodNet.ForgedPackets
import GoodNet.SendInterleaving
import GoodNet.SessionTrace
set_option autoImplicit false

/-! The two ends of a session that rekey on their own. Nothing tells an end how often the
other one has done so; frames sent in between meet a key they do not fit. -/

namespace GoodNet
open Codec SlidingWindow

/-- What `rekey_session`, `build_frame` and `decrypt` use of an established record. -/
structure SessionEnd where
  session : NoiseSession
  sendPacketId : UInt64
  deriving DecidableEq, Repr

def SessionEnd.rekey (S : Sodium) (e : SessionEnd) : SessionEnd := ⟨e.session.rekey S,1⟩

/-- The encrypted frame that goes out next. -/
def SessionEnd.outgoing (S : Sodium) (Z : Zstd) (c : Compression) (e : SessionEnd) (payload : Bytes) :
    Packet :=
  ⟨e.session.encrypt S Z payload e.sendPacketId c,e.sendPacketId⟩

def SessionEnd.advance (e : SessionEnd) : SessionEnd := { e with sendPacketId := e.sendPacketId+1 }

def SessionEnd.receive (S : Sodium) (Z : Zstd) (e : SessionEnd) (p : Packet) : SessionEnd :=
  { e with session := (e.session.decrypt S Z p.wire p.packetId).1 }

def ConnectionRecord.sessionEnd (r : ConnectionRecord) : Option SessionEnd :=
  r.session.map (fun s => ⟨s,r.sendPacketId⟩)

section
variable {env : Env} {st : Impl} {id : Nat} {r : ConnectionRecord} {e : SessionEnd}

theorem ConnectionRecord.sessionEnd_some (h : r.sessionEnd = some e) :
    r.session = some e.session ∧ r.sendPacketId = e.sendPacketId := by
  obtain ⟨s,hs,rfl⟩ := Option.map_eq_some_iff.mp h
  exact ⟨hs,rfl⟩

theorem Impl.rekeySession_end (hr : st.find id = some r) (he : r.established = true)
    (h : r.sessionEnd = some e) :
    ((st.rekeySession env id).1.find id).bind ConnectionRecord.sessionEnd =
      some (e.rekey env.sodium) := by
  obtain ⟨hs,_⟩ := ConnectionRecord.sessionEnd_some h
  unfold rekeySession
  simp only [hr,hs,he,Bool.not_true,Bool.false_eq_true,ite_false,Impl.find_emit,
    Impl.find_modify_self,Option.map_some,Option.bind_some]
  rfl

theorem Impl.buildFrame_end (hr : st.find id = some r) (h : r.sessionEnd = some e)
    {msgType : UInt32} (hm : r.seals msgType = true) (payload : Bytes) :
    ((st.buildFrame env id msgType payload).1.find id).bind ConnectionRecord.sessionEnd =
        some e.advance ∧
      (st.buildFrame env id msgType payload).2.drop headerSize =
        (e.outgoing env.sodium env.zstd st.compression payload).wire := by
  obtain ⟨hs,hid⟩ := ConnectionRecord.sessionEnd_some h
  have hkey : r.sealingKey msgType = some e.session.sendKey := by
    unfold ConnectionRecord.sealingKey
    rw [hm,hs]
    rfl
  unfold buildFrame
  simp only [hr,Impl.find_modify_self,Option.map_some,Option.bind_some]
  constructor
  · unfold ConnectionRecord.sessionEnd ConnectionRecord.takePacketId SessionEnd.advance
    simp only [hs,Option.map_some,hid]
  · obtain ⟨s,hs',_,hframe⟩ := ConnectionRecord.frame_sealingKey hkey payload
    rw [hframe,hid]
    rw [hs] at hs'
    rw [← Option.some.inj hs']
    rfl

theorem Impl.decryptFor_end (hr : st.find id = some r) (h : r.sessionEnd = some e)
    (hdr : Header) (payload : Bytes) :
    ((st.decryptFor env id e.session hdr payload).1.find id).bind ConnectionRecord.sessionEnd =
      some (e.receive env.sodium env.zstd ⟨payload,hdr.packetId⟩) := by
  obtain ⟨hs,hid⟩ := ConnectionRecord.sessionEnd_some h
  have hfind : (st.decryptFor env id e.session hdr payload).1.find id =
      some (r.withSession (e.session.decrypt env.sodium env.zstd payload hdr.packetId).1) := by
    unfold decryptFor
    dsimp only
    split
    · rw [find_emit,find_modify_self,hr]
      rfl
    · rw [find_modify_self,hr]
      rfl
  rw [hfind,Option.bind_some]
  unfold ConnectionRecord.sessionEnd ConnectionRecord.withSession SessionEnd.receive
  rw [Option.map_some,hid]

end

/-- Two ends, the frames on the way to each, the calls of `rekey_session` made by each, and
the packet ids each has taken in since its last such call from an end that was behind. -/
structure Link where
  ends : Bool → SessionEnd
  flight : Bool → List Packet
  rekeys : Bool → Nat
  strays : Bool → List UInt64

def Link.between (a b : SessionEnd) : Link where
  ends side := if side then a else b
  flight _ := []
  rekeys _ := 0
  strays _ := []

inductive LinkStep where
  | rekey (side : Bool)
  | send (side : Bool) (c : Compression) (payload : Bytes)
  | deliver (side : Bool) (k : Nat)
  | lose (side : Bool) (k : Nat)

def Link.act (S : Sodium) (Z : Zstd) (l : Link) : LinkStep → Link
  | .rekey side =>
    { l with ends := Function.update l.ends side ((l.ends side).rekey S),
             rekeys := Function.update l.rekeys side (l.rekeys side+1),
             strays := Function.update l.strays side [] }
  | .send side c payload =>
    { l with ends := Function.update l.ends side (l.ends side).advance,
             flight := Function.update l.flight (!side)
               (l.flight (!side) ++ [(l.ends side).outgoing S Z c payload]) }
  | .deliver side k =>
    match (l.flight side)[k]? with
    | none => l
    | some p =>
      { l with ends := Function.update l.ends side ((l.ends side).receive S Z p),
               flight := Function.update l.flight side ((l.flight side).eraseIdx k),
               strays := if l.rekeys (!side) < l.rekeys side then
                   Function.update l.strays side (p.packetId :: l.strays side)
                 else l.strays }
  | .lose side k =>
    { l with flight := Function.update l.flight side ((l.flight side).eraseIdx k) }

def Link.run (S : Sodium) (Z : Zstd) (l : Link) (steps : List LinkStep) : Link :=
  steps.foldl (Link.act S Z) l

/-- No frame is in flight across a rekey, and no packet counter runs over. -/
def Link.Admits (l : Link) : LinkStep → Prop
  | .rekey _ => ∀ side, l.flight side = []
  | .send side _ _ => (l.ends side).sendPacketId.toNat+1 < 2^64
  | _ => True

def Link.Along (S : Sodium) (Z : Zstd) (l : Link) : List LinkStep → Prop
  | [] => True
  | a :: rest => l.Admits a ∧ (l.act S Z a).Along S Z rest

instance Link.decidableAdmits (l : Link) : (a : LinkStep) → Decidable (l.Admits a)
  | .rekey _ => inferInstanceAs (Decidable (∀ side, l.flight side = []))
  | .send side _ _ => inferInstanceAs (Decidable ((l.ends side).sendPacketId.toNat+1 < 2^64))
  | .deliver _ _ => inferInstanceAs (Decidable True)
  | .lose _ _ => inferInstanceAs (Decidable True)

instance Link.decidableAlong (S : Sodium) (Z : Zstd) :
    (l : Link) → (steps : List LinkStep) → Decidable (l.Along S Z steps)
  | _, [] => inferInstanceAs (Decidable True)
  | l, a :: rest => @instDecidableAnd _ _ _ (decidableAlong S Z (l.act S Z a) rest)

/-- As a handshake leaves an end and its peer: the counter has left zero, and the window lets
in what is still to be sent. -/
structure SessionEnd.Awaited (e peer : SessionEnd) : Prop where
  counter : e.sendPacketId ≠ 0
  window : ∀ n : UInt64, e.sendPacketId.toNat ≤ n.toNat → ¬ peer.session.recvWindow.Refuses n

/-- The sender has rekeyed, or started out well. -/
def Link.Begun (start l : Link) (x : Bool) : Prop :=
  l.rekeys x ≠ 0 ∨ (start.ends x).Awaited (start.ends !x)

/-- One direction, from an end to the other. While the receiver is ahead its window holds
the strays and nothing else; once the ends are level it shuts out, of what is still to be
sent, what the strays cover. -/
structure Link.Direction (S : Sodium) (start l : Link) (x : Bool) : Prop where
  sendKey : (l.ends x).session.sendKey =
    (nextKey S)^[l.rekeys x] (start.ends x).session.sendKey
  recvKey : (l.ends !x).session.recvKey =
    (nextKey S)^[l.rekeys !x] (start.ends !x).session.recvKey
  counter : start.Begun l x → 1 ≤ (l.ends x).sendPacketId.toNat
  below : ∀ p ∈ l.flight (!x), p.tagged = true ∧
    p.packetId.toNat < (l.ends x).sendPacketId.toNat
  level : start.Begun l x → l.rekeys x = l.rekeys (!x) → ∀ n : UInt64,
    (l.ends x).sendPacketId.toNat ≤ n.toNat →
    ((l.ends !x).session.recvWindow.Refuses n ↔
      ∃ m ∈ l.strays (!x), Covers windowSize m.toNat n.toNat)
  behind : l.rekeys x < l.rekeys (!x) → ∀ n : UInt64,
    ((l.ends !x).session.recvWindow.Refuses n ↔
      n = 0 ∨ ∃ m ∈ l.strays (!x), Covers windowSize m.toNat n.toNat)

section
variable {S : Sodium} {Z : Zstd} {start l : Link} {x : Bool}

@[simp] theorem update_not {α : Type} (f : Bool → α) (x : Bool) (v : α) :
    Function.update f x v (!x) = f (!x) := by
  cases x with
  | true => rfl
  | false => rfl

@[simp] theorem update_not_self {α : Type} (f : Bool → α) (x : Bool) (v : α) :
    Function.update f (!x) v x = f x := by
  cases x with
  | true => rfl
  | false => rfl

theorem SessionEnd.outgoing_tagged (hS : S.Seals) (c : Compression) (e : SessionEnd)
    (payload : Bytes) : (e.outgoing S Z c payload).tagged = true := by
  obtain ⟨w,hw,hopen⟩ := hS e.session.sendKey (nonce12 e.sendPacketId) [] (sessionBody Z c payload)
  have hlen := S.aeadDecrypt_length _ _ _ _ _ hopen
  have hwire : (e.outgoing S Z c payload).wire = w := by
    unfold outgoing NoiseSession.encrypt
    dsimp only
    rw [hw]
    rfl
  unfold Packet.tagged
  rw [hwire,decide_eq_true_eq]
  omega

/-- The sender's own rekey: its counter starts over, and it catches up by one. -/
theorem Link.Direction.rekey_sender (h : Link.Direction S start l x)
    (hland : l.flight (!x) = []) : Link.Direction S start (l.act S Z (.rekey x)) x where
  sendKey := by
    simp only [act,Function.update_self]
    rw [Function.iterate_succ_apply',← h.sendKey]
    rfl
  recvKey := by
    simp only [act,update_not]
    exact h.recvKey
  counter := by
    intro _
    simp only [act,Function.update_self]
    exact Nat.le_refl 1
  below := fun p hp => by
    simp only [act] at hp
    rw [hland] at hp
    cases hp
  level := by
    intro _ he n hn
    simp only [act,Function.update_self,update_not] at he hn ⊢
    have hn : 1 ≤ n.toNat := hn
    have hz : n ≠ 0 := by
      intro hz
      rw [hz] at hn
      exact absurd hn (by decide)
    have hbehind := h.behind (by omega) n
    simp only [hz,false_or] at hbehind
    exact hbehind
  behind := by
    intro hlt n
    simp only [act,Function.update_self,update_not] at hlt ⊢
    exact h.behind (by omega) n

/-- The receiver's: its window starts over. -/
theorem Link.Direction.rekey_receiver (h : Link.Direction S start l x)
    (hland : l.flight (!x) = []) : Link.Direction S start (l.act S Z (.rekey !x)) x where
  sendKey := by
    simp only [act,update_not_self]
    exact h.sendKey
  recvKey := by
    simp only [act,Function.update_self]
    rw [Function.iterate_succ_apply',← h.recvKey]
    rfl
  counter := by
    simp only [Begun,act,update_not_self]
    exact h.counter
  below := fun p hp => by
    simp only [act] at hp
    rw [hland] at hp
    cases hp
  level := by
    intro hb he n hn
    simp only [Begun,act,Function.update_self,update_not_self] at hb he hn ⊢
    have hz : n ≠ 0 := by
      intro hz
      have hone := h.counter hb
      rw [hz,UInt64.toNat_zero] at hn
      omega
    simp [SessionEnd.rekey,NoiseSession.rekey,hz]
  behind := by
    intro hlt n
    simp [act,SessionEnd.rekey,NoiseSession.rekey]

theorem Link.Direction.send_sender (hS : S.Seals) (h : Link.Direction S start l x)
    (c : Compression) (payload : Bytes) (hf : (l.ends x).sendPacketId.toNat+1 < 2^64) :
    Link.Direction S start (l.act S Z (.send x c payload)) x := by
  have hnext : (l.ends x).advance.sendPacketId.toNat = (l.ends x).sendPacketId.toNat+1 := by
    unfold SessionEnd.advance
    rw [UInt64.toNat_add]
    exact Nat.mod_eq_of_lt hf
  exact {
    sendKey := by
      simp only [act,Function.update_self]
      exact h.sendKey
    recvKey := by
      simp only [act,update_not]
      exact h.recvKey
    counter := by
      intro _
      simp only [act,Function.update_self]
      omega
    below := by
      intro p hp
      simp only [act,Function.update_self,List.mem_append,List.mem_singleton] at hp ⊢
      rw [hnext]
      rcases hp with hp | rfl
      · exact ⟨(h.below p hp).1,Nat.lt_succ_of_lt (h.below p hp).2⟩
      · exact ⟨SessionEnd.outgoing_tagged hS c _ payload,Nat.lt_succ_self _⟩
    level := by
      intro hb he n hn
      simp only [act,Function.update_self,update_not] at he hn ⊢
      rw [hnext] at hn
      exact h.level hb he n (by omega)
    behind := by
      intro hlt n
      simp only [act,update_not] at hlt ⊢
      exact h.behind hlt n }

/-- A frame the other way. -/
theorem Link.Direction.send_receiver (h : Link.Direction S start l x) (c : Compression)
    (payload : Bytes) : Link.Direction S start (l.act S Z (.send (!x) c payload)) x where
  sendKey := by
    simp only [act,update_not_self]
    exact h.sendKey
  recvKey := by
    simp only [act,Function.update_self]
    exact h.recvKey
  counter := by
    simp only [act,update_not_self]
    exact h.counter
  below := by
    simp only [act,Bool.not_not,update_not,update_not_self]
    exact h.below
  level := by
    simp only [act,Function.update_self,update_not_self]
    exact h.level
  behind := by
    simp only [act,Function.update_self]
    exact h.behind

theorem SessionEnd.receive_keys (e : SessionEnd) (p : Packet) :
    (e.receive S Z p).session.sendKey = e.session.sendKey ∧
      (e.receive S Z p).session.recvKey = e.session.recvKey ∧
      (e.receive S Z p).sendPacketId = e.sendPacketId := by
  unfold receive
  rw [NoiseSession.decrypt_session]
  exact ⟨rfl,rfl,rfl⟩

theorem SessionEnd.receive_refuses (e : SessionEnd) {p : Packet} (ht : p.tagged = true)
    (n : UInt64) : (e.receive S Z p).session.recvWindow.Refuses n ↔
      e.session.recvWindow.Refuses n ∨ Covers windowSize p.packetId.toNat n.toNat := by
  unfold receive
  rw [NoiseSession.decrypt_session]
  unfold NoiseSession.windowAfter
  have hlong : ¬ p.wire.length < macLen := by
    unfold Packet.tagged at ht
    rw [decide_eq_true_eq] at ht
    omega
  rw [if_neg hlong]
  exact NonceWindow.refuses_accept _ _ _

/-- A frame comes in at the receiving end. Of an end that is level it is older than anything
still to be sent; of one that is behind it is a stray. -/
theorem Link.Direction.deliver_receiver (h : Link.Direction S start l x) (k : Nat) :
    Link.Direction S start (l.act S Z (.deliver (!x) k)) x := by
  simp only [act]
  split
  · exact h
  · rename_i p hp
    obtain ⟨ht,hlt⟩ := h.below p (List.mem_of_getElem? hp)
    obtain ⟨_,hrecv,_⟩ := (l.ends !x).receive_keys (S := S) (Z := Z) p
    exact {
      sendKey := by
        simp only [update_not_self]
        exact h.sendKey
      recvKey := by
        simp only [Function.update_self]
        rw [hrecv]
        exact h.recvKey
      counter := by
        simp only [update_not_self]
        exact h.counter
      below := by
        intro q hq
        simp only [Function.update_self,update_not_self] at hq ⊢
        exact h.below q (List.mem_of_mem_eraseIdx hq)
      level := by
        intro hb he n hn
        simp only [Function.update_self,update_not_self,Bool.not_not] at he hn ⊢
        have hold : ¬ Covers windowSize p.packetId.toNat n.toNat := by
          unfold Covers
          omega
        rw [if_neg (by omega),SessionEnd.receive_refuses _ ht,or_iff_left hold]
        exact h.level hb he n hn
      behind := by
        intro hb n
        simp only [Function.update_self,Bool.not_not] at hb ⊢
        rw [if_pos hb,SessionEnd.receive_refuses _ ht,h.behind hb n]
        simp only [Function.update_self,List.mem_cons,exists_eq_or_imp]
        rw [or_assoc,or_comm (a := Covers windowSize p.packetId.toNat n.toNat)] }

theorem Link.Direction.deliver_sender (h : Link.Direction S start l x) (k : Nat) :
    Link.Direction S start (l.act S Z (.deliver x k)) x := by
  simp only [act]
  split
  · exact h
  · rename_i p hp
    obtain ⟨hsend,_,hcount⟩ := (l.ends x).receive_keys (S := S) (Z := Z) p
    have hstrays : (if l.rekeys (!x) < l.rekeys x then
        Function.update l.strays x (p.packetId :: l.strays x) else l.strays) (!x) =
          l.strays (!x) := by
      split
      · exact update_not _ _ _
      · rfl
    exact {
      sendKey := by
        simp only [Function.update_self]
        rw [hsend]
        exact h.sendKey
      recvKey := by
        simp only [update_not]
        exact h.recvKey
      counter := by
        simp only [Function.update_self]
        rw [hcount]
        exact h.counter
      below := by
        simp only [Function.update_self,update_not]
        rw [hcount]
        exact h.below
      level := by
        simp only [Function.update_self,update_not]
        rw [hcount,hstrays]
        exact h.level
      behind := by
        simp only [update_not]
        rw [hstrays]
        exact h.behind }

theorem Link.Direction.lose (h : Link.Direction S start l x) (side : Bool) (k : Nat) :
    Link.Direction S start (l.act S Z (.lose side k)) x where
  sendKey := h.sendKey
  recvKey := h.recvKey
  counter := h.counter
  below := by
    intro p hp
    simp only [act] at hp ⊢
    by_cases hside : (!x) = side
    · rw [← hside,Function.update_self] at hp
      exact h.below p (List.mem_of_mem_eraseIdx hp)
    · rw [Function.update_of_ne hside] at hp
      exact h.below p hp
  level := h.level
  behind := h.behind

theorem Link.Direction.act (hS : S.Seals) (h : Link.Direction S start l x) (a : LinkStep)
    (ha : l.Admits a) : Link.Direction S start (l.act S Z a) x := by
  cases a with
  | rekey side =>
    by_cases hside : side = x
    · rw [hside]
      exact h.rekey_sender (ha (!x))
    · rw [Bool.eq_not_of_ne hside]
      exact h.rekey_receiver (ha (!x))
  | send side c payload =>
    by_cases hside : side = x
    · rw [hside] at ha ⊢
      exact h.send_sender hS c payload ha
    · rw [Bool.eq_not_of_ne hside]
      exact h.send_receiver c payload
  | deliver side k =>
    by_cases hside : side = x
    · rw [hside]
      exact h.deliver_sender k
    · rw [Bool.eq_not_of_ne hside]
      exact h.deliver_receiver k
  | lose side k => exact h.lose side k

theorem Link.Direction.run (hS : S.Seals) (h : Link.Direction S start l x) (steps : List LinkStep)
    (ha : l.Along S Z steps) : Link.Direction S start (l.run S Z steps) x := by
  induction steps generalizing l with
  | nil => exact h
  | cons a steps ih => exact ih (h.act hS a ha.1) ha.2

theorem Link.Direction.between (a b : SessionEnd) :
    Link.Direction S (between a b) (between a b) x where
  sendKey := rfl
  recvKey := rfl
  counter := fun hb => toNat_pos (hb.resolve_left (fun h => h rfl)).counter
  below := fun p hp => by cases hp
  level := fun hb _ n hn => by
    refine iff_of_false ((hb.resolve_left (fun h => h rfl)).window n hn) ?_
    rintro ⟨m,hm,_⟩
    cases hm
  behind := fun hlt => absurd hlt (Nat.lt_irrefl 0)

end

/-- The two ends of a session rekey in any order, and frames are sent, delivered and lost in
between, none of them in flight across a rekey. Whenever both have made the same number of
calls their keys agree again and the next frame opens at the other end; its window takes
the frame unless a stray came in since the last rekey there that has the packet id of that
frame or one a full window above it. -/
theorem rekeyed_ends_agree {S : Sodium} (hS : S.Seals) (Z : Zstd) {a b : SessionEnd}
    (hkey : ∀ side, ((Link.between a b).ends side).session.sendKey =
      ((Link.between a b).ends !side).session.recvKey)
    (steps : List LinkStep) (ha : (Link.between a b).Along S Z steps) (side : Bool)
    (hsame : ((Link.between a b).run S Z steps).rekeys side =
      ((Link.between a b).run S Z steps).rekeys (!side))
    (hbegun : (Link.between a b).Begun ((Link.between a b).run S Z steps) side)
    (c : Compression) (payload : Bytes) :
    let l := (Link.between a b).run S Z steps
    let p := (l.ends side).outgoing S Z c payload
    (l.ends side).session.sendKey = (l.ends !side).session.recvKey ∧
      (l.ends !side).session.authenticates S p.wire p.packetId = some (sessionBody Z c payload) ∧
      (((l.ends !side).session.recvWindow.accept p.packetId).2 = true ↔
        ∀ m ∈ l.strays (!side), ¬ Covers windowSize m.toNat p.packetId.toNat) := by
  intro l p
  have hdir : Link.Direction S (Link.between a b) l side :=
    (Link.Direction.between a b).run hS steps ha
  have hsame : l.rekeys side = l.rekeys (!side) := hsame
  have hkeys : (l.ends side).session.sendKey = (l.ends !side).session.recvKey := by
    rw [hdir.sendKey,hdir.recvKey,hsame,hkey]
  refine ⟨hkeys,?_,?_⟩
  · obtain ⟨w,hw,hopen⟩ := hS (l.ends side).session.sendKey (nonce12 (l.ends side).sendPacketId) []
      (sessionBody Z c payload)
    have hwire : p.wire = w := by
      show (S.aeadEncrypt _ _ _ _).getD [] = w
      rw [hw]
      rfl
    have hlen := S.aeadDecrypt_length _ _ _ _ _ hopen
    unfold NoiseSession.authenticates
    rw [hwire,if_neg (by omega),← hkeys]
    exact hopen
  · rw [NonceWindow.accept_result_true,hdir.level hbegun hsame p.packetId (Nat.le_refl _)]
    constructor
    · intro h m hm hc
      exact h ⟨m,hm,hc⟩
    · rintro h ⟨m,hm,hc⟩
      exact h m hm hc

/-- An end after its one handshake frame. -/
def SessionEnd.sample (send recv : UInt8) : SessionEnd :=
  ⟨{ sendKey := sampleKey send, recvKey := sampleKey recv, handshakeHash := sampleKey 0 },1⟩

def sampleLink : Link := Link.between (SessionEnd.sample 1 2) (SessionEnd.sample 2 1)

/-- A frame arrives, both ends rekey, and one more frame arrives. -/
def rekeyTogether : List LinkStep :=
  [.send true {} [104],.deliver false 0,.rekey true,.rekey false,.send true {} [105],.deliver false 0]

theorem rekeyed_ends_agree_together :
    (((sampleLink.run Sodium.sample Zstd.sample rekeyTogether).ends false).session.recvWindow.accept
        ((((sampleLink.run Sodium.sample Zstd.sample rekeyTogether).ends true).outgoing Sodium.sample
          Zstd.sample {} [106]).packetId)).2 = true := by
  have hkey : ∀ side, (sampleLink.ends side).session.sendKey =
      (sampleLink.ends !side).session.recvKey := by decide +kernel
  have hrun : sampleLink.Along Sodium.sample Zstd.sample rekeyTogether := by decide +kernel
  have hstrays : (sampleLink.run Sodium.sample Zstd.sample rekeyTogether).strays false = [] := by
    decide +kernel
  refine (rekeyed_ends_agree Sodium.sample_lawful.seal_open Zstd.sample hkey rekeyTogether hrun true
    (by decide +kernel) (Or.inl (by decide +kernel)) {} [106]).2.2.mpr (fun m hm => ?_)
  have hm : m ∈ (sampleLink.run Sodium.sample Zstd.sample rekeyTogether).strays false := hm
  rw [hstrays] at hm
  cases hm

/-- One end rekeys, the other one sends its first frame and rekeys once that frame has
arrived. -/
def rekeyAhead : List LinkStep := [.rekey false,.send true {} [104],.deliver false 0,.rekey true]

/-- The keys agree again, but the next frame bears the packet id of the lost one. -/
theorem rekey_ahead_shuts_out_next :
    (∀ side, (sampleLink.ends side).session.sendKey = (sampleLink.ends !side).session.recvKey) ∧
      (∀ side, (sampleLink.ends side).sendPacketId = 1 ∧
        (sampleLink.ends side).session.recvWindow = {}) ∧
      sampleLink.Along Sodium.sample Zstd.sample rekeyAhead ∧
      (sampleLink.run Sodium.sample Zstd.sample rekeyAhead).rekeys true =
        (sampleLink.run Sodium.sample Zstd.sample rekeyAhead).rekeys false ∧
      (((sampleLink.run Sodium.sample Zstd.sample rekeyAhead).ends false).session.recvWindow.accept
        ((((sampleLink.run Sodium.sample Zstd.sample rekeyAhead).ends true).outgoing Sodium.sample
          Zstd.sample {} [105]).packetId)).2 = false := by
  refine ⟨by decide +kernel,by decide +kernel,by decide +kernel,by decide +kernel,by decide +kernel⟩

end GoodNet
