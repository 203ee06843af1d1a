import GoodNet.NoiseSession
set_option autoImplicit false

/-! What an unauthenticated packet does to the packets that follow it. The window moves
before the tag is checked, so a forged header can shut genuine packets out; which ones
is settled exactly. -/

namespace GoodNet
open Codec SlidingWindow

structure Packet where
  wire : Bytes
  packetId : UInt64
  deriving DecidableEq, Repr

def NoiseSession.genuine (S : Sodium) (s : NoiseSession) (p : Packet) : Bool :=
  (s.authenticates S p.wire p.packetId).isSome

/-- Long enough to carry a tag; only such packets are presented to the window. -/
def Packet.tagged (p : Packet) : Bool := macLen ≤ p.wire.length

def NoiseSession.receive (S : Sodium) (Z : Zstd) (s : NoiseSession) (ps : List Packet) :
    NoiseSession :=
  ps.foldl (fun s p => (s.decrypt S Z p.wire p.packetId).1) s

theorem NoiseSession.receive_window (S : Sodium) (Z : Zstd) (s : NoiseSession)
    (ps : List Packet) :
    s.receive S Z ps =
      { s with recvWindow := s.recvWindow.present ((ps.filter Packet.tagged).map Packet.packetId) } := by
  induction ps generalizing s with
  | nil => rfl
  | cons p ps ih =>
    have hstep : s.receive S Z (p :: ps) =
        ((s.decrypt S Z p.wire p.packetId).1).receive S Z ps := rfl
    rw [hstep,ih,decrypt_session]
    unfold windowAfter
    by_cases ht : p.wire.length < macLen
    · have hp : p.tagged = false := by simpa [Packet.tagged] using ht
      simp [ht,hp]
    · have hp : p.tagged = true := by simpa [Packet.tagged] using ht
      simp [ht,hp,NonceWindow.present]

theorem NoiseSession.receive_refuses (S : Sodium) (Z : Zstd) (s : NoiseSession)
    (ps : List Packet) (n : UInt64) :
    (s.receive S Z ps).recvWindow.Refuses n ↔ s.recvWindow.Refuses n ∨
      ∃ p ∈ ps, p.tagged = true ∧ Covers windowSize p.packetId.toNat n.toNat := by
  rw [receive_window,NonceWindow.refuses_present]
  simp only [List.mem_map,List.mem_filter]
  constructor
  · rintro (h | ⟨m,⟨p,⟨hp,ht⟩,rfl⟩,hc⟩)
    · exact Or.inl h
    · exact Or.inr ⟨p,hp,ht,hc⟩
  · rintro (h | ⟨p,hp,ht,hc⟩)
    · exact Or.inl h
    · exact Or.inr ⟨p.packetId,⟨p,⟨hp,ht⟩,rfl⟩,hc⟩

theorem NoiseSession.decrypt_window_unchanged (S : Sodium) (Z : Zstd) (s : NoiseSession)
    (wire : Bytes) (nonce : UInt64) :
    (s.decrypt S Z wire nonce).1.recvWindow = s.recvWindow ↔
      wire.length < macLen ∨ s.recvWindow.Refuses nonce := by
  rw [decrypt_session]
  unfold windowAfter
  by_cases hs : wire.length < macLen
  · simp [hs]
  · simp only [hs,ite_false,false_or]
    constructor
    · intro he
      by_contra hr
      exact NonceWindow.accept_changes hr he
    · intro hr
      rw [NonceWindow.accept_refused hr]

/-- A packet that the peer sealed is lost to forgeries exactly when one of them named
its id, or an id a window width or more above it. -/
theorem NoiseSession.survives_forgeries (S : Sodium) (Z : Zstd) (s : NoiseSession)
    (before : List Packet) (n : UInt64)
    (h : ¬ (s.receive S Z (before.filter (s.genuine S))).recvWindow.Refuses n) :
    ¬ (s.receive S Z before).recvWindow.Refuses n ↔
      ∀ f ∈ before, s.genuine S f = false → f.tagged = true →
        ¬ Covers windowSize f.packetId.toNat n.toNat := by
  rw [receive_refuses] at h
  rw [receive_refuses]
  obtain ⟨hstart,hclean⟩ := not_or.mp h
  constructor
  · intro hmixed f hf _ ht hc
    exact hmixed (Or.inr ⟨f,hf,ht,hc⟩)
  · rintro hforged (hr | ⟨f,hf,ht,hc⟩)
    · exact hstart hr
    · cases hg : s.genuine S f with
      | true => exact hclean ⟨f,List.mem_filter.mpr ⟨hf,hg⟩,ht,hc⟩
      | false => exact hforged f hf hg ht hc

theorem NoiseSession.decrypt_same {S : Sodium} {Z : Zstd} {s t : NoiseSession} {wire : Bytes}
    {nonce : UInt64} (hk : s.recvKey = t.recvKey) (hs : ¬ s.recvWindow.Refuses nonce)
    (ht : ¬ t.recvWindow.Refuses nonce) :
    (s.decrypt S Z wire nonce).2 = (t.decrypt S Z wire nonce).2 := by
  have ha := (NonceWindow.accept_result_true _ _).mpr hs
  have hb := (NonceWindow.accept_result_true _ _).mpr ht
  unfold decrypt
  simp only [ha,hb,hk]
  split
  · rfl
  · cases S.aeadDecrypt t.recvKey (nonce12 nonce) [] wire with
    | none => rfl
    | some body => rfl

/-- First half: a packet that fails authentication leaves the window alone exactly when
it is too short for a tag or its id is refused anyway. Second half: in any interleaving,
a genuine packet that the genuine packets alone would let through is still taken, with
the same result, exactly when no forgery named its id or one a window width above. -/
theorem forged_packets_window (S : Sodium) (Z : Zstd) (s : NoiseSession) :
    (∀ wire nonce, s.authenticates S wire nonce = none →
      ((s.decrypt S Z wire nonce).1.recvWindow = s.recvWindow ↔
        wire.length < macLen ∨ s.recvWindow.Refuses nonce)) ∧
    (∀ (before : List Packet) (p : Packet), s.genuine S p = true →
      let clean := s.receive S Z (before.filter (s.genuine S))
      let mixed := s.receive S Z before
      (clean.recvWindow.accept p.packetId).2 = true →
        ((mixed.recvWindow.accept p.packetId).2 = true ∧
            (mixed.decrypt S Z p.wire p.packetId).2 = (clean.decrypt S Z p.wire p.packetId).2 ↔
          ∀ f ∈ before, s.genuine S f = false → f.tagged = true →
            f.packetId ≠ p.packetId ∧ f.packetId.toNat < p.packetId.toNat+windowSize)) := by
  constructor
  · intro wire nonce _
    exact s.decrypt_window_unchanged S Z wire nonce
  · intro before p _ clean mixed hclean
    have hfree := (NonceWindow.accept_result_true _ _).mp hclean
    have hiff := s.survives_forgeries S Z before p.packetId hfree
    have hkey : mixed.recvKey = clean.recvKey := by
      show (s.receive S Z before).recvKey = (s.receive S Z (before.filter (s.genuine S))).recvKey
      rw [NoiseSession.receive_window,NoiseSession.receive_window]
    rw [NonceWindow.accept_result_true]
    constructor
    · rintro ⟨hmixed,_⟩ f hf hg ht
      have hc := hiff.mp hmixed f hf hg ht
      unfold Covers at hc
      refine ⟨fun he => hc (Or.inl (by rw [he])),?_⟩
      omega
    · intro hall
      have hmixed := hiff.mpr (fun f hf hg ht hc => by
        obtain ⟨hne,hlt⟩ := hall f hf hg ht
        rcases hc with hc | hc
        · exact hne (UInt64.toNat_inj.mp hc.symm)
        · omega)
      exact ⟨hmixed,NoiseSession.decrypt_same hkey hmixed hfree⟩

def sampleSession : NoiseSession where
  sendKey := Block.ofBytes 32 [1]
  recvKey := Block.ofBytes 32 [2]
  handshakeHash := Block.zero 32

def samplePacket (nonce : UInt64) (text : Bytes) : Packet where
  wire := flagRaw :: text ++ sampleTag sampleSession.recvKey (nonce12 nonce)
  packetId := nonce

/-- Sixteen zero bytes under the highest packet id there is. -/
def sampleForgery : Packet := ⟨List.replicate 16 0,0xFFFFFFFFFFFFFFFF⟩

theorem forged_packets_window_short :
    (sampleSession.authenticates Sodium.sample [1,2,3] 7 = none ∧
      (sampleSession.decrypt Sodium.sample Zstd.sample [1,2,3] 7).1.recvWindow =
        sampleSession.recvWindow) ∧
    sampleSession.genuine Sodium.sample (samplePacket 2 [9]) = true ∧
    ((sampleSession.receive Sodium.sample Zstd.sample [samplePacket 1 [8],⟨[],2⟩]).decrypt
      Sodium.sample Zstd.sample (samplePacket 2 [9]).wire 2).2 = [9] := by
  have h := forged_packets_window Sodium.sample Zstd.sample sampleSession
  have hshort := (h.1 [1,2,3] 7 (by decide +kernel)).mpr (Or.inl (by decide))
  have hlate := (h.2 [samplePacket 1 [8],⟨[],2⟩] (samplePacket 2 [9]) (by decide +kernel)
    (by decide +kernel)).mpr (by decide +kernel)
  exact ⟨⟨by decide +kernel,hshort⟩,by decide +kernel,hlate.2.trans (by decide +kernel)⟩

/-- The forgery fails its tag check, moves the window all the way up, and the genuine
packet that would have been read is dropped. -/
theorem forged_packet_shuts_out_genuine :
    sampleSession.authenticates Sodium.sample sampleForgery.wire sampleForgery.packetId = none ∧
    (sampleSession.decrypt Sodium.sample Zstd.sample sampleForgery.wire
      sampleForgery.packetId).1.recvWindow ≠ sampleSession.recvWindow ∧
    sampleSession.genuine Sodium.sample (samplePacket 1 [9]) = true ∧
    (sampleSession.decrypt Sodium.sample Zstd.sample (samplePacket 1 [9]).wire 1).2 = [9] ∧
    ((sampleSession.receive Sodium.sample Zstd.sample [sampleForgery]).decrypt
      Sodium.sample Zstd.sample (samplePacket 1 [9]).wire 1).2 = [] := by
  decide +kernel

end GoodNet
