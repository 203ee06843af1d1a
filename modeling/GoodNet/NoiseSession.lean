import GoodNet.SodiumPrimitives
import GoodNet.NonceWindow
set_option autoImplicit false

/-! `NoiseSession` of `core/types/connection.hpp` and `core/cm/transport.cpp`: the
transport keys of one connection and the body format under the AEAD. -/

namespace GoodNet
open Codec

def flagRaw : UInt8 := 0x00
def flagZstd : UInt8 := 0x01

/-- Largest original size `decrypt` is willing to allocate for. -/
def maxOrigSize : Nat := 128*1024*1024

structure NoiseSession where
  sendKey : Key
  recvKey : Key
  handshakeHash : Key
  recvWindow : NonceWindow := {}
  deriving DecidableEq, Repr

structure Compression where
  enabled : Bool := true
  threshold : Int := 512
  level : Int := 1
  deriving DecidableEq, Repr

/-- `static_cast<size_t>` of the configured `int`. -/
def sizeCast (n : Int) : Nat := (n % 2^64).toNat

/-- The compressed image, when compression is on, worth it and shorter. -/
def compressed (Z : Zstd) (c : Compression) (plain : Bytes) : Option Bytes :=
  if c.enabled && decide (sizeCast c.threshold < plain.length) then
    match Z.compress c.level plain with
    | none => none
    | some out => if out.length < plain.length then some out else none
  else none

/-- Flag byte, original size if compressed, data. -/
def sessionBody (Z : Zstd) (c : Compression) (plain : Bytes) : Bytes :=
  match compressed Z c plain with
  | some out => flagZstd :: (leBytes 4 plain.length ++ out)
  | none => flagRaw :: plain

def NoiseSession.encrypt (S : Sodium) (Z : Zstd) (s : NoiseSession) (plain : Bytes)
    (nonce : UInt64) (c : Compression) : Bytes :=
  (S.aeadEncrypt s.sendKey (nonce12 nonce) [] (sessionBody Z c plain)).getD []

/-- What `decrypt` makes of an authenticated body; the empty list is its only error. -/
def openBody (Z : Zstd) (body : Bytes) : Bytes :=
  match body with
  | [] => []
  | flags :: payload =>
    if flags = flagRaw then payload
    else if flags = flagZstd then
      if payload.length < 4 then []
      else
        let origSize := leNat (payload.take 4)
        if origSize = 0 ∨ maxOrigSize < origSize then []
        else (Z.decompress origSize (payload.drop 4)).getD []
    else []

/-- The tag check alone, at the nonce a header names. -/
def NoiseSession.authenticates (S : Sodium) (s : NoiseSession) (wire : Bytes)
    (nonce : UInt64) : Option Bytes :=
  if wire.length < macLen then none else S.aeadDecrypt s.recvKey (nonce12 nonce) [] wire

/-- The window is consulted, and moved, before the tag is checked. -/
def NoiseSession.decrypt (S : Sodium) (Z : Zstd) (s : NoiseSession) (wire : Bytes)
    (nonce : UInt64) : NoiseSession × Bytes :=
  if wire.length < macLen then (s,[])
  else
    let w := s.recvWindow.accept nonce
    if !w.2 then ({ s with recvWindow := w.1 },[])
    else
      match S.aeadDecrypt s.recvKey (nonce12 nonce) [] wire with
      | none => ({ s with recvWindow := w.1 },[])
      | some body => ({ s with recvWindow := w.1 },openBody Z body)

/-- The window step of `decrypt`: a packet below the tag size never reaches it. -/
def NoiseSession.windowAfter (s : NoiseSession) (wire : Bytes) (nonce : UInt64) : NonceWindow :=
  if wire.length < macLen then s.recvWindow else (s.recvWindow.accept nonce).1

theorem NoiseSession.decrypt_session (S : Sodium) (Z : Zstd) (s : NoiseSession) (wire : Bytes)
    (nonce : UInt64) :
    (s.decrypt S Z wire nonce).1 = { s with recvWindow := s.windowAfter wire nonce } := by
  unfold decrypt windowAfter
  by_cases hs : wire.length < macLen
  · simp [hs]
  · by_cases ha : (s.recvWindow.accept nonce).2
    · cases hd : S.aeadDecrypt s.recvKey (nonce12 nonce) [] wire with
      | none => simp [hs,ha]
      | some body => simp [hs,ha]
    · simp [hs,ha]

/-- Inversion of a successful call: everything that had to hold. -/
theorem NoiseSession.decrypt_nonempty {S : Sodium} {Z : Zstd} {s : NoiseSession} {wire : Bytes}
    {nonce : UInt64} (h : (s.decrypt S Z wire nonce).2 ≠ []) :
    ∃ body, s.authenticates S wire nonce = some body ∧
      (s.decrypt S Z wire nonce).2 = openBody Z body ∧ ¬ s.recvWindow.Refuses nonce ∧
      macLen ≤ wire.length := by
  unfold decrypt at h ⊢
  unfold authenticates
  by_cases hs : wire.length < macLen
  · simp [hs] at h
  · by_cases ha : (s.recvWindow.accept nonce).2
    · have hr : ¬ s.recvWindow.Refuses nonce := by
        intro hr
        rw [NonceWindow.accept_refused hr] at ha
        simp at ha
      cases hd : S.aeadDecrypt s.recvKey (nonce12 nonce) [] wire with
      | none => simp [hs,ha,hd] at h
      | some body => exact ⟨body,by simp [hs],by simp [hs,ha],hr,by omega⟩
    · simp [hs,ha] at h

/-- Apart from the window, the outcome depends on the keys only. -/
theorem NoiseSession.decrypt_out {S : Sodium} {Z : Zstd} {s : NoiseSession} {wire : Bytes}
    {nonce : UInt64} {body : Bytes} (ha : s.authenticates S wire nonce = some body) :
    (s.decrypt S Z wire nonce).2 =
      if (s.recvWindow.accept nonce).2 then openBody Z body else [] := by
  unfold authenticates at ha
  unfold decrypt
  by_cases hs : wire.length < macLen
  · simp [hs] at ha
  · simp only [hs,ite_false] at ha
    by_cases hw : (s.recvWindow.accept nonce).2
    · simp [hs,hw,ha]
    · simp [hs,hw]

end GoodNet
