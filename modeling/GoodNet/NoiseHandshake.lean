import GoodNet.SodiumPrimitives
set_option autoImplicit false

/-! `core/crypto/noise.cpp`: Noise_XX_25519_ChaChaPoly_BLAKE2b. A call that fails keeps
the changes it made before the failing token, so every operation returns the state
it leaves behind together with its verdict. -/

namespace GoodNet.Noise
open Codec

def protocolName : Bytes := "Noise_XX_25519_ChaChaPoly_BLAKE2b".toList.map (fun c => UInt8.ofNat c.toNat)

def hash (S : Sodium) (data : Bytes) : Key := S.generichash [] data

def hmacHash (S : Sodium) (key : Key) (data : Bytes) : Key := S.generichash key.bytes data

def hkdf2 (S : Sodium) (ck : Key) (ikm : Bytes) : Key × Key :=
  let temp := hmacHash S ck ikm
  let out1 := hmacHash S temp [0x01]
  let out2 := hmacHash S temp (out1.bytes ++ [0x02])
  (out1,out2)

structure CipherState where
  key : Key := Block.zero 32
  nonce : UInt64 := 0
  hasKey : Bool := false
  deriving DecidableEq, Repr

/-- Verdict, state left behind and bytes stored at `out` by a decrypting call. -/
structure Opened (σ : Type) where
  ok : Bool
  state : σ
  out : Bytes

def CipherState.encrypt (S : Sodium) (c : CipherState) (ad plain : Bytes) :
    Option (CipherState × Bytes) :=
  if !c.hasKey then some (c,plain)
  else
    match S.aeadEncrypt c.key (nonce12 c.nonce) ad plain with
    | none => none
    | some out => some ({ c with nonce := c.nonce+1 },out)

/-- libsodium clears the output buffer when the tag does not verify. -/
def CipherState.decrypt (S : Sodium) (c : CipherState) (ad cipher : Bytes) :
    Opened CipherState :=
  if !c.hasKey then ⟨true,c,cipher⟩
  else if cipher.length < macLen then ⟨false,c,[]⟩
  else
    match S.aeadDecrypt c.key (nonce12 c.nonce) ad cipher with
    | none => ⟨false,c,List.replicate (cipher.length-macLen) 0⟩
    | some out => ⟨true,{ c with nonce := c.nonce+1 },out⟩

structure SymmetricState where
  ck : Key := Block.zero 32
  h : Key := Block.zero 32
  cipher : CipherState := {}
  deriving DecidableEq, Repr

def SymmetricState.init (S : Sodium) (name : Bytes) : SymmetricState :=
  let h := if name.length ≤ hashLen then Block.ofBytes 32 name else hash S name
  { ck := h, h := h, cipher := {} }

def SymmetricState.mixHash (S : Sodium) (s : SymmetricState) (data : Bytes) : SymmetricState :=
  { s with h := hash S (s.h.bytes ++ data) }

def SymmetricState.mixKey (S : Sodium) (s : SymmetricState) (ikm : Key) : SymmetricState :=
  let out := hkdf2 S s.ck ikm.bytes
  { s with ck := out.1, cipher := { key := out.2, nonce := 0, hasKey := true } }

def SymmetricState.encryptAndHash (S : Sodium) (s : SymmetricState) (plain : Bytes) :
    Option (SymmetricState × Bytes) :=
  match s.cipher.encrypt S s.h.bytes plain with
  | none => none
  | some (c,out) => some (({ s with cipher := c } : SymmetricState).mixHash S out,out)

def SymmetricState.decryptAndHash (S : Sodium) (s : SymmetricState) (ciphertext : Bytes) :
    Opened SymmetricState :=
  let d := s.cipher.decrypt S s.h.bytes ciphertext
  if d.ok then ⟨true,({ s with cipher := d.state } : SymmetricState).mixHash S ciphertext,d.out⟩
  else ⟨false,s,d.out⟩

def SymmetricState.split (S : Sodium) (s : SymmetricState) : CipherState × CipherState :=
  let out := hkdf2 S s.ck []
  ({ key := out.1, nonce := 0, hasKey := true },{ key := out.2, nonce := 0, hasKey := true })

structure HandshakeState where
  symmetric : SymmetricState := {}
  sPk : Key := Block.zero 32
  sSk : Key := Block.zero 32
  ePk : Key := Block.zero 32
  eSk : Key := Block.zero 32
  rs : Key := Block.zero 32
  re : Key := Block.zero 32
  initiator : Bool := false
  step : Nat := 0
  deriving DecidableEq, Repr

def HandshakeState.init (S : Sodium) (isInitiator : Bool) (staticPk staticSk : Key) :
    HandshakeState :=
  { symmetric := SymmetricState.init S protocolName, sPk := staticPk, sSk := staticSk,
    initiator := isInitiator, step := 0 }

def HandshakeState.mixHash (S : Sodium) (hs : HandshakeState) (data : Bytes) : HandshakeState :=
  { hs with symmetric := hs.symmetric.mixHash S data }

def HandshakeState.mixKey (S : Sodium) (hs : HandshakeState) (ikm : Key) : HandshakeState :=
  { hs with symmetric := hs.symmetric.mixKey S ikm }

/-- `generate_keypair(e_pk, e_sk)`, with the random secret drawn by the caller. -/
def HandshakeState.generateKeypair (S : Sodium) (hs : HandshakeState) (secret : Key) :
    HandshakeState :=
  { hs with ePk := S.scalarmultBase secret, eSk := secret }

/-- The `es` secret: initiator ephemeral with responder static, by role. -/
def HandshakeState.dhEs (S : Sodium) (hs : HandshakeState) : Option Key :=
  if hs.initiator then S.scalarmult hs.eSk hs.rs else S.scalarmult hs.sSk hs.re

/-- The `se` secret: initiator static with responder ephemeral, by role. -/
def HandshakeState.dhSe (S : Sodium) (hs : HandshakeState) : Option Key :=
  if hs.initiator then S.scalarmult hs.sSk hs.re else S.scalarmult hs.eSk hs.rs

structure Written where
  ok : Bool
  state : HandshakeState
  out : Bytes
  deriving DecidableEq, Repr

/-- The final token of every message: the payload, and the step counter on success. -/
def HandshakeState.writePayload (S : Sodium) (hs : HandshakeState) (sent payload : Bytes) :
    Written :=
  match hs.symmetric.encryptAndHash S payload with
  | none => ⟨false,hs,[]⟩
  | some (sym,c) => ⟨true,{ hs with symmetric := sym, step := hs.step+1 },sent ++ c⟩

def HandshakeState.writeMessage (S : Sodium) (hs : HandshakeState) (secret : Key)
    (payload : Bytes) : Written :=
  match hs.step with
  | 0 =>
    let hs := hs.generateKeypair S secret
    let hs := hs.mixHash S hs.ePk.bytes
    hs.writePayload S hs.ePk.bytes payload
  | 1 =>
    let hs := hs.generateKeypair S secret
    let hs := hs.mixHash S hs.ePk.bytes
    match S.scalarmult hs.eSk hs.re with
    | none => ⟨false,hs,[]⟩
    | some ee =>
      let hs := hs.mixKey S ee
      match hs.symmetric.encryptAndHash S hs.sPk.bytes with
      | none => ⟨false,hs,[]⟩
      | some (sym,s) =>
        let hs := { hs with symmetric := sym }
        match hs.dhEs S with
        | none => ⟨false,hs,[]⟩
        | some es => (hs.mixKey S es).writePayload S (hs.ePk.bytes ++ s) payload
  | 2 =>
    match hs.symmetric.encryptAndHash S hs.sPk.bytes with
    | none => ⟨false,hs,[]⟩
    | some (sym,s) =>
      let hs := { hs with symmetric := sym }
      match hs.dhSe S with
      | none => ⟨false,hs,[]⟩
      | some se => (hs.mixKey S se).writePayload S s payload
  | _ => ⟨false,hs,[]⟩

/-- `payloadOut` and `rsOut` are the bytes the call stored through its output pointer
and into the `rs` array. -/
structure Read where
  ok : Bool
  state : HandshakeState
  payloadOut : Bytes
  rsOut : Bytes
  deriving DecidableEq, Repr

def HandshakeState.readPayload (S : Sodium) (hs : HandshakeState) (rsOut cipher : Bytes) : Read :=
  let d := hs.symmetric.decryptAndHash S cipher
  if d.ok then ⟨true,{ hs with symmetric := d.state, step := hs.step+1 },d.out,rsOut⟩
  else ⟨false,hs,d.out,rsOut⟩

/-- Length of the encrypted static key on the wire. -/
def sEncLen : Nat := dhLen+macLen

/-- The `s` token when reading: decrypt into `rs`. Only 32 bytes of `rs` exist, what
is stored beyond them is recorded in `rsOut` alone. -/
def HandshakeState.readStatic (S : Sodium) (hs : HandshakeState) (cipher : Bytes) :
    Opened HandshakeState :=
  let d := hs.symmetric.decryptAndHash S cipher
  ⟨d.ok,{ hs with symmetric := d.state,
                  rs := Block.ofBytes 32 (d.out ++ hs.rs.bytes.drop d.out.length) },d.out⟩

/-- The `e` token when reading: the remote ephemeral travels in clear. -/
def HandshakeState.readEphemeral (S : Sodium) (hs : HandshakeState) (msg : Bytes) :
    HandshakeState :=
  let re := Block.ofBytes 32 msg
  ({ hs with re := re } : HandshakeState).mixHash S re.bytes

/-- The tokens in front of the payload: verdict, state left behind, bytes stored in `rs`
and the part of the message that is left for the payload. -/
structure Tokens where
  ok : Bool
  state : HandshakeState
  rsOut : Bytes := []
  rest : Bytes := []

def HandshakeState.readTokens (S : Sodium) (hs : HandshakeState) (msg : Bytes) : Tokens :=
  match hs.step with
  | 0 =>
    if msg.length < dhLen then { ok := false, state := hs }
    else { ok := true, state := hs.readEphemeral S msg, rest := msg.drop dhLen }
  | 1 =>
    if msg.length < dhLen then { ok := false, state := hs }
    else
      let hs := hs.readEphemeral S msg
      match S.scalarmult hs.eSk hs.re with
      | none => { ok := false, state := hs }
      | some ee =>
        let hs := hs.mixKey S ee
        if msg.length < dhLen+sEncLen then { ok := false, state := hs }
        else
          let d := hs.readStatic S ((msg.drop dhLen).take sEncLen)
          if !d.ok then { ok := false, state := d.state, rsOut := d.out }
          else
            match d.state.dhEs S with
            | none => { ok := false, state := d.state, rsOut := d.out }
            | some es =>
              { ok := true, state := d.state.mixKey S es, rsOut := d.out,
                rest := msg.drop (dhLen+sEncLen) }
  | 2 =>
    if msg.length < sEncLen then { ok := false, state := hs }
    else
      let d := hs.readStatic S (msg.take sEncLen)
      if !d.ok then { ok := false, state := d.state, rsOut := d.out }
      else
        match d.state.dhSe S with
        | none => { ok := false, state := d.state, rsOut := d.out }
        | some se =>
          { ok := true, state := d.state.mixKey S se, rsOut := d.out, rest := msg.drop sEncLen }
  | _ => { ok := false, state := hs }

def HandshakeState.readMessage (S : Sodium) (hs : HandshakeState) (msg : Bytes) : Read :=
  let t := hs.readTokens S msg
  if t.ok then t.state.readPayload S t.rsOut t.rest else ⟨false,t.state,[],t.rsOut⟩

/-- Transport keys, sending first. The first derived key belongs to the initiator. -/
def HandshakeState.split (S : Sodium) (hs : HandshakeState) : CipherState × CipherState :=
  let c := hs.symmetric.split S
  if hs.initiator then c else (c.2,c.1)

end GoodNet.Noise
