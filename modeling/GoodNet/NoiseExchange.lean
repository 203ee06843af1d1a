import GoodNet.NoiseFacts
set_option autoImplicit false

/-! An exchange between two honest parties succeeds: each message is read with the payload
it was written with, and the two states stay in step. -/

namespace GoodNet.Noise
open Codec

section
variable {S : Sodium}

/-- What one side seals the other side opens, when their symmetric states agree. -/
theorem SymmetricState.open_sealed (L : S.Seals) (s : SymmetricState) (plain : Bytes) :
    ∃ s' c, s.encryptAndHash S plain = some (s',c) ∧ s.decryptAndHash S c = ⟨true,s',plain⟩ ∧
      c.length = plain.length+(if s.cipher.hasKey then macLen else 0) ∧
      s'.cipher.hasKey = s.cipher.hasKey := by
  cases hk : s.cipher.hasKey with
  | false =>
    refine ⟨s.mixHash S plain,plain,?_,?_,rfl,hk⟩
    · simp [encryptAndHash,CipherState.encrypt,hk]
    · simp [decryptAndHash,CipherState.decrypt,hk]
  | true =>
    obtain ⟨c,hseal,hopen⟩ := L s.cipher.key (nonce12 s.cipher.nonce) s.h.bytes plain
    have hlen := S.aeadDecrypt_length _ _ _ _ _ hopen
    have hlong : ¬ c.length < macLen := by omega
    refine ⟨({ s with cipher := { s.cipher with nonce := s.cipher.nonce+1 } } :
      SymmetricState).mixHash S c,c,?_,?_,hlen.symm,hk⟩
    · simp [encryptAndHash,CipherState.encrypt,hk,hseal]
    · simp [decryptAndHash,CipherState.decrypt,hk,hlong,hopen]

/-- The state with which a payload, or a static key, leaves the sequence of tokens. -/
def HandshakeState.advance (sym : SymmetricState) (hs : HandshakeState) : HandshakeState :=
  { hs with symmetric := sym, step := hs.step+1 }

theorem HandshakeState.writePayload_sealed {hs : HandshakeState} {sym : SymmetricState}
    {payload c : Bytes} (h : hs.symmetric.encryptAndHash S payload = some (sym,c)) (sent : Bytes) :
    hs.writePayload S sent payload = ⟨true,hs.advance sym,sent ++ c⟩ := by
  unfold writePayload
  rw [h]
  rfl

theorem HandshakeState.readPayload_opened {hs : HandshakeState} {sym : SymmetricState}
    {payload c : Bytes} (h : hs.symmetric.decryptAndHash S c = ⟨true,sym,payload⟩)
    (rsOut : Bytes) : hs.readPayload S rsOut c = ⟨true,hs.advance sym,payload,rsOut⟩ := by
  unfold readPayload
  rw [h]
  rfl

/-- The static key of the other side as `readStatic` stores it. -/
def HandshakeState.learn (sym : SymmetricState) (k : Key) (hs : HandshakeState) : HandshakeState :=
  { hs with symmetric := sym, rs := k }

theorem HandshakeState.readStatic_opened {hs : HandshakeState} {sym : SymmetricState}
    {k : Key} {c : Bytes} (h : hs.symmetric.decryptAndHash S c = ⟨true,sym,k.bytes⟩) :
    hs.readStatic S c = ⟨true,hs.learn sym k,k.bytes⟩ := by
  unfold readStatic
  rw [h]
  dsimp only
  rw [Block.ofBytes_append]
  rfl

/-- Two states of one exchange: the same transcript and keys that belong together. -/
structure Met (S : Sodium) (step : Nat) (hi hr : HandshakeState) : Prop where
  symmetric : hi.symmetric = hr.symmetric
  stepI : hi.step = step
  stepR : hr.step = step
  dials : hi.initiator = true
  answers : hr.initiator = false
  staticI : hi.sPk = S.scalarmultBase hi.sSk
  staticR : hr.sPk = S.scalarmultBase hr.sSk

theorem met_init {pkI skI pkR skR : Key} (hI : pkI = S.scalarmultBase skI)
    (hR : pkR = S.scalarmultBase skR) :
    Met S 0 (HandshakeState.init S true pkI skI) (HandshakeState.init S false pkR skR) :=
  ⟨rfl,rfl,rfl,rfl,rfl,hI,hR⟩

/-- The first message is under way: the responder will know the ephemeral key. -/
structure Greets (S : Sodium) (hi hr : HandshakeState) (msg : Bytes) : Prop where
  role : hr.initiator = false
  ok : (hr.readMessage S msg).ok = true
  met : Met S 1 hi (hr.readMessage S msg).state
  ephemeral : (hr.readMessage S msg).state.re = S.scalarmultBase hi.eSk
  same : (hr.readMessage S msg).state.sPk = hr.sPk

/-- The second one: the initiator will know both keys and the payload. -/
structure Answers (S : Sodium) (hi hr : HandshakeState) (msg payload : Bytes) : Prop where
  role : hi.initiator = true
  ok : (hi.readMessage S msg).ok = true
  met : Met S 2 (hi.readMessage S msg).state hr
  ephemeral : (hi.readMessage S msg).state.re = S.scalarmultBase hr.eSk
  static : (hi.readMessage S msg).state.rs = hr.sPk
  payload : (hi.readMessage S msg).payloadOut = payload
  same : (hi.readMessage S msg).state.sPk = hi.sPk
  keyed : hr.symmetric.cipher.hasKey = true

/-- The third one: the responder will know the static key and the payload. -/
structure Concludes (S : Sodium) (hr : HandshakeState) (static : Key) (msg payload : Bytes) :
    Prop where
  role : hr.initiator = false
  ok : (hr.readMessage S msg).ok = true
  static : (hr.readMessage S msg).state.rs = static
  payload : (hr.readMessage S msg).payloadOut = payload

/-- The ephemeral key in front of a message, as the reader takes it. -/
def HandshakeState.hear (S : Sodium) (e : Key) (hs : HandshakeState) : HandshakeState :=
  ({ hs with re := e } : HandshakeState).mixHash S e.bytes

theorem HandshakeState.readEphemeral_eq (hs : HandshakeState) (e : Key) (rest : Bytes) :
    hs.readEphemeral S (e.bytes ++ rest) = hs.hear S e := by
  unfold readEphemeral
  dsimp only
  rw [Block.ofBytes_append]
  rfl

theorem HandshakeState.readTokens_first {hs : HandshakeState} (h : hs.step = 0) (e : Key)
    (rest : Bytes) :
    hs.readTokens S (e.bytes ++ rest) = { ok := true, state := hs.hear S e, rest := rest } := by
  have hlen : ¬ (e.bytes ++ rest).length < dhLen := by simp [dhLen]
  have hrest : (e.bytes ++ rest).drop dhLen = rest := e.drop_bytes rest
  simp only [readTokens,h,hlen,ite_false,readEphemeral_eq,hrest]

theorem HandshakeState.readTokens_second {hs : HandshakeState} {e ee es k : Key}
    {sym : SymmetricState} {c : Bytes} (h : hs.step = 1)
    (hee : S.scalarmult hs.eSk e = some ee) (hc : c.length = sEncLen)
    (ho : ((hs.hear S e).mixKey S ee).symmetric.decryptAndHash S c = ⟨true,sym,k.bytes⟩)
    (hes : (((hs.hear S e).mixKey S ee).learn sym k).dhEs S = some es) (rest : Bytes) :
    hs.readTokens S (e.bytes ++ (c ++ rest)) =
      { ok := true, state := (((hs.hear S e).mixKey S ee).learn sym k).mixKey S es,
        rsOut := k.bytes, rest := rest } := by
  have hlen : ¬ (e.bytes ++ (c ++ rest)).length < dhLen := by simp [dhLen]
  have hlen' : ¬ (e.bytes ++ (c ++ rest)).length < dhLen+sEncLen := by simp [dhLen,hc]
  have hdrop : (e.bytes ++ (c ++ rest)).drop dhLen = c ++ rest := e.drop_bytes (c ++ rest)
  have htake : (c ++ rest).take sEncLen = c := by rw [← hc,List.take_left]
  have hrest : (e.bytes ++ (c ++ rest)).drop (dhLen+sEncLen) = rest := by
    rw [← List.drop_drop,hdrop,← hc,List.drop_left]
  have hre : (hs.hear S e).re = e := rfl
  have hek : (hs.hear S e).eSk = hs.eSk := rfl
  simp only [readTokens,h,hlen,hlen',ite_false,readEphemeral_eq,hre,hek,hee,hdrop,htake,
    readStatic_opened ho,Bool.not_true,Bool.false_eq_true,hes,hrest]

/-- The second message as its writer builds it, when no token fails. -/
theorem HandshakeState.writeMessage_second {hs spoken : HandshakeState} {secret ee es : Key}
    {sym : SymmetricState} {c : Bytes} (h : hs.step = 1) (hee : S.scalarmult secret hs.re = some ee)
    (hspoken : spoken =
      ((hs.generateKeypair S secret).mixHash S (S.scalarmultBase secret).bytes).mixKey S ee)
    (hc : spoken.symmetric.encryptAndHash S hs.sPk.bytes = some (sym,c))
    (hes : ({ spoken with symmetric := sym } : HandshakeState).dhEs S = some es) (payload : Bytes) :
    hs.writeMessage S secret payload =
      (({ spoken with symmetric := sym } : HandshakeState).mixKey S es).writePayload S
        ((S.scalarmultBase secret).bytes ++ c) payload := by
  subst hspoken
  have hpk : (hs.generateKeypair S secret).ePk = S.scalarmultBase secret := rfl
  have hek : ((hs.generateKeypair S secret).mixHash S (S.scalarmultBase secret).bytes).eSk =
      secret := rfl
  have hre : ((hs.generateKeypair S secret).mixHash S (S.scalarmultBase secret).bytes).re =
      hs.re := rfl
  have hstatic : (((hs.generateKeypair S secret).mixHash S
      (S.scalarmultBase secret).bytes).mixKey S ee).sPk = hs.sPk := rfl
  rw [← hstatic] at hc
  simp only [writeMessage,h,hpk,hek,hre,hee,hc,hes]
  rfl

theorem HandshakeState.readTokens_third {hs : HandshakeState} {se k : Key}
    {sym : SymmetricState} {c : Bytes} (h : hs.step = 2) (hc : c.length = sEncLen)
    (ho : hs.symmetric.decryptAndHash S c = ⟨true,sym,k.bytes⟩)
    (hse : (hs.learn sym k).dhSe S = some se) (rest : Bytes) :
    hs.readTokens S (c ++ rest) =
      { ok := true, state := (hs.learn sym k).mixKey S se, rsOut := k.bytes, rest := rest } := by
  have hlen : ¬ (c ++ rest).length < sEncLen := by simp [hc]
  have htake : (c ++ rest).take sEncLen = c := by rw [← hc,List.take_left]
  have hrest : (c ++ rest).drop sEncLen = rest := by rw [← hc,List.drop_left]
  simp only [readTokens,h,hlen,ite_false,htake,readStatic_opened ho,Bool.not_true,
    Bool.false_eq_true,hse,hrest]

theorem HandshakeState.readMessage_opened {hs st : HandshakeState} {msg rsOut rest payload : Bytes}
    {sym : SymmetricState}
    (ht : hs.readTokens S msg = { ok := true, state := st, rsOut := rsOut, rest := rest })
    (ho : st.symmetric.decryptAndHash S rest = ⟨true,sym,payload⟩) :
    hs.readMessage S msg = ⟨true,st.advance sym,payload,rsOut⟩ := by
  unfold readMessage
  rw [ht]
  exact readPayload_opened ho rsOut

theorem first_message (L : S.Seals) {hi hr : HandshakeState} (h : Met S 0 hi hr)
    (hk : hr.symmetric.cipher.hasKey = false) (secret : Key) (payload : Bytes) :
    (hi.writeMessage S secret payload).ok = true ∧
      Greets S (hi.writeMessage S secret payload).state hr (hi.writeMessage S secret payload).out ∧
      (hi.writeMessage S secret payload).out.length = dhLen+payload.length ∧
      (hi.writeMessage S secret payload).state.sPk = hi.sPk ∧
      (hr.readMessage S (hi.writeMessage S secret payload).out).payloadOut = payload := by
  obtain ⟨hsym,hi0,hr0,hd,ha,hpi,hpr⟩ := h
  obtain ⟨sym,c,hseal,hopen,hlen,_⟩ := SymmetricState.open_sealed L
    (hr.hear S (S.scalarmultBase secret)).symmetric payload
  have hw : hi.writeMessage S secret payload = ⟨true,
      ((hi.generateKeypair S secret).mixHash S (S.scalarmultBase secret).bytes).advance sym,
      (S.scalarmultBase secret).bytes ++ c⟩ := by
    unfold HandshakeState.writeMessage
    rw [hi0]
    refine HandshakeState.writePayload_sealed ?_ _
    simpa [HandshakeState.hear,HandshakeState.mixHash,HandshakeState.generateKeypair,hsym] using hseal
  have hread := HandshakeState.readMessage_opened
    (HandshakeState.readTokens_first hr0 (S.scalarmultBase secret) c) hopen
  rw [hw]
  refine ⟨rfl,⟨ha,?_,?_,?_,?_⟩,?_,rfl,?_⟩
  · rw [hread]
  · rw [hread]
    exact ⟨rfl,by simp [HandshakeState.advance,HandshakeState.mixHash,
      HandshakeState.generateKeypair,hi0],by simp [HandshakeState.advance,HandshakeState.hear,
      HandshakeState.mixHash,hr0],hd,ha,hpi,hpr⟩
  · rw [hread]
    rfl
  · rw [hread]
    rfl
  · have hplain : (hr.hear S (S.scalarmultBase secret)).symmetric.cipher.hasKey = false := hk
    simp [hlen,hplain,dhLen]
  · rw [hread]

theorem second_message (L : S.Seals) {hi hr : HandshakeState} (h : Met S 1 hi hr)
    (he : hr.re = S.scalarmultBase hi.eSk) (secret : Key)
    (hdee : ∃ ee, S.scalarmult secret (S.scalarmultBase hi.eSk) = some ee ∧
      S.scalarmult hi.eSk (S.scalarmultBase secret) = some ee)
    (hdes : ∃ es, S.scalarmult hr.sSk (S.scalarmultBase hi.eSk) = some es ∧
      S.scalarmult hi.eSk (S.scalarmultBase hr.sSk) = some es) (payload : Bytes) :
    (hr.writeMessage S secret payload).ok = true ∧
      Answers S hi (hr.writeMessage S secret payload).state
        (hr.writeMessage S secret payload).out payload ∧
      (hr.writeMessage S secret payload).out.length = dhLen+sEncLen+(payload.length+macLen) ∧
      (hr.writeMessage S secret payload).state.sPk = hr.sPk := by
  obtain ⟨hsym,hi1,hr1,hd,ha,hpi,hpr⟩ := h
  obtain ⟨ee,hee,hee'⟩ := hdee
  obtain ⟨es,hes,hes'⟩ := hdes
  let heard := (hi.hear S (S.scalarmultBase secret)).mixKey S ee
  obtain ⟨sym,c,hseal,hopen,hlen,_⟩ := SymmetricState.open_sealed L heard.symmetric hr.sPk.bytes
  obtain ⟨sym',c',hseal',hopen',hlen',hkeyed⟩ := SymmetricState.open_sealed L
    ((heard.learn sym hr.sPk).mixKey S es).symmetric payload
  have hc : c.length = sEncLen := by
    rw [hlen]
    exact congrArg (· + macLen) hr.sPk.length_bytes
  let spoken := ((hr.generateKeypair S secret).mixHash S (S.scalarmultBase secret).bytes).mixKey S ee
  have hspoken : spoken.symmetric = heard.symmetric := by
    show ((hr.symmetric.mixHash S _).mixKey S ee) = ((hi.symmetric.mixHash S _).mixKey S ee)
    rw [hsym]
  have hdhw : ({ spoken with symmetric := sym } : HandshakeState).dhEs S = some es := by
    have hrole : ¬ ({ spoken with symmetric := sym } : HandshakeState).initiator = true := by
      show ¬ hr.initiator = true
      simp [ha]
    unfold HandshakeState.dhEs
    rw [if_neg hrole]
    show S.scalarmult hr.sSk hr.re = some es
    rw [he]
    exact hes
  have hw : hr.writeMessage S secret payload = ⟨true,
      (({ spoken with symmetric := sym } : HandshakeState).mixKey S es).advance sym',
      ((S.scalarmultBase secret).bytes ++ c) ++ c'⟩ := by
    have hek : S.scalarmult secret hr.re = some ee := by rw [he]; exact hee
    have hpay : (({ spoken with symmetric := sym } : HandshakeState).mixKey S es).symmetric =
        ((heard.learn sym hr.sPk).mixKey S es).symmetric := rfl
    rw [← hpay] at hseal'
    have hlast := HandshakeState.writePayload_sealed hseal' ((S.scalarmultBase secret).bytes ++ c)
    have hfirst : spoken.symmetric.encryptAndHash S hr.sPk.bytes = some (sym,c) := by
      rw [hspoken]
      exact hseal
    rw [HandshakeState.writeMessage_second hr1 hek rfl hfirst hdhw payload]
    exact hlast
  have hdhr : (heard.learn sym hr.sPk).dhEs S = some es := by
    unfold HandshakeState.dhEs
    rw [if_pos (by exact hd)]
    show S.scalarmult hi.eSk hr.sPk = some es
    rw [hpr]
    exact hes'
  have hread := HandshakeState.readMessage_opened
    (HandshakeState.readTokens_second hi1 hee' hc hopen hdhr c') hopen'
  rw [hw]
  dsimp only
  rw [List.append_assoc]
  refine ⟨rfl,⟨hd,?_,?_,?_,?_,?_,?_,hkeyed⟩,?_,rfl⟩
  · rw [hread]
  · rw [hread]
    refine ⟨rfl,?_,?_,hd,ha,hpi,hpr⟩
    · show hi.step+1 = 2
      rw [hi1]
    · show hr.step+1 = 2
      rw [hr1]
  · rw [hread]
    rfl
  · rw [hread]
    rfl
  · rw [hread]
  · rw [hread]
    rfl
  · have hkey : ((heard.learn sym hr.sPk).mixKey S es).symmetric.cipher.hasKey = true := rfl
    rw [hkey] at hlen'
    simp only [List.length_append,Block.length_bytes,hc,hlen',ite_true,dhLen]
    omega

theorem third_message (L : S.Seals) {hi hr : HandshakeState} (h : Met S 2 hi hr)
    (he : hi.re = S.scalarmultBase hr.eSk) (hk : hr.symmetric.cipher.hasKey = true)
    (hdse : ∃ se, S.scalarmult hi.sSk (S.scalarmultBase hr.eSk) = some se ∧
      S.scalarmult hr.eSk (S.scalarmultBase hi.sSk) = some se) (secret : Key) (payload : Bytes) :
    (hi.writeMessage S secret payload).ok = true ∧
      Concludes S hr hi.sPk (hi.writeMessage S secret payload).out payload ∧
      (hi.writeMessage S secret payload).out.length = sEncLen+(payload.length+macLen) ∧
      Met S 3 (hi.writeMessage S secret payload).state
        (hr.readMessage S (hi.writeMessage S secret payload).out).state := by
  obtain ⟨hsym,hi2,hr2,hd,ha,hpi,hpr⟩ := h
  obtain ⟨se,hse,hse'⟩ := hdse
  obtain ⟨sym,c,hseal,hopen,hlen,_⟩ := SymmetricState.open_sealed L hr.symmetric hi.sPk.bytes
  obtain ⟨sym',c',hseal',hopen',hlen',_⟩ := SymmetricState.open_sealed L
    ((hr.learn sym hi.sPk).mixKey S se).symmetric payload
  have hc : c.length = sEncLen := by
    rw [hlen,hk]
    exact congrArg (· + macLen) hi.sPk.length_bytes
  have hdhw : ({ hi with symmetric := sym } : HandshakeState).dhSe S = some se := by
    unfold HandshakeState.dhSe
    rw [if_pos (by exact hd)]
    show S.scalarmult hi.sSk hi.re = some se
    rw [he]
    exact hse
  have hdhr : (hr.learn sym hi.sPk).dhSe S = some se := by
    have hrole : ¬ (hr.learn sym hi.sPk).initiator = true := by
      show ¬ hr.initiator = true
      simp [ha]
    unfold HandshakeState.dhSe
    rw [if_neg hrole]
    show S.scalarmult hr.eSk hi.sPk = some se
    rw [hpi]
    exact hse'
  have hw : hi.writeMessage S secret payload = ⟨true,
      (({ hi with symmetric := sym } : HandshakeState).mixKey S se).advance sym',c ++ c'⟩ := by
    have hpay : (({ hi with symmetric := sym } : HandshakeState).mixKey S se).symmetric =
        ((hr.learn sym hi.sPk).mixKey S se).symmetric := rfl
    rw [← hpay] at hseal'
    have hlast := HandshakeState.writePayload_sealed hseal' c
    rw [← hsym] at hseal
    rw [HandshakeState.writeMessage_two secret payload hi2]
    simp only [hseal,hdhw]
    exact hlast
  have hread := HandshakeState.readMessage_opened
    (HandshakeState.readTokens_third hr2 hc hopen hdhr c') hopen'
  rw [hw]
  refine ⟨rfl,⟨ha,?_,?_,?_⟩,?_,?_⟩
  · rw [hread]
  · rw [hread]
    rfl
  · rw [hread]
  · have hkey : ((hr.learn sym hi.sPk).mixKey S se).symmetric.cipher.hasKey = true := rfl
    rw [hkey] at hlen'
    simp only [List.length_append,hc,hlen',ite_true]
  · rw [hread]
    refine ⟨rfl,?_,?_,hd,ha,hpi,hpr⟩
    · show hi.step+1 = 3
      rw [hi2]
    · show hr.step+1 = 3
      rw [hr2]

theorem Met.split_keys {step : Nat} {hi hr : HandshakeState} (h : Met S step hi hr) :
    (hi.split S).1 = (hr.split S).2 ∧ (hi.split S).2 = (hr.split S).1 := by
  unfold HandshakeState.split
  rw [h.symmetric,h.dials,h.answers]
  exact ⟨rfl,rfl⟩

end

/-- What an exchange leaves: the verdicts of the six calls, what was read and both states. -/
structure Exchange where
  verdicts : List Bool
  received : List Bytes
  initiator : HandshakeState
  responder : HandshakeState

/-- Three messages, each written by one side and read by the other. The secrets are what
`write_message` draws; the third message has no use for its one. -/
def exchange (S : Sodium) (hi hr : HandshakeState) (ei er spare : Key) (p1 p2 p3 : Bytes) :
    Exchange :=
  let w1 := hi.writeMessage S ei p1
  let d1 := hr.readMessage S w1.out
  let w2 := d1.state.writeMessage S er p2
  let d2 := w1.state.readMessage S w2.out
  let w3 := d2.state.writeMessage S spare p3
  let d3 := w2.state.readMessage S w3.out
  ⟨[w1.ok,d1.ok,w2.ok,d2.ok,w3.ok,d3.ok],[d1.payloadOut,d2.payloadOut,d3.payloadOut],
    w3.state,d3.state⟩

theorem agreed_secret {S : Sodium} (hdh : S.Commutes) {a b : Key}
    (h : (S.scalarmult a (S.scalarmultBase b)).isSome = true) :
    ∃ k, S.scalarmult a (S.scalarmultBase b) = some k ∧
      S.scalarmult b (S.scalarmultBase a) = some k := by
  obtain ⟨k,hk⟩ := Option.isSome_iff_exists.mp h
  exact ⟨k,hk,by rw [← hdh,hk]⟩

/-- Two honest sides, with any keys whose exchanges succeed and any payloads: every call
succeeds, every payload arrives, and the two sides end with the same transcript, each
other's static key and matching transport keys. -/
theorem exchange_agrees {S : Sodium} (hdh : S.Commutes) (hseal : S.Seals)
    (si sr ei er spare : Key) (p1 p2 p3 : Bytes)
    (hee : (S.scalarmult ei (S.scalarmultBase er)).isSome = true)
    (hes : (S.scalarmult ei (S.scalarmultBase sr)).isSome = true)
    (hse : (S.scalarmult si (S.scalarmultBase er)).isSome = true) :
    let x := exchange S (HandshakeState.init S true (S.scalarmultBase si) si)
      (HandshakeState.init S false (S.scalarmultBase sr) sr) ei er spare p1 p2 p3
    x.verdicts = List.replicate 6 true ∧ x.received = [p1,p2,p3] ∧
      x.initiator.rs = S.scalarmultBase sr ∧ x.responder.rs = S.scalarmultBase si ∧
      x.initiator.step = 3 ∧ x.responder.step = 3 ∧
      x.initiator.symmetric.h = x.responder.symmetric.h ∧
      x.initiator.symmetric.ck = x.responder.symmetric.ck ∧
      (x.initiator.split S).1.key = (x.responder.split S).2.key ∧
      (x.initiator.split S).2.key = (x.responder.split S).1.key := by
  have hmet : Met S 0 (HandshakeState.init S true (S.scalarmultBase si) si)
      (HandshakeState.init S false (S.scalarmultBase sr) sr) := met_init rfl rfl
  generalize hi0 : HandshakeState.init S true (S.scalarmultBase si) si = i0 at hmet
  generalize hr0 : HandshakeState.init S false (S.scalarmultBase sr) sr = r0 at hmet
  have hsi : i0.sSk = si := by rw [← hi0]; rfl
  have hsr : r0.sSk = sr := by rw [← hr0]; rfl
  have hplain : r0.symmetric.cipher.hasKey = false := by rw [← hr0]; rfl
  -- first message: the responder learns the initiator's ephemeral key
  obtain ⟨hw1,hg,_,_,hp1⟩ := first_message hseal hmet hplain ei p1
  obtain ⟨_,hok1,hmet1,hre,_⟩ := hg
  have hwrote1 := (i0.writeMessage_wrote (S := S) ei p1).1
  have hread1 := r0.readMessage_same (S := S) (i0.writeMessage S ei p1).out
  have hei : (i0.writeMessage S ei p1).state.eSk = ei := by
    rw [hwrote1.eSk,hmet.stepI,if_pos (by decide)]
  unfold exchange
  dsimp only
  generalize i0.writeMessage S ei p1 = w1 at *
  generalize r0.readMessage S w1.out = d1 at *
  -- second message: the initiator learns both keys of the responder
  have hdee : ∃ ee, S.scalarmult er (S.scalarmultBase w1.state.eSk) = some ee ∧
      S.scalarmult w1.state.eSk (S.scalarmultBase er) = some ee := by
    rw [hei]
    obtain ⟨k,hk,hk'⟩ := agreed_secret hdh hee
    exact ⟨k,hk',hk⟩
  have hdes : ∃ es, S.scalarmult d1.state.sSk (S.scalarmultBase w1.state.eSk) = some es ∧
      S.scalarmult w1.state.eSk (S.scalarmultBase d1.state.sSk) = some es := by
    rw [hei,hread1.sSk,hsr]
    obtain ⟨k,hk,hk'⟩ := agreed_secret hdh hes
    exact ⟨k,hk',hk⟩
  obtain ⟨hw2,hans,_,_⟩ := second_message hseal hmet1 hre er hdee hdes p2
  obtain ⟨_,hok2,hmet2,hre2,hrs2,hp2,_,hkeyed⟩ := hans
  have hwrote2 := (d1.state.writeMessage_wrote (S := S) er p2).1
  have her : (d1.state.writeMessage S er p2).state.eSk = er := by
    rw [hwrote2.eSk,hmet1.stepR,if_pos (by decide)]
  generalize d1.state.writeMessage S er p2 = w2 at *
  have hread2 := w1.state.readMessage_same (S := S) w2.out
  generalize w1.state.readMessage S w2.out = d2 at *
  -- third message: the responder learns the initiator's static key
  have hsi2 : d2.state.sSk = si := by rw [hread2.sSk,hwrote1.sSk,hsi]
  have hsr2 : w2.state.sSk = sr := by rw [hwrote2.sSk,hread1.sSk,hsr]
  have hdse : ∃ se, S.scalarmult d2.state.sSk (S.scalarmultBase w2.state.eSk) = some se ∧
      S.scalarmult w2.state.eSk (S.scalarmultBase d2.state.sSk) = some se := by
    rw [hsi2,her]
    exact agreed_secret hdh hse
  obtain ⟨hw3,hcon,_,hmet3⟩ := third_message hseal hmet2 hre2 hkeyed hdse spare p3
  have hwrote3 := (d2.state.writeMessage_wrote (S := S) spare p3).1
  generalize d2.state.writeMessage S spare p3 = w3 at *
  obtain ⟨_,hok3,hrs3,hp3⟩ := hcon
  generalize w2.state.readMessage S w3.out = d3 at *
  obtain ⟨hkeys,hkeys'⟩ := hmet3.split_keys
  refine ⟨?_,?_,?_,?_,hmet3.stepI,hmet3.stepR,?_,?_,?_,?_⟩
  · rw [hw1,hok1,hw2,hok2,hw3,hok3]
    rfl
  · rw [hp1,hp2,hp3]
  · rw [hwrote3.rs,hrs2,hmet2.staticR,hsr2]
  · rw [hrs3,hmet2.staticI,hsi2]
  · rw [hmet3.symmetric]
  · rw [hmet3.symmetric]
  · rw [hkeys]
  · rw [hkeys']

/-- The secret keys of a small exchange. -/
def exchangeKey (n : UInt8) : Key := Block.ofBytes 32 (List.replicate 32 n)

def exchangeSide (initiator : Bool) (n : UInt8) : HandshakeState :=
  HandshakeState.init Sodium.sample initiator (Sodium.sample.scalarmultBase (exchangeKey n))
    (exchangeKey n)

theorem exchange_agrees_small :
    (Sodium.sample.Commutes ∧ Sodium.sample.Seals) ∧
      (exchange Sodium.sample (exchangeSide true 1) (exchangeSide false 2) (exchangeKey 3)
        (exchangeKey 4) (exchangeKey 5) [7] [] [8,9]).received = [[7],[],[8,9]] := by
  have h := exchange_agrees Sodium.sample_lawful.commutes Sodium.sample_lawful.seal_open
    (exchangeKey 1) (exchangeKey 2) (exchangeKey 3) (exchangeKey 4) (exchangeKey 5) [7] [] [8,9]
    (by decide +kernel) (by decide +kernel) (by decide +kernel)
  exact ⟨⟨Sodium.sample_lawful.commutes,Sodium.sample_lawful.seal_open⟩,h.2.1⟩

end GoodNet.Noise
