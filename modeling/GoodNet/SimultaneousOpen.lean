import GoodNet.TwoNodes
import GoodNet.Lib.CrossedDials
set_option autoImplicit false

/-! Two nodes that dial each other follow the protocol of crossed dials. -/

namespace GoodNet
open Codec Noise CrossedDials

/-- The end of connection `c` that node `n` has. -/
def endAt (l : Line) (c n : Bool) : End := if c = n then l.near else l.far

/-- What a node holds for an end in a given state. -/
def EndIs (peer : String) (st : Impl) (id : Nat) (hs : HandshakeState) : End → Prop
  | .pending => ∃ r, Held st id r hs
  | .answered => ∃ r, Held st id r hs
  | .up => ∃ r, st.find id = some r ∧ r.established = true ∧ r.peerAuthenticated = true ∧
      r.pkHex = peer
  | .refused => st.find id = none
  | .dropped => st.find id = none

/-- What is on its way between a dialler `me` and the node `you` it dials. -/
def Carries (S : Sodium) (me you : NodeIdentity) (hi hr : HandshakeState)
    (toNear toFar : List Bytes) : Option Message → Prop
  | some .first => toNear = [] ∧ ∃ msg frame, toFar = [frame] ∧
      IsFrame msgTypeNoiseInit msg frame ∧ Greets S hi hr msg ∧
      hi.sPk = me.static S ∧ hr.sPk = you.static S
  | some .second => toFar = [] ∧ ∃ msg payload frame, toNear = [frame] ∧
      IsFrame msgTypeNoiseResp msg frame ∧ Answers S hi hr msg payload ∧
      Introduces S you payload ∧ hi.sPk = me.static S ∧ hr.sPk = you.static S
  | some .third => toNear = [] ∧ ∃ msg payload frame, toFar = [frame] ∧
      IsFrame msgTypeNoiseFin msg frame ∧ Concludes S hr (me.static S) msg payload ∧
      Introduces S me payload
  | none => toNear = [] ∧ toFar = []

/-- The two ends of connection `c` and what is between them. -/
structure LineIs (P : Setting) (net : Net) (c : Bool) (l : Line) (hi hr : HandshakeState) : Prop where
  near : EndIs (P.peerHex c) (net.node c) (P.id c c) hi l.near
  far : EndIs (P.peerHex (!c)) (net.node (!c)) (P.id c (!c)) hr l.far
  flight : Carries P.sodium (P.identity c) (P.identity (!c)) hi hr (net.flight c c)
    (net.flight c (!c)) l.flight
  tellNear : net.notice c c = l.tellNear
  tellFar : net.notice c (!c) = l.tellFar

/-- The connection under which node `n` knows its peer. -/
def knownAs (P : Setting) (s : Pair) (n : Bool) : Option Nat :=
  if (s n).near = .up then some (P.id n n)
  else if (s (!n)).far = .up then some (P.id (!n) n)
  else none

structure Represents (P : Setting) (net : Net) (s : Pair) : Prop where
  ready : ∀ n, (net.node n).Ready (P.identity n) (P.ops n)
  line : ∀ c, ∃ hi hr, LineIs P net c (s c) hi hr
  index : ∀ n, (net.node n).pkIndex.lookup (P.peerHex n) = knownAs P s n

section
variable {P : Setting} {net net' : Net} {s : Pair} {c n : Bool} {l : Line}

theorem EndIs.of_find {peer : String} {st st' : Impl} {id : Nat} {hs : HandshakeState} {e : End}
    (h : EndIs peer st id hs e) (hf : st'.find id = st.find id) : EndIs peer st' id hs e := by
  cases e with
  | pending =>
    obtain ⟨r,hr⟩ := h
    exact ⟨r,hf.trans hr.find,hr.direct,hr.handshake,hr.unknown⟩
  | answered =>
    obtain ⟨r,hr⟩ := h
    exact ⟨r,hf.trans hr.find,hr.direct,hr.handshake,hr.unknown⟩
  | up =>
    obtain ⟨r,hr,hrest⟩ := h
    exact ⟨r,hf.trans hr,hrest⟩
  | refused => exact hf.trans h
  | dropped => exact hf.trans h

/-- A step of node `n` that concerns connection `c` alone. -/
structure Net.Moved (P : Setting) (c n : Bool) (net net' : Net) : Prop where
  there : net'.node (!n) = net.node (!n)
  ready : (net'.node n).Ready (P.identity n) (P.ops n)
  elsewhere : ∀ j, j ≠ P.id c n → (net'.node n).find j = (net.node n).find j
  flight : ∀ m, net'.flight (!c) m = net.flight (!c) m
  notice : ∀ m, net'.notice (!c) m = net.notice (!c) m

theorem Net.Moved.find_other (hm : Net.Moved P c n net net') (m : Bool) :
    (net'.node m).find (P.id (!c) m) = (net.node m).find (P.id (!c) m) := by
  by_cases h : m = n
  · subst h
    exact hm.elsewhere _ (P.id_ne c m)
  · obtain rfl : m = !n := Bool.eq_not_of_ne h
    rw [hm.there]

/-- The other connection stays as it is; the line that moved and the index of the node are
what is left to show. -/
theorem Represents.moved {hi hr : HandshakeState} (h : Represents P net s)
    (hm : Net.Moved P c n net net') (hl : LineIs P net' c l hi hr)
    (hhere : (net'.node n).pkIndex.lookup (P.peerHex n) = knownAs P (s.set c l) n)
    (hthere : endAt l c (!n) = endAt (s c) c (!n)) : Represents P net' (s.set c l) := by
  refine ⟨fun m => ?_,fun d => ?_,fun m => ?_⟩
  · by_cases hmn : m = n
    · subst hmn
      exact hm.ready
    · obtain rfl : m = !n := Bool.eq_not_of_ne hmn
      rw [hm.there]
      exact h.ready _
  · by_cases hd : d = c
    · subst hd
      exact ⟨hi,hr,by simpa [Pair.set] using hl⟩
    · obtain rfl : d = !c := Bool.eq_not_of_ne hd
      obtain ⟨hi',hr',hl'⟩ := h.line (!c)
      have hsame : s.set c l (!c) = s (!c) := by simp [Pair.set]
      rw [hsame]
      refine ⟨hi',hr',hl'.near.of_find (hm.find_other _),hl'.far.of_find (hm.find_other _),?_,?_,?_⟩
      · rw [hm.flight,hm.flight]
        exact hl'.flight
      · rw [hm.notice]
        exact hl'.tellNear
      · rw [hm.notice]
        exact hl'.tellFar
  · by_cases hmn : m = n
    · subst hmn
      exact hhere
    · obtain rfl : m = !n := Bool.eq_not_of_ne hmn
      rw [hm.there,h.index]
      cases c <;> cases n <;> simp_all [knownAs,Pair.set,endAt]

/-- What one step of a node asks of the connector of connection `c`: frames to send, and
whether to close. -/
inductive Said (P : Setting) (c n : Bool) : List Bytes → Bool → List Effect → Prop where
  | nothing : Said P c n [] false []
  | frame (owner : ConnectionRecord) (out : Bytes) :
      Said P c n [out] false [.sendTo owner (P.id c n) "tcp" out true]
  | goodbye : Said P c n [] true [.closeNow "tcp" (P.id c n)]
  | frameGoodbye (owner : ConnectionRecord) (out : Bytes) :
      Said P c n [out] true [.closeNow "tcp" (P.id c n),.sendTo owner (P.id c n) "tcp" out true]

theorem Said.absorbed {frames : List Bytes} {closing : Bool} {new : List Effect}
    (h : Said P c n frames closing new) (net : Net) :
    new.foldr (Net.absorb P n) net =
      if closing then (net.post c (!n) frames).hangUp c else net.post c (!n) frames := by
  cases h with
  | nothing => simp [Net.post_nil]
  | frame owner out => simp [Net.absorb_sendTo]
  | goodbye => simp [Net.absorb_closeNow,Net.post_nil]
  | frameGoodbye owner out => simp [Net.absorb_sendTo,Net.absorb_closeNow]

/-- A node has taken a frame of connection `c` and is in state `st`. -/
structure Net.Took (P : Setting) (c n : Bool) (frames : List Bytes) (closing : Bool) (st : Impl)
    (net net' : Net) : Prop where
  moved : Net.Moved P c n net net'
  node : net'.node n = st
  taken : net'.flight c n = []
  sent : net'.flight c (!n) = net.flight c (!n) ++ frames
  told : ∀ m, net'.notice c m = (closing || net.notice c m)

theorem Net.took_frame {frames : List Bytes} {closing : Bool} {new : List Effect} {frame : Bytes}
    {st : Impl} (hf : net.flight c n = [frame])
    (hst : (net.node n).dispatchPacket (P.env n) (P.id c n) (Header.decode frame)
      (frame.drop headerSize) = st) (hready : st.Ready (P.identity n) (P.ops n))
    (helse : ∀ j, j ≠ P.id c n → st.find j = (net.node n).find j)
    (hout : st.outbox = new ++ (net.node n).outbox) (hsaid : Said P c n frames closing new) :
    Net.Took P c n frames closing st net (net.deliver P (.frame c n)) := by
  have hnet : net.deliver P (.frame c n) = new.foldr (Net.absorb P n)
      ((net.setFlight c n []).setNode n st) := by
    have hdel : net.deliver P (.frame c n) = (net.setFlight c n []).become P n st := by
      simp only [deliver,hf,Event.step,hst]
    rw [hdel]
    exact Net.become_eq hout
  rw [hnet,hsaid.absorbed]
  have hne : ∀ b : Bool, (b = !b) = False := fun b => by simp
  cases closing with
  | true =>
    refine ⟨⟨?_,?_,?_,?_,?_⟩,?_,?_,?_,?_⟩
    all_goals simp [hready,hne]
    exact helse
  | false =>
    refine ⟨⟨?_,?_,?_,?_,?_⟩,?_,?_,?_,?_⟩
    all_goals simp [hready,hne]
    exact helse

theorem Impl.dispatchPacket_init {env : Env} {st : Impl} {id : Nat} {msg frame : Bytes}
    (h : IsFrame msgTypeNoiseInit msg frame) :
    st.dispatchPacket env id (Header.decode frame) (frame.drop headerSize) =
      st.handleNoiseInit env id msg := by
  unfold dispatchPacket dispatchDepth
  simp [dispatchNested,h.type,h.payload]

theorem Impl.dispatchPacket_resp {env : Env} {st : Impl} {id : Nat} {msg frame : Bytes}
    (h : IsFrame msgTypeNoiseResp msg frame) :
    st.dispatchPacket env id (Header.decode frame) (frame.drop headerSize) =
      st.handleNoiseResp env id msg := by
  unfold dispatchPacket dispatchDepth
  have hne : msgTypeNoiseResp ≠ msgTypeNoiseInit := by decide
  simp [dispatchNested,h.type,h.payload,hne]

theorem Impl.dispatchPacket_fin {env : Env} {st : Impl} {id : Nat} {msg frame : Bytes}
    (h : IsFrame msgTypeNoiseFin msg frame) :
    st.dispatchPacket env id (Header.decode frame) (frame.drop headerSize) =
      st.handleNoiseFin env id msg := by
  unfold dispatchPacket dispatchDepth
  have hne : msgTypeNoiseFin ≠ msgTypeNoiseInit := by decide
  have hne' : msgTypeNoiseFin ≠ msgTypeNoiseResp := by decide
  simp [dispatchNested,h.type,h.payload,hne,hne']

/-- A first message arrives: the far node answers it. -/
theorem Represents.answer {hi hr : HandshakeState} (hP : P.Lawful) (h : Represents P net s)
    (hl : LineIs P net c (s c) hi hr) (hf : (s c).flight = some .first)
    (he : (s c).far = .pending) :
    Represents P (net.deliver P (.frame c (!c)))
      (s.set c { s c with far := .answered, flight := some .second }) := by
  have hcarry := hl.flight
  rw [hf] at hcarry
  obtain ⟨hnear,msg,frame,hfar,hframe,hg,hsi,hsr⟩ := hcarry
  have hend := hl.far
  rw [he] at hend
  obtain ⟨r,hheld⟩ := hend
  obtain ⟨r',hr',payload,out,frame',owner,hfind,hdir,hh,hauth,hpk,hintro,hans,hout,hacts⟩ :=
    Impl.handleNoiseInit_honest hP.sodium (hP.identity (!c)) (hP.reliable (!c))
      (h.ready (!c)) hheld.find hheld.direct hheld.handshake hg
  have htook := Net.took_frame hfar (Impl.dispatchPacket_init hframe) hacts.ready hacts.elsewhere
    hacts.outbox (.frame owner frame')
  generalize net.deliver P (.frame c (!c)) = net' at htook ⊢
  have hsent := htook.sent
  have hthere := htook.moved.there
  rw [Bool.not_not] at hsent hthere
  have hline : LineIs P net' c { s c with far := .answered, flight := some .second } hi hr' := by
    refine ⟨hl.near.of_find (by rw [hthere]),?_,?_,?_,?_⟩
    · rw [htook.node]
      exact ⟨r',hfind,hdir,hh,hauth.trans hheld.unknown⟩
    · exact ⟨htook.taken,out,payload,frame',by rw [hsent,hnear]; rfl,hout,hans,hintro,hsi,
        hpk.trans hsr⟩
    · exact (htook.told c).trans hl.tellNear
    · exact (htook.told (!c)).trans hl.tellFar
  refine h.moved htook.moved hline ?_ ?_
  · rw [htook.node,hacts.pk,h.index]
    simp [knownAs,Pair.set,he]
  · simp [endAt]

/-- The dialler reads the second message and writes the third. -/
theorem Represents.resp {hi hr : HandshakeState} (hP : P.Lawful) (h : Represents P net s)
    (hl : LineIs P net c (s c) hi hr) (hf : (s c).flight = some .second)
    (he : (s c).near = .pending) :
    ∃ frame st r hs out mine frame' owner, net.flight c c = [frame] ∧ net.flight c (!c) = [] ∧
      (net.node c).dispatchPacket (P.env c) (P.id c c) (Header.decode frame)
        (frame.drop headerSize) = st.finalizeHandshake (P.env c) (P.id c c) ∧
      Acts (P.identity c) (P.ops c) (P.id c c) (net.node c) st
        [.sendTo owner (P.id c c) "tcp" frame' true] ∧
      Identified (P.identity (!c)) (P.id c c) st r hs ∧ Introduces P.sodium (P.identity c) mine ∧
      Concludes P.sodium hr ((P.identity c).static P.sodium) out mine ∧
      IsFrame msgTypeNoiseFin out frame' := by
  have hcarry := hl.flight
  rw [hf] at hcarry
  obtain ⟨hfar,msg,payload,frame,hnear,hframe,hans,hintro,hsi,hsr⟩ := hcarry
  have hend := hl.near
  rw [he] at hend
  obtain ⟨r,hheld⟩ := hend
  obtain ⟨st,r',hs,out,mine,frame',owner,hfin,hacts,hid,hmine,hcon,hout⟩ :=
    Impl.handleNoiseResp_honest hP.sodium (hP.identity c) (hP.identity (!c)) (hP.reliable c)
      (h.ready c) hheld.find hheld.direct hheld.handshake hans hsr hintro
  refine ⟨frame,st,r',hs,out,mine,frame',owner,hnear,hfar,?_,hacts,hid,hmine,?_,hout⟩
  · rw [Impl.dispatchPacket_resp hframe]
    exact hfin
  · rw [← hsi]
    exact hcon

theorem Represents.confirm {hi hr : HandshakeState} (hP : P.Lawful) (h : Represents P net s)
    (hl : LineIs P net c (s c) hi hr) (hf : (s c).flight = some .second)
    (he : (s c).near = .pending) (hrival : (s (!c)).far ≠ .up) :
    Represents P (net.deliver P (.frame c c))
      (s.set c { s c with near := .up, flight := some .third }) := by
  obtain ⟨frame,st,r,hs,out,mine,frame',owner,hnear,hfar,hst,hacts,hid,hmine,hcon,hout⟩ :=
    h.resp hP hl hf he
  have hhex : r.pkHex = P.peerHex c := by
    unfold ConnectionRecord.pkHex Setting.peerHex
    rw [hid.user]
  have hpk : st.pkIndex.lookup r.pkHex = none := by
    rw [hhex,hacts.pk,h.index]
    simp [knownAs,he,hrival]
  obtain ⟨hready,helse,hfind,hidx,hbox⟩ : (st.finalizeHandshake (P.env c) (P.id c c)).Ready _ _ ∧ _ :=
    Impl.finalizeHandshake_up hacts.ready hid.find hid.handshake hpk
  have htook := Net.took_frame hnear hst hready
    (fun j hj => (helse j hj).trans (hacts.elsewhere j hj)) (hbox.trans hacts.outbox)
    (.frame owner frame')
  generalize net.deliver P (.frame c c) = net' at htook ⊢
  have hline : LineIs P net' c { s c with near := .up, flight := some .third } hi hr := by
    refine ⟨?_,hl.far.of_find (by rw [htook.moved.there]),?_,?_,?_⟩
    · rw [htook.node]
      exact ⟨_,hfind,rfl,hid.authenticated,hhex⟩
    · exact ⟨htook.taken,out,mine,frame',by rw [htook.sent,hfar]; rfl,hout,hcon,hmine⟩
    · exact (htook.told c).trans hl.tellNear
    · exact (htook.told (!c)).trans hl.tellFar
  refine h.moved htook.moved hline ?_ ?_
  · rw [htook.node,hidx,hhex,AList.lookup_insert]
    simp [knownAs,Pair.set]
  · simp [endAt]

theorem Represents.decline {hi hr : HandshakeState} (hP : P.Lawful) (h : Represents P net s)
    (hl : LineIs P net c (s c) hi hr) (hf : (s c).flight = some .second)
    (he : (s c).near = .pending) (hrival : (s (!c)).far = .up) :
    Represents P (net.deliver P (.frame c c)) (s.set c { s c with
      near := .refused, flight := some .third, tellNear := true, tellFar := true }) := by
  obtain ⟨frame,st,r,hs,out,mine,frame',owner,hnear,hfar,hst,hacts,hid,hmine,hcon,hout⟩ :=
    h.resp hP hl hf he
  have hhex : r.pkHex = P.peerHex c := by
    unfold ConnectionRecord.pkHex Setting.peerHex
    rw [hid.user]
  have hpk : st.pkIndex.lookup r.pkHex = some (P.id (!c) c) := by
    rw [hhex,hacts.pk,h.index]
    simp [knownAs,he,hrival]
  obtain ⟨hfin,hgone⟩ := Impl.finalizeHandshake_refused (hP.reliable c) (hP.closes c) hacts.ready
    hid.find hid.direct hid.handshake hpk (P.id_ne c c)
  have hall := hacts.trans hfin
  have htook := Net.took_frame hnear hst hall.ready hall.elsewhere hall.outbox
    (.frameGoodbye owner frame')
  generalize net.deliver P (.frame c c) = net' at htook ⊢
  have hline : LineIs P net' c { s c with
      near := .refused, flight := some .third, tellNear := true, tellFar := true } hi hr := by
    refine ⟨?_,hl.far.of_find (by rw [htook.moved.there]),?_,htook.told c,htook.told (!c)⟩
    · rw [htook.node]
      exact hgone
    · exact ⟨htook.taken,out,mine,frame',by rw [htook.sent,hfar]; rfl,hout,hcon,hmine⟩
  refine h.moved htook.moved hline ?_ ?_
  · rw [htook.node,hall.pk,h.index]
    simp [knownAs,Pair.set,he]
  · simp [endAt]

/-- The far node reads the third message. -/
theorem Represents.fin {hi hr : HandshakeState} (hP : P.Lawful) (h : Represents P net s)
    (hl : LineIs P net c (s c) hi hr) (hf : (s c).flight = some .third)
    (he : (s c).far = .answered) :
    ∃ frame st r hs, net.flight c (!c) = [frame] ∧ net.flight c c = [] ∧
      (Header.decode frame).type = msgTypeNoiseFin ∧
      (net.node (!c)).dispatchPacket (P.env (!c)) (P.id c (!c)) (Header.decode frame)
        (frame.drop headerSize) = st.finalizeHandshake (P.env (!c)) (P.id c (!c)) ∧
      Acts (P.identity (!c)) (P.ops (!c)) (P.id c (!c)) (net.node (!c)) st [] ∧
      Identified (P.identity c) (P.id c (!c)) st r hs := by
  have hcarry := hl.flight
  rw [hf] at hcarry
  obtain ⟨hnear,msg,payload,frame,hfar,hframe,hcon,hintro⟩ := hcarry
  have hend := hl.far
  rw [he] at hend
  obtain ⟨r,hheld⟩ := hend
  have hcon' : Concludes (P.env (!c)).sodium hr ((P.identity c).static P.sodium) msg payload := hcon
  have hintro' : Introduces (P.env (!c)).sodium (P.identity c) payload := hintro
  obtain ⟨st,r',hs,hfin,hacts,hid⟩ := Impl.handleNoiseFin_honest (hP.identity c) (h.ready (!c))
    hheld.find hheld.direct hheld.handshake hcon' hintro'
  refine ⟨frame,st,r',hs,hfar,hnear,hframe.type,?_,hacts,hid⟩
  rw [Impl.dispatchPacket_fin hframe]
  exact hfin

theorem Represents.finish {hi hr : HandshakeState} (hP : P.Lawful) (h : Represents P net s)
    (hl : LineIs P net c (s c) hi hr) (hf : (s c).flight = some .third)
    (he : (s c).far = .answered) (hrival : (s (!c)).near ≠ .up) :
    Represents P (net.deliver P (.frame c (!c)))
      (s.set c { s c with far := .up, flight := none }) := by
  obtain ⟨frame,st,r,hs,hfar,hnear,_,hst,hacts,hid⟩ := h.fin hP hl hf he
  have hhex : r.pkHex = P.peerHex (!c) := by
    unfold ConnectionRecord.pkHex Setting.peerHex
    rw [hid.user,Bool.not_not]
  have hpk : st.pkIndex.lookup r.pkHex = none := by
    rw [hhex,hacts.pk,h.index]
    simp [knownAs,he,hrival]
  obtain ⟨hready,helse,hfind,hidx,hbox⟩ :
      (st.finalizeHandshake (P.env (!c)) (P.id c (!c))).Ready _ _ ∧ _ :=
    Impl.finalizeHandshake_up hacts.ready hid.find hid.handshake hpk
  have htook := Net.took_frame hfar hst hready
    (fun j hj => (helse j hj).trans (hacts.elsewhere j hj)) (hbox.trans hacts.outbox) .nothing
  generalize net.deliver P (.frame c (!c)) = net' at htook ⊢
  have hsent := htook.sent
  have hthere := htook.moved.there
  rw [Bool.not_not] at hsent hthere
  have hline : LineIs P net' c { s c with far := .up, flight := none } hi hr := by
    refine ⟨hl.near.of_find (by rw [hthere]),?_,?_,?_,?_⟩
    · rw [htook.node]
      exact ⟨_,hfind,rfl,hid.authenticated,hhex⟩
    · exact ⟨by rw [hsent,hnear]; rfl,htook.taken⟩
    · exact (htook.told c).trans hl.tellNear
    · exact (htook.told (!c)).trans hl.tellFar
  refine h.moved htook.moved hline ?_ ?_
  · rw [htook.node,hidx,hhex,AList.lookup_insert]
    simp [knownAs,Pair.set,hrival]
  · simp [endAt]

theorem Represents.refuse {hi hr : HandshakeState} (hP : P.Lawful) (h : Represents P net s)
    (hl : LineIs P net c (s c) hi hr) (hf : (s c).flight = some .third)
    (he : (s c).far = .answered) (hrival : (s (!c)).near = .up) :
    Represents P (net.deliver P (.frame c (!c))) (s.set c { s c with
      far := .refused, flight := none, tellNear := true, tellFar := true }) := by
  obtain ⟨frame,st,r,hs,hfar,hnear,_,hst,hacts,hid⟩ := h.fin hP hl hf he
  have hhex : r.pkHex = P.peerHex (!c) := by
    unfold ConnectionRecord.pkHex Setting.peerHex
    rw [hid.user,Bool.not_not]
  have hpk : st.pkIndex.lookup r.pkHex = some (P.id (!c) (!c)) := by
    rw [hhex,hacts.pk,h.index]
    simp [knownAs,hrival]
  obtain ⟨hfin,hgone⟩ := Impl.finalizeHandshake_refused (hP.reliable (!c)) (hP.closes (!c))
    hacts.ready hid.find hid.direct hid.handshake hpk (P.id_ne c (!c))
  have hall := hacts.trans hfin
  have htook := Net.took_frame hfar hst hall.ready hall.elsewhere hall.outbox .goodbye
  generalize net.deliver P (.frame c (!c)) = net' at htook ⊢
  have hsent := htook.sent
  have hthere := htook.moved.there
  rw [Bool.not_not] at hsent hthere
  have hline : LineIs P net' c { s c with
      far := .refused, flight := none, tellNear := true, tellFar := true } hi hr := by
    refine ⟨hl.near.of_find (by rw [hthere]),?_,?_,htook.told c,htook.told (!c)⟩
    · rw [htook.node]
      exact hgone
    · exact ⟨by rw [hsent,hnear]; rfl,htook.taken⟩
  refine h.moved htook.moved hline ?_ ?_
  · rw [htook.node,hall.pk,h.index]
    simp [knownAs,Pair.set,hrival]
  · simp [endAt]

/-- The third message comes too late: the far end has been told already. -/
theorem Represents.lose {hi hr : HandshakeState} (h : Represents P net s)
    (hl : LineIs P net c (s c) hi hr) (hf : (s c).flight = some .third)
    (he : (s c).far = .dropped) :
    Represents P (net.deliver P (.frame c (!c))) (s.set c { s c with flight := none }) := by
  have hcarry := hl.flight
  rw [hf] at hcarry
  obtain ⟨hnear,msg,payload,frame,hfar,hframe,_,_⟩ := hcarry
  have hend := hl.far
  rw [he] at hend
  have hgone : (net.node (!c)).find (P.id c (!c)) = none := hend
  have hst : (net.node (!c)).dispatchPacket (P.env (!c)) (P.id c (!c)) (Header.decode frame)
      (frame.drop headerSize) = net.node (!c) := by
    rw [Impl.dispatchPacket_fin hframe]
    unfold Impl.handleNoiseFin Impl.handshakeAs
    rw [hgone]
    rfl
  have htook := Net.took_frame hfar hst (h.ready (!c)) (fun _ _ => rfl) rfl .nothing
  generalize net.deliver P (.frame c (!c)) = net' at htook ⊢
  have hsent := htook.sent
  have hthere := htook.moved.there
  rw [Bool.not_not] at hsent hthere
  have hline : LineIs P net' c { s c with flight := none } hi hr := by
    refine ⟨hl.near.of_find (by rw [hthere]),hl.far.of_find (by rw [htook.node]),?_,?_,?_⟩
    · exact ⟨by rw [hsent,hnear]; rfl,htook.taken⟩
    · exact (htook.told c).trans hl.tellNear
    · exact (htook.told (!c)).trans hl.tellFar
  refine h.moved htook.moved hline ?_ ?_
  · rw [htook.node,h.index]
    simp [knownAs,Pair.set]
  · simp [endAt]

/-- Word of a close reaches an end, which then has no record; a node forgets the peer with
an established one. -/
theorem Impl.told_closed {peer : String} {st : Impl} {me : NodeIdentity} {ops : ConnectorOps}
    {id : Nat} {hs : HandshakeState} {e : End} (h : st.Ready me ops) (he : EndIs peer st id hs e) :
    (st.handleDisconnect id).find id = none ∧
      (st.handleDisconnect id).pkIndex.lookup peer =
        if e = .up then none else st.pkIndex.lookup peer := by
  obtain ⟨_,_,hgone,_,hpk⟩ := handleDisconnect_acts id h
  refine ⟨hgone,?_⟩
  rw [hpk]
  cases e with
  | pending =>
    obtain ⟨r,hr⟩ := he
    rw [hr.find]
    simp [hr.unknown]
  | answered =>
    obtain ⟨r,hr⟩ := he
    rw [hr.find]
    simp [hr.unknown]
  | up =>
    obtain ⟨r,hr,_,hauth,hhex⟩ := he
    rw [hr]
    simp [hauth,hhex]
  | refused =>
    have hnone : st.find id = none := he
    rw [hnone]
    simp
  | dropped =>
    have hnone : st.find id = none := he
    rw [hnone]
    simp

/-- A node has been told that connection `c` is closed. -/
theorem Net.took_notice (hn : net.notice c n = true)
    (hr : (net.node n).Ready (P.identity n) (P.ops n)) :
    Net.Moved P c n net (net.deliver P (.notice c n)) ∧
      (net.deliver P (.notice c n)).node n = (net.node n).handleDisconnect (P.id c n) ∧
      (net.deliver P (.notice c n)).flight = net.flight ∧
      (net.deliver P (.notice c n)).notice c n = false ∧
      (net.deliver P (.notice c n)).notice c (!n) = net.notice c (!n) := by
  obtain ⟨hready,helse,_,hout,_⟩ := Impl.handleDisconnect_acts (P.id c n) hr
  have hnet : net.deliver P (.notice c n) =
      (net.setNotice c n false).setNode n ((net.node n).handleDisconnect (P.id c n)) := by
    have hdel : net.deliver P (.notice c n) =
        (net.setNotice c n false).become P n ((net.node n).handleDisconnect (P.id c n)) := by
      simp only [deliver,hn,ite_true,Event.step]
    rw [hdel]
    have hnone : ((net.node n).handleDisconnect (P.id c n)).outbox =
        [] ++ ((net.setNotice c n false).node n).outbox := hout
    exact Net.become_eq hnone
  rw [hnet]
  refine ⟨⟨?_,?_,?_,?_,?_⟩,?_,?_,?_,?_⟩
  all_goals simp [hready]
  exact helse

theorem Represents.notice_near {hi hr : HandshakeState} (h : Represents P net s)
    (hl : LineIs P net c (s c) hi hr) (hsingle : (s c).near = .up → (s (!c)).far ≠ .up)
    (ht : (s c).tellNear = true) :
    ∃ l, Move (s c) (s (!c)) l ∧ Represents P (net.deliver P (.notice c c)) (s.set c l) := by
  obtain ⟨hmoved,hnode,hflight,hnow,hrest⟩ := Net.took_notice (hl.tellNear.trans ht) (h.ready c)
  obtain ⟨hgone,hpk⟩ := Impl.told_closed (h.ready c) hl.near
  generalize net.deliver P (.notice c c) = net' at *
  have hfar : EndIs (P.peerHex (!c)) (net'.node (!c)) (P.id c (!c)) hr (s c).far :=
    hl.far.of_find (by rw [hmoved.there])
  have hfind : (net'.node c).find (P.id c c) = none := by rw [hnode]; exact hgone
  have hidx : (net'.node c).pkIndex.lookup (P.peerHex c) =
      if (s (!c)).far = .up then some (P.id (!c) c) else none := by
    rw [hnode,hpk,h.index]
    by_cases hup : (s c).near = .up
    · simp [hup,hsingle hup]
    · simp [hup,knownAs]
  have hcarry := hl.flight
  rw [← hflight] at hcarry
  by_cases href : (s c).near = .refused
  · have hline : LineIs P net' c { s c with tellNear := false } hi hr :=
      ⟨by rw [href]; exact hfind,hfar,hcarry,hnow,hrest.trans hl.tellFar⟩
    refine ⟨_,.ignoreNear ht href,h.moved hmoved hline ?_ (by simp [endAt])⟩
    rw [hidx]
    simp [knownAs,Pair.set,href]
  · have hline : LineIs P net' c { s c with near := .dropped, tellNear := false } hi hr :=
      ⟨hfind,hfar,hcarry,hnow,hrest.trans hl.tellFar⟩
    refine ⟨_,.dropNear ht href,h.moved hmoved hline ?_ (by simp [endAt])⟩
    rw [hidx]
    simp [knownAs,Pair.set]

theorem Represents.notice_far {hi hr : HandshakeState} (h : Represents P net s)
    (hl : LineIs P net c (s c) hi hr) (hsingle : (s (!c)).near = .up → (s c).far ≠ .up)
    (ht : (s c).tellFar = true) :
    ∃ l, Move (s c) (s (!c)) l ∧ Represents P (net.deliver P (.notice c (!c))) (s.set c l) := by
  obtain ⟨hmoved,hnode,hflight,hnow,hrest⟩ :=
    Net.took_notice (hl.tellFar.trans ht) (h.ready (!c))
  obtain ⟨hgone,hpk⟩ := Impl.told_closed (h.ready (!c)) hl.far
  generalize net.deliver P (.notice c (!c)) = net' at *
  have hthere := hmoved.there
  rw [Bool.not_not] at hthere hrest
  have hnear : EndIs (P.peerHex c) (net'.node c) (P.id c c) hi (s c).near :=
    hl.near.of_find (by rw [hthere])
  have hfind : (net'.node (!c)).find (P.id c (!c)) = none := by rw [hnode]; exact hgone
  have hidx : (net'.node (!c)).pkIndex.lookup (P.peerHex (!c)) =
      if (s (!c)).near = .up then some (P.id (!c) (!c)) else none := by
    rw [hnode,hpk,h.index]
    by_cases hup : (s c).far = .up
    · have hrival : (s (!c)).near ≠ .up := fun hn => hsingle hn hup
      simp [hup,hrival]
    · simp [hup,knownAs]
  have hcarry := hl.flight
  rw [← hflight] at hcarry
  by_cases href : (s c).far = .refused
  · have hline : LineIs P net' c { s c with tellFar := false } hi hr :=
      ⟨hnear,by rw [href]; exact hfind,hcarry,hrest.trans hl.tellNear,hnow⟩
    refine ⟨_,.ignoreFar ht href,h.moved hmoved hline ?_ (by simp [endAt])⟩
    rw [hidx]
    simp [knownAs,Pair.set,href]
  · have hline : LineIs P net' c { s c with far := .dropped, tellFar := false } hi hr :=
      ⟨hnear,hfind,hcarry,hrest.trans hl.tellNear,hnow⟩
    refine ⟨_,.dropFar ht href,h.moved hmoved hline ?_ (by simp [endAt])⟩
    rw [hidx]
    simp [knownAs,Pair.set]

theorem Net.deliver_nothing (hf : net.flight c n = []) : net.deliver P (.frame c n) = net := by
  simp only [deliver,hf]

/-- The delivery of a frame is a move of its connection, or there is none to deliver. -/
theorem Represents.frame_move (hP : P.Lawful) (h : Represents P net s) (hi : Inv s)
    (hb : net.backed P (.frame c n) = true) :
    Represents P (net.deliver P (.frame c n)) s ∨
      ∃ l, Move (s c) (s (!c)) l ∧ Represents P (net.deliver P (.frame c n)) (s.set c l) := by
  obtain ⟨hsi,hsr,hl⟩ := h.line c
  have hstage := (hi.sound c).stage
  have hcarry := hl.flight
  unfold Line.Stage at hstage
  cases hf : (s c).flight with
  | none =>
    rw [hf] at hcarry
    have hempty : net.flight c n = [] := by
      by_cases hn : n = c
      · rw [hn]
        exact hcarry.1
      · rw [Bool.eq_not_of_ne hn]
        exact hcarry.2
    left
    rw [Net.deliver_nothing hempty]
    exact h
  | some m =>
    rw [hf] at hcarry hstage
    cases m with
    | first =>
      by_cases hn : n = c
      · left
        rw [hn,Net.deliver_nothing hcarry.1]
        exact h
      · right
        rw [Bool.eq_not_of_ne hn]
        exact ⟨_,.answer hf hstage.2,h.answer hP hl hf hstage.2⟩
    | second =>
      by_cases hn : n = c
      · right
        rw [hn]
        by_cases hrival : (s (!c)).far = .up
        · exact ⟨_,.decline hf hstage.1 hrival,h.decline hP hl hf hstage.1 hrival⟩
        · exact ⟨_,.confirm hf hstage.1 hrival,h.confirm hP hl hf hstage.1 hrival⟩
      · left
        rw [Bool.eq_not_of_ne hn,Net.deliver_nothing hcarry.1]
        exact h
    | third =>
      by_cases hn : n = c
      · left
        rw [hn,Net.deliver_nothing hcarry.1]
        exact h
      · right
        rw [Bool.eq_not_of_ne hn] at hb ⊢
        rcases hstage.2 with he | he
        · by_cases hrival : (s (!c)).near = .up
          · refine ⟨_,.refuse hf he hrival ?_,h.refuse hP hl hf he hrival⟩
            -- the condition is about the record the far end of the rival stands for
            obtain ⟨frame,_,_,_,hfar,_,htype,_⟩ := h.fin hP hl hf he
            have hknown : (net.node (!c)).pkIndex.lookup (P.peerHex (!c)) =
                some (P.id (!c) (!c)) := by
              rw [h.index]
              simp [knownAs,hrival]
            have hthere : ((net.node c).find (P.id (!c) c)).isSome = true := by
              simpa [Net.backed,hfar,htype,hknown] using hb
            obtain ⟨_,_,hl'⟩ := h.line (!c)
            have hend := hl'.far
            rw [Bool.not_not] at hend
            constructor
            · intro hgone
              rw [hgone] at hend
              have hnone : (net.node c).find (P.id (!c) c) = none := hend
              simp [hnone] at hthere
            · intro hgone
              rw [hgone] at hend
              have hnone : (net.node c).find (P.id (!c) c) = none := hend
              simp [hnone] at hthere
          · exact ⟨_,.finish hf he hrival,h.finish hP hl hf he hrival⟩
        · exact ⟨_,.lose hf he,h.lose hl hf he⟩

theorem Represents.notice_move (h : Represents P net s) (hi : Inv s) :
    Represents P (net.deliver P (.notice c n)) s ∨
      ∃ l, Move (s c) (s (!c)) l ∧ Represents P (net.deliver P (.notice c n)) (s.set c l) := by
  obtain ⟨_,_,hl⟩ := h.line c
  by_cases ht : net.notice c n = true
  · right
    by_cases hn : n = c
    · subst hn
      exact h.notice_near hl (hi.rivals n).single (hl.tellNear.symm.trans ht)
    · obtain rfl : n = !c := Bool.eq_not_of_ne hn
      have hsingle := (hi.rivals (!c)).single
      rw [Bool.not_not] at hsingle
      exact h.notice_far hl hsingle (hl.tellFar.symm.trans ht)
  · left
    have hsame : net.deliver P (.notice c n) = net := by simp [Net.deliver,ht]
    rw [hsame]
    exact h

theorem Represents.step (hP : P.Lawful) (h : Represents P net s) (hi : Inv s) (d : Delivery)
    (hb : net.backed P d = true) : ∃ s', Represents P (net.deliver P d) s' ∧ Inv s' := by
  have hmove : ∃ c, Represents P (net.deliver P d) s ∨
      ∃ l, Move (s c) (s (!c)) l ∧ Represents P (net.deliver P d) (s.set c l) := by
    cases d with
    | frame c n => exact ⟨c,h.frame_move hP hi hb⟩
    | notice c n => exact ⟨c,h.notice_move hi⟩
  obtain ⟨c,hsame | ⟨l,hm,hnext⟩⟩ := hmove
  · exact ⟨s,hsame,hi⟩
  · exact ⟨_,hnext,hi.move hm⟩

/-- Along a run that meets the condition at every delivery the two nodes stay within the
protocol. -/
theorem Represents.run (hP : P.Lawful) (h : Represents P net s) (hi : Inv s)
    (ds : List Delivery) (hb : net.backedRun P ds = true) :
    ∃ s', Represents P (net.run P ds) s' ∧ Inv s' := by
  induction ds generalizing net s with
  | nil => exact ⟨s,h,hi⟩
  | cons d ds ih =>
    simp only [Net.backedRun,Bool.and_eq_true] at hb
    obtain ⟨s',h',hi'⟩ := h.step hP hi d hb.1
    exact ih h' hi' hb.2

theorem Held.of_find {st st' : Impl} {id : Nat} {r : ConnectionRecord} {hs : HandshakeState}
    (h : Held st id r hs) (hf : st'.find id = st.find id) : Held st' id r hs :=
  ⟨hf.trans h.find,h.direct,h.handshake,h.unknown⟩

/-- The handshake of a node that has not said anything yet, as initiator or responder. -/
def Setting.fresh (P : Setting) (n initiator : Bool) : HandshakeState :=
  HandshakeState.init P.sodium initiator ((P.identity n).static P.sodium)
    (P.sodium.skToCurve25519 (P.identity n).deviceSeckey)

def Setting.greeting (P : Setting) (n : Bool) (secret : Key) : Written :=
  (P.fresh n true).writeMessage P.sodium secret []

/-- A node with both connections registered. -/
structure Opened (P : Setting) (n : Bool) (secret : Key) (frame : Bytes) (st : Impl) : Prop where
  ready : st.Ready (P.identity n) (P.ops n)
  pk : st.pkIndex = (P.before n).pkIndex
  outbox : ∃ owner, st.outbox =
    [.sendTo owner (P.id n n) "tcp" frame true] ++ (P.before n).outbox
  dialled : ∃ r, Held st (P.id n n) r (P.greeting n secret).state
  accepted : ∃ r, Held st (P.id (!n) n) r (P.fresh n false)
  isFrame : IsFrame msgTypeNoiseInit (P.greeting n secret).out frame

theorem Setting.opened_dial (hP : P.Lawful) (hfirst : P.first n = true) :
    ∃ secret frame, Opened P n secret frame (P.opened n) := by
  have hdial : P.id n n = (P.before n).nextId := by simp [Setting.id,hfirst]
  have hacc : P.id (!n) n = (P.before n).nextId+1 := by simp [Setting.id,hfirst]
  have hopen : P.opened n = P.connect n (!n) (P.connect n n (P.before n)) := by
    simp [Setting.opened,hfirst]
  have hme : (P.identity n).Lawful (P.env n).sodium := hP.identity n
  have hout : (P.endpoint n n).outbound = true := by simp [Setting.endpoint,hP.dials]
  have hin : (P.endpoint (!n) n).outbound = false := by simp [Setting.endpoint,hP.accepts]
  obtain ⟨secret,frame,owner,hacts,hnext,hframe,r,hheld⟩ :=
    Impl.handleConnect_dial hP.sodium hme (hP.reliable n) (hP.ready n) hout
  change Acts _ _ _ _ (P.connect n n (P.before n)) _ at hacts
  change (P.connect n n (P.before n)).nextId = _ at hnext
  change Held (P.connect n n (P.before n)) _ r _ at hheld
  generalize P.connect n n (P.before n) = st at hacts hnext hheld hopen
  obtain ⟨hacts',_,r',hheld'⟩ := Impl.handleConnect_accept hme hacts.ready hin
  rw [hnext] at hacts' hheld'
  have hall := hacts'.outbox.trans hacts.outbox
  rw [hopen]
  unfold Setting.connect
  refine ⟨secret,frame,hacts'.ready,hacts'.pk.trans hacts.pk,⟨owner,?_⟩,⟨r,?_⟩,⟨r',?_⟩,hframe⟩
  · rw [hdial]
    exact hall
  · rw [hdial]
    exact hheld.of_find (hacts'.elsewhere _ (by omega))
  · rw [hacc]
    exact hheld'

theorem Setting.opened_accept (hP : P.Lawful) (hfirst : P.first n = false) :
    ∃ secret frame, Opened P n secret frame (P.opened n) := by
  have hdial : P.id n n = (P.before n).nextId+1 := by simp [Setting.id,hfirst]
  have hacc : P.id (!n) n = (P.before n).nextId := by simp [Setting.id,hfirst]
  have hopen : P.opened n = P.connect n n (P.connect n (!n) (P.before n)) := by
    simp [Setting.opened,hfirst]
  have hme : (P.identity n).Lawful (P.env n).sodium := hP.identity n
  have hout : (P.endpoint n n).outbound = true := by simp [Setting.endpoint,hP.dials]
  have hin : (P.endpoint (!n) n).outbound = false := by simp [Setting.endpoint,hP.accepts]
  obtain ⟨hacts,hnext,r,hheld⟩ := Impl.handleConnect_accept hme (hP.ready n) hin
  change Acts _ _ _ _ (P.connect n (!n) (P.before n)) _ at hacts
  change (P.connect n (!n) (P.before n)).nextId = _ at hnext
  change Held (P.connect n (!n) (P.before n)) _ r _ at hheld
  generalize P.connect n (!n) (P.before n) = st at hacts hnext hheld hopen
  obtain ⟨secret,frame,owner,hacts',_,hframe,r',hheld'⟩ :=
    Impl.handleConnect_dial hP.sodium hme (hP.reliable n) hacts.ready hout
  rw [hnext] at hacts' hheld'
  have hall := hacts'.outbox.trans (congrArg _ hacts.outbox)
  rw [hopen]
  unfold Setting.connect
  refine ⟨secret,frame,hacts'.ready,hacts'.pk.trans hacts.pk,⟨owner,?_⟩,⟨r',?_⟩,⟨r,?_⟩,hframe⟩
  · rw [hdial]
    exact hall
  · rw [hdial]
    exact hheld'
  · rw [hacc]
    exact hheld.of_find (hacts'.elsewhere _ (by omega))

theorem Setting.opened_cases (hP : P.Lawful) (n : Bool) :
    ∃ secret frame, Opened P n secret frame (P.opened n) := by
  cases hfirst : P.first n with
  | true => exact opened_dial hP hfirst
  | false => exact opened_accept hP hfirst

theorem Net.opening_eq {frame frame' : Bytes} {owner owner' : ConnectionRecord}
    (ht : (P.opened true).outbox =
      [.sendTo owner (P.id true true) "tcp" frame true] ++ (P.before true).outbox)
    (hf : (P.opened false).outbox =
      [.sendTo owner' (P.id false false) "tcp" frame' true] ++ (P.before false).outbox) :
    (Net.opening P).node = P.opened ∧ (Net.opening P).flight true false = [frame] ∧
      (Net.opening P).flight false true = [frame'] ∧ (∀ c, (Net.opening P).flight c c = []) ∧
      ∀ c n, (Net.opening P).notice c n = false := by
  unfold opening
  dsimp only
  rw [Net.become_eq (n := true) ht]
  simp only [List.foldr_cons,List.foldr_nil,Net.absorb_sendTo]
  rw [Net.become_eq (n := false) hf]
  simp only [List.foldr_cons,List.foldr_nil,Net.absorb_sendTo]
  refine ⟨?_,?_,?_,?_,?_⟩
  · funext n
    cases n <;> simp [setNode]
  · simp
  · simp
  · intro c
    cases c <;> simp
  · simp

theorem represents_opening (hP : P.Lawful) :
    Represents P (Net.opening P) (fun _ => Line.opened) := by
  choose secret frame hopened using P.opened_cases hP
  obtain ⟨owner,ht⟩ := (hopened true).outbox
  obtain ⟨owner',hf⟩ := (hopened false).outbox
  obtain ⟨hnode,hft,hff,hempty,hnotice⟩ := Net.opening_eq ht hf
  refine ⟨fun n => ?_,fun c => ⟨(P.greeting c (secret c)).state,P.fresh (!c) false,?_⟩,fun n => ?_⟩
  · rw [hnode]
    exact (hopened n).ready
  · have hmet : Met P.sodium 0 (P.fresh c true) (P.fresh (!c) false) := met_init rfl rfl
    obtain ⟨_,hg,_,hpk,_⟩ := first_message hP.sodium.seal_open hmet rfl (secret c) []
    refine ⟨?_,?_,?_,hnotice c c,hnotice c (!c)⟩
    · rw [hnode]
      exact (hopened c).dialled
    · have hacc := (hopened (!c)).accepted
      rw [Bool.not_not] at hacc
      rw [hnode]
      exact hacc
    · refine ⟨hempty c,_,frame c,?_,(hopened c).isFrame,hg,hpk,rfl⟩
      cases c with
      | true => exact hft
      | false => exact hff
  · rw [hnode,(hopened n).pk,hP.strangers]
    rfl

theorem Represents.joined (h : Represents P net s) (hup : (s c).near = .up ∧ (s c).far = .up)
    (hi : Inv s) : net.Joined P c := by
  obtain ⟨_,_,hl⟩ := h.line c
  intro n
  have hidx := h.index n
  by_cases hn : n = c
  · subst hn
    have hend := hl.near
    rw [hup.1] at hend
    obtain ⟨r,hr,hest,_,_⟩ := hend
    refine ⟨⟨r,hr,hest⟩,?_⟩
    rw [hidx]
    simp [knownAs,hup.1]
  · obtain rfl : n = !c := Bool.eq_not_of_ne hn
    have hend := hl.far
    rw [hup.2] at hend
    obtain ⟨r,hr,hest,_,_⟩ := hend
    refine ⟨⟨r,hr,hest⟩,?_⟩
    have hsingle := (hi.rivals (!c)).single
    rw [Bool.not_not] at hsingle
    have hrival : (s (!c)).near ≠ .up := fun hn => hsingle hn hup.2
    rw [hidx]
    simp [knownAs,hrival,hup.2]

theorem Represents.at_rest (h : Represents P net s) (hq : net.Quiet) : s.AtRest := by
  intro c
  obtain ⟨_,_,hl⟩ := h.line c
  refine ⟨?_,hl.tellNear.symm.trans (hq c c).2,hl.tellFar.symm.trans (hq c (!c)).2⟩
  have hcarry := hl.flight
  rw [(hq c c).1,(hq c (!c)).1] at hcarry
  cases hf : (s c).flight with
  | none => rfl
  | some m =>
    rw [hf] at hcarry
    cases m with
    | first =>
      obtain ⟨_,_,_,hbad,_⟩ := hcarry
      cases hbad
    | second =>
      obtain ⟨_,_,_,_,hbad,_⟩ := hcarry
      cases hbad
    | third =>
      obtain ⟨_,_,_,_,hbad,_⟩ := hcarry
      cases hbad

/-- Two nodes that dial each other end up joined by one of the two connections, whatever the
order of the deliveries, as long as no node takes the last frame of one connection against
another that its peer has lost. -/
theorem crossed_dials_join (hP : P.Lawful) (ds : List Delivery)
    (hb : (Net.opening P).backedRun P ds = true) (hq : ((Net.opening P).run P ds).Quiet) :
    ∃ c, ((Net.opening P).run P ds).Joined P c := by
  obtain ⟨s,hrep,hinv⟩ := (represents_opening hP).run hP Inv.opened ds hb
  obtain ⟨c,hup⟩ := hinv.survivor (hrep.at_rest hq)
  exact ⟨c,hrep.joined hup hinv⟩

end

/-- Two nodes that have seen nothing yet. -/
def Setting.sample : Setting where
  sodium := Sodium.sample
  world _ := Env.sample false
  ops _ := {}
  before n := (Impl.start (if n then NodeIdentity.alice else NodeIdentity.bob)).registerConnector
    "tcp" {}
  dials n := Endpoint.sample (if n then "b" else "a") epFlagOutbound
  accepts n := Endpoint.sample (if n then "b" else "a") 0
  first _ := true

theorem Setting.sample_signs (n : Bool) (m : Bytes) :
    Sodium.sample.verifyDetached (Sodium.sample.signDetached (Setting.sample.identity n).userSeckey m)
      m (Setting.sample.identity n).userPubkey = true := by
  have hhalf : (Setting.sample.identity n).userSeckey.bytes.drop 32 =
      (Setting.sample.identity n).userPubkey.bytes := by
    cases n <;> decide +kernel
  simp [Sodium.sample,hhalf]

theorem Setting.sample_lawful : Setting.sample.Lawful := by
  constructor
  · exact Sodium.sample_lawful
  · intro n
    refine ⟨Setting.sample_signs n,?_⟩
    cases n <;> decide +kernel
  · exact fun _ => ⟨fun _ => rfl,fun _ => rfl⟩
  · exact fun n => ⟨rfl,rfl,rfl,fun _ => rfl,fun _ _ hq => (by cases hq),fun _ => rfl⟩
  · exact fun _ => rfl
  · decide
  · decide
  · exact fun _ => rfl

instance (net : Net) : Decidable net.Quiet :=
  inferInstanceAs (Decidable (∀ c n, net.flight c n = [] ∧ net.notice c n = false))

/-- One connection after the other, and the second is refused. -/
def politeDeliveries : List Delivery :=
  [.frame true false,.frame true true,.frame true false,.frame false true,.frame false false,
    .frame false true,.notice false true,.notice false false]

/-- Both finish the connection they dial before either hears the end of the other's. -/
def rashDeliveries : List Delivery :=
  [.frame true false,.frame false true,.frame true true,.frame false false,.frame true false,
    .frame false true,.notice true true,.notice true false,.notice false true,.notice false false]

set_option maxRecDepth 10000 in
theorem crossed_dials_join_polite :
    (Net.opening Setting.sample).backedRun Setting.sample politeDeliveries = true ∧
      ((Net.opening Setting.sample).run Setting.sample politeDeliveries).Quiet ∧
      ∃ c, ((Net.opening Setting.sample).run Setting.sample politeDeliveries).Joined
        Setting.sample c := by
  obtain ⟨hb,hq⟩ : (Net.opening Setting.sample).backedRun Setting.sample politeDeliveries = true ∧
      ((Net.opening Setting.sample).run Setting.sample politeDeliveries).Quiet := by
    decide +kernel
  exact ⟨hb,hq,crossed_dials_join Setting.sample_lawful politeDeliveries hb hq⟩

set_option maxRecDepth 10000 in
/-- Each node refuses the connection that the other one has finished, and neither survives. -/
theorem crossed_dials_lost : Setting.sample.Lawful ∧
    ((Net.opening Setting.sample).run Setting.sample rashDeliveries).Quiet ∧
      (∀ c n, (((Net.opening Setting.sample).run Setting.sample rashDeliveries).node n).find
        (Setting.sample.id c n) = none) ∧
      ¬ ∃ c, ((Net.opening Setting.sample).run Setting.sample rashDeliveries).Joined
        Setting.sample c := by
  obtain ⟨hq,hgone⟩ : ((Net.opening Setting.sample).run Setting.sample rashDeliveries).Quiet ∧
      ∀ c n, (((Net.opening Setting.sample).run Setting.sample rashDeliveries).node n).find
        (Setting.sample.id c n) = none := by
    decide +kernel
  refine ⟨Setting.sample_lawful,hq,hgone,?_⟩
  rintro ⟨c,hc⟩
  obtain ⟨⟨r,hr,_⟩,_⟩ := hc c
  rw [hgone c c] at hr
  cases hr

end GoodNet
