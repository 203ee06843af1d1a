import GoodNet.IceConnector
import GoodNet.Lib.Interleaving
import GoodNet.Lib.OfferAnswer
import Mathlib.Data.Multiset.MapFold
set_option autoImplicit false

/-! Two connectors that dial each other follow the protocol of offers and answers. They agree on
their roles unless both have called before an offer got through. -/

namespace GoodNet.Ice
open Codec Interleaving OfferAnswer

/-- What a session tells the other one about itself. -/
abbrev Announcement := IceCredentials × List Candidate

def fits (x y : Announcement) : Bool := pairable x.2 y.2

def SessionFace.own (f : SessionFace) : Announcement := (f.localCreds,f.localCandidates)

def SessionFace.remote (f : SessionFace) : Announcement := (f.remoteCreds,f.remoteCandidates)

def SessionFace.known (f : SessionFace) : Option Announcement :=
  if f.remoteCandidates = [] then none else some f.remote

/-- Whatever the STUN servers find, the session has something to announce. -/
def SessionFace.Ready (f : SessionFace) : Prop :=
  ∀ found : List Candidate, found.length ≤ 1 → (∀ c ∈ found, c.type = .srflx) →
    Announceable f.localCreds (f.localCandidates ++ found)

/-- The session as an end of the call. -/
inductive SessionFace.Shows (f : SessionFace) : End Announcement → Prop where
  | collecting (hg : f.Gathering) (hr : f.Ready) : Shows f (.collecting f.controlling f.known)
  | waiting (hs : f.state = .waitingRemote) (hc : f.closed = false) (hn : f.nominated = false)
      (hl : f.localCandidates ≠ []) (hr : f.remoteCandidates = []) :
      Shows f (.announced f.own f.controlling none)
  | checking (hs : f.state = .checking) (hc : f.closed = false) (hn : f.nominated = false)
      (hl : f.localCandidates ≠ []) : Shows f (.announced f.own f.controlling (some f.remote))

def ShowsEntry (entry : Option IceSession) (e : End Announcement) : Prop :=
  match entry with
  | none => e = .absent
  | some s => s.face.Shows e

def packetOf : Signal Announcement → IceSignalKind × Bytes
  | .offer x => (.offer,serializeSignal x.1 x.2)
  | .answer x => (.answer,serializeSignal x.1 x.2)

def Valid : Signal Announcement → Prop
  | .offer x => Announceable x.1 x.2
  | .answer x => Announceable x.1 x.2

/-- The signals for a peer that the channel holds. -/
def sentTo (peer : String) (outbox : List (String × Bytes)) : List (IceSignalKind × Bytes) :=
  outbox.filterMap (fun p => if p.1 = peer then readSignal p.2 else none)

def ConnectorTask.heardFrom (peer : String) : ConnectorTask → Option (IceSignalKind × Bytes)
  | .connect _ => none
  | .signal p kind data => if p = peer then some (kind,data) else none

/-- What connector `i` has sent to the other one and has not been handled there. -/
def SignalNet.inFlight (key : Bool → String) (n : SignalNet) (i : Bool) :
    List (IceSignalKind × Bytes) :=
  sentTo (key (!i)) (n i).outbox ++ (n (!i)).tasks.filterMap (ConnectorTask.heardFrom (key i))

/-- The session of connector `i` for the other one. -/
def SignalNet.session (key : Bool → String) (n : SignalNet) (i : Bool) : Option IceSession :=
  (n i).sessions (key (!i))

/-- No signal is under way and no session is still gathering. -/
def SignalNet.Quiet (key : Bool → String) (n : SignalNet) : Prop :=
  ∀ i, n.inFlight key i = [] ∧ ∀ s ∈ n.session key i, s.state ≠ .gathering

/-- Whoever has a session for the other one has been told what the other one's is reached under,
and one of the two is controlling. -/
def SignalNet.Agreed (key : Bool → String) (n : SignalNet) : Prop :=
  ∀ i, ∀ s ∈ n.session key i, ∃ t ∈ n.session key (!i), s.remoteCreds = t.localCreds ∧
    s.remoteCandidates = t.localCandidates ∧ s.controlling = !t.controlling

def ConnectorTask.isOffer (peer : String) : ConnectorTask → Bool
  | .connect _ => false
  | .signal p kind _ => p == peer && kind == .offer

/-- An offer of the other one is handled where there already is a session for it. -/
def SignalNet.glare (key : Bool → String) (n : SignalNet) : SignalEvent → Bool
  | .run i k _ _ =>
    ((n i).tasks[k]?).any (ConnectorTask.isOffer (key (!i))) && (n.session key i).isSome
  | _ => false

def NoGlare (key : Bool → String) (n : SignalNet) (e : SignalEvent) : Prop := n.glare key e = false

instance (key : Bool → String) (n : SignalNet) : Decidable (n.Quiet key) :=
  inferInstanceAs (Decidable (∀ _ : Bool, _ ∧ _))

instance (key : Bool → String) (n : SignalNet) : Decidable (n.Agreed key) :=
  inferInstanceAs (Decidable (∀ _ : Bool, _))

instance (key : Bool → String) (n : SignalNet) (e : SignalEvent) : Decidable (NoGlare key n e) :=
  inferInstanceAs (Decidable (_ = _))

structure Represents (key : Bool → String) (n : SignalNet) (c : Call Announcement) : Prop where
  ends : ∀ i, ShowsEntry (n.session key i) (c.ends i)
  flight : ∀ i, (n.inFlight key i : Multiset (IceSignalKind × Bytes)) = (c.flight i).map packetOf
  valid : ∀ i, ∀ y ∈ c.flight i, Valid y

section
variable {key : Bool → String} {n : SignalNet} {c : Call Announcement} {w : IceWorld}
  {s s' : IceSession} {f f' : SessionFace} {i : Bool}

theorem fits_comm (x y : Announcement) : fits x y = fits y x := pairable_comm x.2 y.2

theorem packetOf_announce (s : IceSession) :
    packetOf (announce s.controlling s.face.own) = (s.signalKind,s.serializeSignal) := by
  unfold announce IceSession.signalKind
  split <;> rfl

theorem calledBack_eq {before after : IceSession} (called : List IceEffect)
    (h : after.callbacks = called ++ before.callbacks) :
    calledBack before after = called.reverse := by
  rw [calledBack,h,List.length_append,Nat.add_sub_cancel,List.take_left]

theorem calledBack_face {before after : IceSession} {g : SessionFace}
    (hb : before.callbacks = f.callbacks) (hface : after.face = g) (called : List IceEffect)
    (h : g.callbacks = called ++ f.callbacks) : calledBack before after = called.reverse := by
  refine calledBack_eq called ?_
  rw [hb,← h,← hface]
  rfl

/-- A session whose callbacks leave the entry in the map shows there what it shows. -/
theorem shows_face {before after : IceSession} {g : SessionFace} {e : End Announcement}
    {called : List IceEffect} (hface : after.face = g) (hcalled : calledBack before after = called)
    (hkept : entryAfter (some after) called = some after) (hshows : g.Shows e) :
    ShowsEntry (entryAfter (some after) (calledBack before after)) e := by
  rw [hcalled,hkept]
  show after.face.Shows e
  rw [hface]
  exact hshows

theorem begun_pos (h : pairable f.localCandidates f.remoteCandidates = true) :
    f.begun = { f with state := .checking } := if_pos h

theorem begun_neg (h : ¬pairable f.localCandidates f.remoteCandidates = true) :
    f.begun = { f with state := .failed, callbacks := .onFailed :: f.callbacks } := if_neg h

theorem completed_cases (f : SessionFace) :
    (f.remoteCandidates = [] ∧ f.completed =
        { f with state := .waitingRemote, callbacks := [.onGathered] ++ f.callbacks }) ∨
      (f.remoteCandidates ≠ [] ∧ pairable f.localCandidates f.remoteCandidates = true ∧
        f.completed = { f with state := .checking, callbacks := [.onGathered] ++ f.callbacks }) ∨
      (f.remoteCandidates ≠ [] ∧ pairable f.localCandidates f.remoteCandidates = false ∧
        f.completed =
          { f with state := .failed, callbacks := [.onGathered,.onFailed] ++ f.callbacks }) := by
  unfold SessionFace.completed
  by_cases hr : f.remoteCandidates = []
  · exact .inl ⟨hr,by rw [if_pos hr]; rfl⟩
  · by_cases hp : pairable f.localCandidates f.remoteCandidates = true
    · exact .inr (.inl ⟨hr,hp,by rw [if_neg hr,begun_pos hp]; rfl⟩)
    · exact .inr (.inr ⟨hr,Bool.not_eq_true _ ▸ hp,by rw [if_neg hr,begun_neg hp]; rfl⟩)

theorem signalsOf_gathered (h : s.face.own = f.own) (hc : s.controlling = f.controlling)
    (rest : List IceEffect) (hrest : .onGathered ∉ rest) :
    signalsOf s (rest ++ [.onGathered]) = [packetOf (announce f.controlling f.own)] := by
  have hnone : rest.filter (fun e => e == IceEffect.onGathered) = [] := by
    refine List.filter_eq_nil_iff.2 fun e he hyes => hrest ?_
    rw [← beq_iff_eq.1 hyes]
    exact he
  rw [← h,← hc,packetOf_announce,signalsOf,List.filter_append,hnone]
  rfl

/-- Collecting goes on, or ends as the protocol has it. -/
theorem gathered_shows {before after : IceSession} {caller : Bool} {remote : Option Announcement}
    (h : f.Shows (.collecting caller remote)) (hb : before.callbacks = f.callbacks)
    (hg : Gathered f after.face) :
    (ShowsEntry (entryAfter (some after) (calledBack before after)) (.collecting caller remote) ∧
        signalsOf after (calledBack before after) = []) ∨
      ∃ own, Valid (announce caller own) ∧
        ShowsEntry (entryAfter (some after) (calledBack before after))
          ((End.collecting caller remote).collected fits own) ∧
        signalsOf after (calledBack before after) = [packetOf (announce caller own)] := by
  cases h with
  | collecting hgath hready =>
    cases hg with
    | goesOn heq =>
      have hnone := calledBack_face hb heq [] rfl
      refine .inl ⟨shows_face heq hnone rfl (.collecting hgath hready),?_⟩
      rw [hnone]
      rfl
    | ends found hlen htype heq =>
      have hann := hready found hlen htype
      have hsome : f.localCandidates ++ found ≠ [] := hann.some
      have hvalid : Valid (announce f.controlling (f.localCreds,f.localCandidates ++ found)) := by
        unfold announce
        split <;> exact hann
      refine .inr ⟨_,hvalid,?_⟩
      rcases completed_cases { f with localCandidates := f.localCandidates ++ found } with
        ⟨hr,hcomp⟩ | ⟨hr,hp,hcomp⟩ | ⟨hr,hp,hcomp⟩
      · have hface := heq.trans hcomp
        have hcalled := calledBack_face hb hface [.onGathered] rfl
        have hknown : f.known = none := if_pos hr
        rw [hknown]
        refine ⟨shows_face hface hcalled rfl
          (.waiting rfl hgath.closed hgath.nominated hsome hr),?_⟩
        rw [hcalled]
        exact signalsOf_gathered (congrArg SessionFace.own hface)
          (congrArg SessionFace.controlling hface) [] (by simp)
      · have hface := heq.trans hcomp
        have hcalled := calledBack_face hb hface [.onGathered] rfl
        have hknown : f.known = some f.remote := if_neg hr
        have hfits : fits (f.localCreds,f.localCandidates ++ found) f.remote = true := hp
        rw [hknown,End.collected,if_pos hfits]
        refine ⟨shows_face hface hcalled rfl
          (.checking rfl hgath.closed hgath.nominated hsome),?_⟩
        rw [hcalled]
        exact signalsOf_gathered (congrArg SessionFace.own hface)
          (congrArg SessionFace.controlling hface) [] (by simp)
      · have hface := heq.trans hcomp
        have hcalled := calledBack_face hb hface [.onGathered,.onFailed] rfl
        have hknown : f.known = some f.remote := if_neg hr
        have hfits : ¬fits (f.localCreds,f.localCandidates ++ found) f.remote = true :=
          (Bool.not_eq_true _).mpr hp
        rw [hcalled,hknown,End.collected,if_neg hfits]
        exact ⟨rfl,signalsOf_gathered (congrArg SessionFace.own hface)
          (congrArg SessionFace.controlling hface) [.onFailed] (by simp)⟩

/-- The session takes over what the other one has announced. -/
theorem informed_eq {x : Announcement} (hx : Announceable x.1 x.2) (f : SessionFace) :
    f.informed ⟨Block.ofBytes 16 x.1.ufrag,Block.ofBytes 24 x.1.pwd⟩ (x.2.map candidateToWire) =
      { f with remoteCreds := x.1, remoteCandidates := x.2 } := by
  have hufrag := upToZero_ofBytes hx.ufrag.1 hx.ufrag.2
  have hpwd := upToZero_ofBytes hx.pwd.1 hx.pwd.2
  simp only [SessionFace.informed,hufrag,hpwd,hx.candidates_eq]

theorem told_shows {x : Announcement} (hx : Announceable x.1 x.2) {e : End Announcement}
    (h : s.face.Shows e) (w : IceWorld) :
    let after := s.setRemote w ⟨Block.ofBytes 16 x.1.ufrag,Block.ofBytes 24 x.1.pwd⟩
      (x.2.map candidateToWire)
    ShowsEntry (entryAfter (some after) (calledBack s after)) (e.told fits x) ∧
      signalsOf after (calledBack s after) = [] := by
  intro after
  have hquiet : ∀ f' : SessionFace, after.face = f' → f'.callbacks = s.callbacks →
      f'.Shows (e.told fits x) →
        ShowsEntry (entryAfter (some after) (calledBack s after)) (e.told fits x) ∧
          signalsOf after (calledBack s after) = [] := by
    intro f' hface hcb hshows
    have hnone := calledBack_face (f := f') hcb.symm hface [] rfl
    refine ⟨shows_face hface hnone rfl hshows,?_⟩
    rw [hnone]
    rfl
  have hlive : s.closed = false ∧ s.nominated = false := by
    cases h with
    | collecting hg _ => exact ⟨hg.closed,hg.nominated⟩
    | waiting _ hc hn => exact ⟨hc,hn⟩
    | checking _ hc hn => exact ⟨hc,hn⟩
  have hset := setRemote_face w ⟨Block.ofBytes 16 x.1.ufrag,Block.ofBytes 24 x.1.pwd⟩
    (x.2.map candidateToWire) hlive.1 hlive.2
  rw [informed_eq hx] at hset
  cases h with
  | collecting hg hready =>
    have hstate : s.state = .gathering := hg.state
    rw [if_neg (by rw [hstate]; decide)] at hset
    refine hquiet _ hset rfl ?_
    have hknown : ({ s.face with remoteCreds := x.1, remoteCandidates := x.2 } :
        SessionFace).known = some x := if_neg hx.some
    have hshows := SessionFace.Shows.collecting
      (f := { s.face with remoteCreds := x.1, remoteCandidates := x.2 })
      ⟨hg.state,hg.closed,hg.nominated⟩ hready
    rw [hknown] at hshows
    exact hshows
  | waiting hs hc hn hl hr =>
    have hstate : s.state = .waitingRemote := hs
    rw [if_pos hstate] at hset
    by_cases hp : pairable s.localCandidates x.2 = true
    · rw [begun_pos hp] at hset
      refine hquiet _ hset rfl ?_
      have hfits : fits s.face.own x = true := hp
      rw [End.told,if_pos hfits]
      exact .checking (f := { s.face with
        state := .checking, remoteCreds := x.1, remoteCandidates := x.2 }) rfl hc hn hl
    · rw [begun_neg hp] at hset
      have hfailed : calledBack s after = [.onFailed] :=
        calledBack_eq [.onFailed] (congrArg SessionFace.callbacks hset)
      have hfits : ¬fits s.face.own x = true := hp
      rw [hfailed,End.told,if_neg hfits]
      exact ⟨rfl,rfl⟩
  | checking hs hc hn hl =>
    have hstate : s.state = .checking := hs
    rw [if_neg (by rw [hstate]; decide)] at hset
    refine hquiet _ hset rfl ?_
    exact .checking (f := { s.face with remoteCreds := x.1, remoteCandidates := x.2 }) hs hc hn hl

theorem readSignal_packetOf {y : Signal Announcement} (h : Valid y) :
    readSignal (signalPacket (packetOf y).1 (packetOf y).2) = some (packetOf y) := by
  cases y with
  | offer x => exact h.readSignal rfl
  | answer x => exact h.readSignal rfl

theorem sentTo_packets {peer : String} {signals : List (Signal Announcement)}
    (h : ∀ y ∈ signals, Valid y) :
    sentTo peer ((signals.map packetOf).map fun k => (peer,signalPacket k.1 k.2)) =
      signals.map packetOf := by
  induction signals with
  | nil => rfl
  | cons y rest ih =>
    have hrest := ih fun z hz => h z (List.mem_cons_of_mem y hz)
    simp only [sentTo,List.map_cons,List.filterMap_cons,if_true,
      readSignal_packetOf (h y List.mem_cons_self)] at hrest ⊢
    rw [hrest]

theorem sentTo_other {peer peer' : String} (hne : peer ≠ peer')
    (sent : List (IceSignalKind × Bytes)) :
    sentTo peer' (sent.map fun k => (peer,signalPacket k.1 k.2)) = [] := by
  simp [sentTo,hne]

theorem sentTo_append (peer : String) (l l' : List (String × Bytes)) :
    sentTo peer (l ++ l') = sentTo peer l ++ sentTo peer l' := List.filterMap_append

theorem inFlight_update (c' : IceConnector) (i : Bool) :
    SignalNet.inFlight key (Function.update n i c') i = sentTo (key (!i)) c'.outbox ++
      (n (!i)).tasks.filterMap (ConnectorTask.heardFrom (key i)) := by
  simp [SignalNet.inFlight]

theorem inFlight_update_other (c' : IceConnector) (i : Bool) :
    SignalNet.inFlight key (Function.update n i c') (!i) = sentTo (key i) (n (!i)).outbox ++
      c'.tasks.filterMap (ConnectorTask.heardFrom (key (!i))) := by
  simp [SignalNet.inFlight]

theorem inFlight_other (n : SignalNet) (i : Bool) :
    n.inFlight key (!i) = sentTo (key i) (n (!i)).outbox ++
      (n i).tasks.filterMap (ConnectorTask.heardFrom (key (!i))) := by
  simp [SignalNet.inFlight]

theorem session_update (c' : IceConnector) (i : Bool) :
    SignalNet.session key (Function.update n i c') i = c'.sessions (key (!i)) := by
  simp [SignalNet.session]

theorem session_update_other (c' : IceConnector) (i : Bool) :
    SignalNet.session key (Function.update n i c') (!i) = n.session key (!i) := by
  simp [SignalNet.session]

/-- Work for the other connector moves one end of the call. -/
theorem Represents.turn {c' : IceConnector} {entry : Option IceSession} {e : End Announcement}
    (h : Represents key n c) (signals : List (Signal Announcement))
    (ht : Turn (key (!i)) (n i) c' entry (signals.map packetOf)) (he : ShowsEntry entry e)
    (hv : ∀ y ∈ signals, Valid y) : Represents key (Function.update n i c')
      ((c.setEnd i e).setFlight i (signals + c.flight i)) where
  ends := by
    refine both (i := i) ?_ ?_
    · rw [session_update,ht.entry]
      simpa using he
    · rw [session_update_other]
      simpa using h.ends (!i)
  flight := by
    refine both (i := i) ?_ ?_
    · have hold := h.flight i
      rw [SignalNet.inFlight,← Multiset.coe_add] at hold
      rw [inFlight_update,ht.outbox,sentTo_append,sentTo_packets hv,setFlight_flight,
        Multiset.map_add,Multiset.map_coe,← hold,← Multiset.coe_add,← Multiset.coe_add]
      exact (congrArg (· + _) (Multiset.add_comm _ _)).trans (Multiset.add_assoc _ _ _)
    · have hold := h.flight (!i)
      rw [inFlight_other] at hold
      rw [inFlight_update_other,ht.tasks,hold]
      simp
  valid := by
    refine both (i := i) ?_ ?_
    · intro y hy
      rw [setFlight_flight] at hy
      rcases Multiset.mem_add.1 hy with hy | hy
      · exact hv y hy
      · exact h.valid i y hy
    · intro y hy
      refine h.valid (!i) y ?_
      simpa using hy

/-- Work for anybody else leaves the call alone. -/
theorem Represents.elsewhere {c' : IceConnector} {peer : String} {entry : Option IceSession}
    {sent : List (IceSignalKind × Bytes)} (h : Represents key n c)
    (ht : Turn peer (n i) c' entry sent) (hne : peer ≠ key (!i)) :
    Represents key (Function.update n i c') c where
  ends := by
    refine both (i := i) ?_ ?_
    · rw [session_update,ht.sessions,Function.update_of_ne hne.symm]
      exact h.ends i
    · rw [session_update_other]
      exact h.ends (!i)
  flight := by
    refine both (i := i) ?_ ?_
    · rw [inFlight_update,ht.outbox,sentTo_append,sentTo_other hne,List.append_nil]
      exact h.flight i
    · have hold := h.flight (!i)
      rw [inFlight_other] at hold
      rw [inFlight_update_other,ht.tasks,hold]
  valid := h.valid

theorem Represents.congr {n' : SignalNet} (h : Represents key n c)
    (hs : ∀ i, n'.session key i = n.session key i)
    (hf : ∀ i, (n'.inFlight key i : Multiset (IceSignalKind × Bytes)) = n.inFlight key i) :
    Represents key n' c where
  ends := fun i => by rw [hs i]; exact h.ends i
  flight := fun i => (hf i).trans (h.flight i)
  valid := h.valid

theorem filterMap_eraseIdx {α β : Type} {g : α → Option β} {l : List α} {k : Nat} {x : α}
    (h : l[k]? = some x) (hg : g x = none) : (l.eraseIdx k).filterMap g = l.filterMap g := by
  induction l generalizing k with
  | nil => cases h
  | cons a l ih =>
    cases k with
    | zero =>
      cases h
      rw [List.eraseIdx_cons_zero,List.filterMap_cons_none hg]
    | succ k => rw [List.eraseIdx_cons_succ,List.filterMap_cons,List.filterMap_cons,ih h]

/-- An entry of a queue that counts is one more than the others. -/
theorem filterMap_perm {α β : Type} {g : α → Option β} {l : List α} {k : Nat} {x : α} {y : β}
    (h : l[k]? = some x) (hg : g x = some y) :
    (l.filterMap g).Perm (y :: (l.eraseIdx k).filterMap g) := by
  obtain ⟨hk,hget⟩ := List.getElem?_eq_some_iff.1 h
  have hperm := (List.getElem_cons_eraseIdx_perm hk).filterMap g
  rw [hget,List.filterMap_cons_some hg] at hperm
  exact hperm.symm

/-- A task that is no signal of the other connector is taken. -/
theorem Represents.other_task (h : Represents key n c) {k : Nat} {task : ConnectorTask}
    (hk : (n i).tasks[k]? = some task) (hno : task.heardFrom (key (!i)) = none) :
    Represents key (Function.update n i { n i with tasks := (n i).tasks.eraseIdx k }) c := by
  refine h.congr (both (i := i) ?_ ?_) (both (i := i) ?_ ?_)
  · exact session_update _ i
  · exact session_update_other _ i
  · rw [inFlight_update,SignalNet.inFlight]
  · rw [inFlight_update_other,inFlight_other,filterMap_eraseIdx hk hno]

theorem Represents.take (h : Represents key n c) {k : Nat} {kind : IceSignalKind} {data : Bytes}
    (hk : (n i).tasks[k]? = some (.signal (key (!i)) kind data)) :
    ∃ y f, c.flight (!i) = y ::ₘ f ∧ packetOf y = (kind,data) ∧ Valid y ∧
      Represents key (Function.update n i { n i with tasks := (n i).tasks.eraseIdx k })
        (c.setFlight (!i) f) := by
  have hheard : (ConnectorTask.signal (key (!i)) kind data).heardFrom (key (!i)) =
      some (kind,data) := if_pos rfl
  have hperm := filterMap_perm hk hheard
  have hold := h.flight (!i)
  rw [inFlight_other,← Multiset.coe_add,Multiset.coe_eq_coe.2 hperm,← Multiset.cons_coe,
    Multiset.add_cons] at hold
  obtain ⟨y,hy,hpacket,hrest⟩ := (Multiset.map_eq_cons _ _ _ _).2 hold.symm
  refine ⟨y,(c.flight (!i)).erase y,(Multiset.cons_erase hy).symm,hpacket,h.valid _ y hy,?_⟩
  refine ⟨both (i := i) ?_ ?_,both (i := i) ?_ ?_,both (i := i) ?_ ?_⟩
  · rw [session_update]
    exact h.ends i
  · rw [session_update_other]
    exact h.ends (!i)
  · rw [inFlight_update,setFlight_not]
    exact h.flight i
  · rw [inFlight_update_other,setFlight_flight,hrest,← Multiset.coe_add]
  · rw [setFlight_not]
    exact h.valid i
  · intro z hz
    rw [setFlight_flight] at hz
    exact h.valid _ z (Multiset.mem_of_mem_erase hz)

theorem Represents.connect (h : Represents key n c) (i : Bool) (uri : String) :
    Represents key (Function.update n i ((n i).doConnect uri)) c := by
  have hkept : ((n i).doConnect uri).sessions = (n i).sessions ∧
      ((n i).doConnect uri).outbox = (n i).outbox ∧
        ((n i).doConnect uri).tasks.filterMap (ConnectorTask.heardFrom (key (!i))) =
          (n i).tasks.filterMap (ConnectorTask.heardFrom (key (!i))) := by
    unfold IceConnector.doConnect
    dsimp only
    split
    · exact ⟨rfl,rfl,rfl⟩
    · refine ⟨rfl,rfl,?_⟩
      rw [List.filterMap_append]
      exact List.append_nil _
  refine h.congr (both (i := i) ?_ ?_) (both (i := i) ?_ ?_)
  · rw [session_update,hkept.1]
    rfl
  · exact session_update_other _ i
  · rw [inFlight_update,hkept.2.1,SignalNet.inFlight]
  · rw [inFlight_update_other,inFlight_other,hkept.2.2]

theorem onIceSignal_heard (c : IceConnector) (peer : String) (pl : Bytes) :
    (c.onIceSignal peer pl).tasks.filterMap (ConnectorTask.heardFrom peer) =
      c.tasks.filterMap (ConnectorTask.heardFrom peer) ++ (readSignal pl).toList := by
  unfold IceConnector.onIceSignal
  cases readSignal pl with
  | none => exact (List.append_nil _).symm
  | some y =>
    rw [List.filterMap_append]
    simp [ConnectorTask.heardFrom]

theorem onIceSignal_kept (c : IceConnector) (peer : String) (pl : Bytes) :
    (c.onIceSignal peer pl).sessions = c.sessions ∧
      (c.onIceSignal peer pl).outbox = c.outbox := by
  unfold IceConnector.onIceSignal
  split <;> exact ⟨rfl,rfl⟩

/-- A packet that leaves the channel waits to be handled, unless it was for somebody else. -/
theorem Represents.deliver (h : Represents key n c) (i : Bool) (k : Nat) :
    Represents key (n.act key (.deliver i k)) c := by
  simp only [SignalNet.act]
  cases hk : (n i).outbox[k]? with
  | none => exact h
  | some p =>
    obtain ⟨peer,pl⟩ := p
    dsimp only
    have hout : ∀ {g : Option (IceSignalKind × Bytes)}, g = (if peer = key (!i) then readSignal pl
        else none) → (sentTo (key (!i)) (n i).outbox).Perm
          (g.toList ++ sentTo (key (!i)) ((n i).outbox.eraseIdx k)) := by
      intro g hg
      cases g with
      | none => rw [sentTo,sentTo,filterMap_eraseIdx hk hg.symm]; exact .refl _
      | some y => exact filterMap_perm hk hg.symm
    split
    · rename_i hpeer
      rw [if_pos hpeer] at hout
      have hthere : Function.update n i { n i with outbox := (n i).outbox.eraseIdx k } (!i) =
          n (!i) := Function.update_of_ne (by simp) _ _
      rw [hthere]
      have hheard := onIceSignal_heard (n (!i)) (key i) pl
      have hkept := onIceSignal_kept (n (!i)) (key i) pl
      refine h.congr (both (i := i) ?_ ?_) (both (i := i) ?_ ?_)
      · simp [SignalNet.session]
      · simp [SignalNet.session,hkept.1]
      · refine Multiset.coe_eq_coe.2 ?_
        have hout := hout rfl
        have hhere : Function.update (Function.update n i
            { n i with outbox := (n i).outbox.eraseIdx k }) (!i)
            ((n (!i)).onIceSignal (key i) pl) i =
              { n i with outbox := (n i).outbox.eraseIdx k } := by
          simp
        simp only [SignalNet.inFlight,Function.update_self,hheard,hhere]
        rw [← List.append_assoc]
        refine List.perm_append_comm.trans ?_
        rw [← List.append_assoc]
        exact hout.symm.append_right _
      · simp [SignalNet.inFlight,hkept.2]
    · rename_i hpeer
      rw [if_neg hpeer] at hout
      refine h.congr (both (i := i) ?_ ?_) (both (i := i) ?_ ?_)
      · exact session_update _ i
      · exact session_update_other _ i
      · rw [inFlight_update,SignalNet.inFlight]
        exact Multiset.coe_eq_coe.2 ((hout rfl).symm.append_right _)
      · rw [inFlight_update_other,inFlight_other]

theorem setEnd_self (c : Call Announcement) (i : Bool) : c.setEnd i (c.ends i) = c := by
  simp [Call.setEnd]

theorem setFlight_self (c : Call Announcement) (i : Bool) : c.setFlight i (c.flight i) = c := by
  simp [Call.setFlight]

theorem shows_present {called : List IceEffect} {e : End Announcement}
    (h : ShowsEntry (entryAfter (some s) called) e) (he : e ≠ .absent) :
    entryAfter (some s) called = some s ∧ s.face.Shows e := by
  unfold entryAfter at h ⊢
  split
  · rename_i hfailed
    rw [if_pos hfailed] at h
    exact absurd h he
  · rename_i hfine
    rw [if_neg hfine] at h
    exact ⟨rfl,h⟩

/-- The work has done what some steps of the protocol do. -/
def Follows (key : Bool → String) (n : SignalNet) (c : Call Announcement) (b : Bool) : Prop :=
  ∃ c', Represents key n c' ∧ ∀ {a : Bool} {d : Call Announcement}, Run fits a d c →
    Run fits (a || b) d c'

theorem Follows.same (h : Represents key n c) : Follows key n c false :=
  ⟨c,h,fun hrun => by rw [Bool.or_false]; exact hrun⟩

theorem Follows.step {b : Bool} {c' : Call Announcement} (h : Represents key n c')
    (hs : Step fits b c c') : Follows key n c b := ⟨c',h,fun hrun => hrun.step hs⟩

theorem setEnd_idem (c : Call Announcement) (i : Bool) (e e' : End Announcement) :
    (c.setEnd i e).setEnd i e' = c.setEnd i e' := by
  simp [Call.setEnd]

/-- An end that collects, or has just announced itself. -/
def Collects (key : Bool → String) (n : SignalNet) (c : Call Announcement) (i caller : Bool)
    (remote : Option Announcement) : Prop :=
  Represents key n (c.setEnd i (.collecting caller remote)) ∨
    ∃ own, Represents key n ((c.setEnd i ((End.collecting caller remote).collected fits
      own)).setFlight i (announce caller own ::ₘ c.flight i))

theorem Collects.follows {caller : Bool} {remote : Option Announcement} {c₀ : Call Announcement}
    (h : Collects key n c i caller remote)
    (hrun : ∀ {a : Bool} {d : Call Announcement}, Run fits a d c₀ →
      Run fits a d (c.setEnd i (.collecting caller remote))) : Follows key n c₀ false := by
  rcases h with h | ⟨own,h⟩
  · refine ⟨_,h,fun hr => ?_⟩
    rw [Bool.or_false]
    exact hrun hr
  · refine ⟨_,h,fun hr => ?_⟩
    have hdone := (hrun hr).step (.announce own (setEnd_ends _ _ _))
    rw [setEnd_ends,setEnd_idem] at hdone
    exact hdone

/-- A session that gathers goes on, or is done with it. -/
theorem Represents.gathered {c' : IceConnector} {before after : IceSession} {caller : Bool}
    {remote : Option Announcement} (h : Represents key n c)
    (hshow : f.Shows (.collecting caller remote)) (hb : before.callbacks = f.callbacks)
    (hg : Gathered f after.face)
    (ht : Turn (key (!i)) (n i) c' (entryAfter (some after) (calledBack before after))
      (signalsOf after (calledBack before after))) :
    Collects key (Function.update n i c') c i caller remote := by
  rcases gathered_shows hshow hb hg with ⟨hentry,hsent⟩ | ⟨own,hvalid,hentry,hsent⟩
  · rw [hsent] at ht
    have hnext := h.turn [] ht hentry (by simp)
    rw [Multiset.coe_nil,Multiset.zero_add] at hnext
    exact .inl (setFlight_self (c.setEnd i (.collecting caller remote)) i ▸ hnext)
  · rw [hsent] at ht
    exact .inr ⟨own,h.turn [announce caller own] ht hentry (by simpa using hvalid)⟩

theorem Represents.gather (h : Represents key n c) (i : Bool) (peer : String) (e : IceEvent)
    (w : IceWorld) : Follows key (n.act key (.gather i peer e w)) c false := by
  simp only [SignalNet.act]
  cases hs : (n i).sessions peer with
  | none => exact .same h
  | some s =>
    dsimp only
    split
    · rename_i hgathers
      have ht := update_turn (n i) peer s (s.act w e)
      rw [hs] at ht
      by_cases hpeer : peer = key (!i)
      · subst hpeer
        have hend : s.face.Shows (c.ends i) := by
          have hentry := h.ends i
          rw [SignalNet.session,hs] at hentry
          exact hentry
        cases he : c.ends i with
        | collecting caller remote =>
          rw [he] at hend
          have hgath : s.face.Gathering := by
            cases hend with
            | collecting hg hr => exact hg
          refine (h.gathered hend rfl (act_gathered w hgath hgathers.2) ht).follows fun hr => ?_
          rw [← he,setEnd_self]
          exact hr
        | absent =>
          rw [he] at hend
          cases hend
        | announced own caller remote =>
          rw [he] at hend
          have hstate : s.face.state = .gathering := hgathers.1
          cases hend with
          | waiting hs' => rw [hs'] at hstate; cases hstate
          | checking hs' => rw [hs'] at hstate; cases hstate
      · exact .same (h.elsewhere ht hpeer)
    · exact .same h

/-- A session that has just been created has a host candidate to begin with. -/
theorem created_shows (controlling : Bool) (config : IceConfig) (draw : SessionDraw)
    {host : Candidate} (hhost : host.type = .host) :
    ({ (IceSession.create controlling config draw.ufrag draw.pwd draw.tieBreaker).face with
      state := .gathering, localCandidates := [host] } : SessionFace).Shows
        (.collecting controlling none) := by
  refine .collecting (f := { (IceSession.create controlling config draw.ufrag draw.pwd
    draw.tieBreaker).face with state := .gathering, localCandidates := [host] }) ⟨rfl,rfl,rfl⟩
    fun found hlen htype => ?_
  obtain ⟨hufrag,hufrag'⟩ := randomAlphanumeric_valid draw.ufrag 16
  obtain ⟨hpwd,hpwd'⟩ := randomAlphanumeric_valid draw.pwd 24
  refine ⟨⟨hufrag.le,hufrag'⟩,⟨hpwd.le,hpwd'⟩,List.cons_ne_nil _ _,?_,fun c hc => ?_⟩
  · show found.length+1 < 65536
    omega
  · rcases List.mem_cons.1 hc with rfl | hc
    · exact .inl hhost
    · exact .inr (htype c hc)

theorem absent_of_none (h : Represents key n c) (hs : (n i).sessions (key (!i)) = none) :
    c.ends i = .absent := by
  have hentry := h.ends i
  rw [SignalNet.session,hs] at hentry
  exact hentry

/-- The connector calls, unless it has a session already. -/
theorem Represents.dial (h : Represents key n c) (i : Bool) (draw : SessionDraw) (w : IceWorld) :
    Follows key (Function.update n i ((n i).runTask w draw (.connect (key (!i))))) c false := by
  simp only [IceConnector.runTask]
  by_cases hs : (n i).sessions (key (!i)) = none
  · obtain ⟨c',heq,ht⟩ := createSession_turn w draw hs true
    rw [heq]
    dsimp only
    obtain ⟨host,hhost,hg⟩ := gather_gathered w true (n i).config draw.ufrag draw.pwd
      draw.tieBreaker
    refine (h.gathered (created_shows true (n i).config draw hhost) rfl hg ht).follows fun hr => ?_
    simpa using hr.step (.dial (absent_of_none h hs))
  · rw [createSession_none hs]
    dsimp only
    rw [Function.update_eq_self]
    exact .same h

theorem none_of_absent (h : Represents key n c) (he : c.ends i = .absent) :
    (n i).sessions (key (!i)) = none := by
  have hentry := h.ends i
  rw [SignalNet.session,he] at hentry
  cases hs : (n i).sessions (key (!i)) with
  | none => rfl
  | some s =>
    rw [hs] at hentry
    cases hentry

/-- A session that the other one's offer has created is told what is in the offer. -/
theorem Represents.created_told {c' : IceConnector} {created s : IceSession} {x : Announcement}
    (h : Represents key n c) (hshow : f.Shows (.collecting false none))
    (hb : created.callbacks = f.callbacks) (hg : Gathered f s.face)
    (ht : Turn (key (!i)) (n i) c' (entryAfter (some s) (calledBack created s))
      (signalsOf s (calledBack created s))) (hx : Announceable x.1 x.2) (w : IceWorld) :
    Collects key (Function.update n i (c'.update (key (!i)) s (s.setRemote w
      ⟨Block.ofBytes 16 x.1.ufrag,Block.ofBytes 24 x.1.pwd⟩ (x.2.map candidateToWire)))) c i false
        (some x) := by
  have hthen := update_turn c' (key (!i)) s (s.setRemote w
    ⟨Block.ofBytes 16 x.1.ufrag,Block.ofBytes 24 x.1.pwd⟩ (x.2.map candidateToWire))
  rcases gathered_shows hshow hb hg with ⟨hentry,hsent⟩ | ⟨own,hvalid,hentry,hsent⟩
  · obtain ⟨hsome,hface⟩ := shows_present hentry (by simp)
    obtain ⟨htold,hnothing⟩ := told_shows hx hface w
    rw [hsome,hsent] at ht
    rw [ht.entry,Option.map_some,hnothing] at hthen
    have hnext := h.turn [] (ht.trans hthen) htold (by simp)
    rw [Multiset.coe_nil,Multiset.zero_add] at hnext
    exact .inl (setFlight_self (c.setEnd i (.collecting false (some x))) i ▸ hnext)
  · obtain ⟨hsome,hface⟩ := shows_present hentry (by simp [End.collected])
    obtain ⟨htold,hnothing⟩ := told_shows hx hface w
    rw [hsome,hsent] at ht
    rw [ht.entry,Option.map_some,hnothing] at hthen
    exact .inr ⟨own,h.turn [announce false own] (ht.trans hthen) htold
      (by simpa using hvalid)⟩

/-- An offer is handled: where there is no session, one is created, gathers and is told. -/
theorem Represents.offered {x : Announcement} {g : Multiset (Signal Announcement)}
    (h : Represents key n (c.setFlight (!i) g)) (hf : c.flight (!i) = .offer x ::ₘ g)
    (hx : Announceable x.1 x.2) (draw : SessionDraw) (w : IceWorld) :
    Follows key (Function.update n i
      ((n i).runTask w draw (.signal (key (!i)) .offer (serializeSignal x.1 x.2)))) c
      ((n i).sessions (key (!i))).isSome := by
  simp only [IceConnector.runTask,parseSignal_serialize x.1 hx.count,if_true]
  by_cases hs : (n i).sessions (key (!i)) = none
  · obtain ⟨c',heq,ht⟩ := createSession_turn w draw hs false
    rw [heq,hs]
    obtain ⟨host,hhost,hg⟩ := gather_gathered w false (n i).config draw.ufrag draw.pwd
      draw.tieBreaker
    have hcollects := h.created_told (created_shows false (n i).config draw hhost) rfl hg ht hx w
    have hend := absent_of_none h hs
    refine hcollects.follows fun hr => ?_
    simpa using hr.step (.offer hend hf)
  · rw [createSession_none hs]
    dsimp only
    rw [Function.update_eq_self,Option.isSome_iff_ne_none.2 hs]
    exact .step h (.glare (fun he => hs (none_of_absent h he)) hf)

/-- An answer is handled: the session it is for, if there is one, is told. -/
theorem Represents.answered {x : Announcement} {g : Multiset (Signal Announcement)}
    (h : Represents key n (c.setFlight (!i) g)) (hf : c.flight (!i) = .answer x ::ₘ g)
    (hx : Announceable x.1 x.2) (draw : SessionDraw) (w : IceWorld) :
    Follows key (Function.update n i
      ((n i).runTask w draw (.signal (key (!i)) .answer (serializeSignal x.1 x.2)))) c false := by
  have hoffer : ¬IceSignalKind.answer = .offer := by decide
  simp only [IceConnector.runTask,parseSignal_serialize x.1 hx.count,hoffer,if_false]
  have hends : (c.setFlight (!i) g).ends i = c.ends i := rfl
  refine Follows.step ?_ (.answer hf)
  cases hs : (n i).sessions (key (!i)) with
  | none =>
    have hend := absent_of_none h hs
    have hsame := setEnd_self (c.setFlight (!i) g) i
    rw [hend] at hsame
    rw [← hends,hend,Function.update_eq_self]
    exact hsame.symm ▸ h
  | some s =>
    have hentry := h.ends i
    rw [SignalNet.session,hs] at hentry
    obtain ⟨htold,hnothing⟩ := told_shows hx hentry w
    have ht := update_turn (n i) (key (!i)) s (s.setRemote w
      ⟨Block.ofBytes 16 x.1.ufrag,Block.ofBytes 24 x.1.pwd⟩ (x.2.map candidateToWire))
    rw [hs,Option.map_some,hnothing] at ht
    have hnext := h.turn [] ht htold (by simp)
    rw [Multiset.coe_nil,Multiset.zero_add] at hnext
    exact setFlight_self ((c.setFlight (!i) g).setEnd i ((c.ends i).told fits x)) i ▸ hnext

theorem Represents.run (h : Represents key n c) (i : Bool) (k : Nat) (draw : SessionDraw)
    (w : IceWorld) :
    Follows key (n.act key (.run i k draw w)) c (n.glare key (.run i k draw w)) := by
  simp only [SignalNet.act,SignalNet.glare]
  cases hk : (n i).tasks[k]? with
  | none => exact .same h
  | some task =>
    rw [Option.any_some]
    dsimp only
    generalize hn : Function.update n i { n i with tasks := (n i).tasks.eraseIdx k } = taken
    have hhere : ({ n i with tasks := (n i).tasks.eraseIdx k } : IceConnector) = taken i := by
      rw [← hn,Function.update_self]
    have hupdate : ∀ c' : IceConnector, Function.update n i c' = Function.update taken i c' := by
      intro c'
      rw [← hn,Function.update_idem]
    have hsessions : (n i).sessions = (taken i).sessions := by rw [← hhere]
    rw [hhere,hupdate,SignalNet.session,hsessions]
    by_cases hpeer : task.peer = key (!i)
    · cases task with
      | connect peer =>
        have htaken := hn ▸ h.other_task hk rfl
        obtain rfl : peer = key (!i) := hpeer
        exact htaken.dial i draw w
      | signal peer kind data =>
        obtain rfl : peer = key (!i) := hpeer
        obtain ⟨y,g,hf,hpacket,hvalid,htaken⟩ := h.take hk
        rw [hn] at htaken
        cases y with
        | offer x =>
          cases hpacket
          simpa [ConnectorTask.isOffer] using htaken.offered hf hvalid draw w
        | answer x =>
          cases hpacket
          have hno : ConnectorTask.isOffer (key (!i))
              (.signal (key (!i)) .answer (serializeSignal x.1 x.2)) = false := by
            simp [ConnectorTask.isOffer]
          rw [hno,Bool.false_and]
          exact htaken.answered hf hvalid draw w
    · have hheard : task.heardFrom (key (!i)) = none ∧ task.isOffer (key (!i)) = false := by
        cases task with
        | connect peer => exact ⟨rfl,rfl⟩
        | signal peer kind data =>
          have hne : ¬peer = key (!i) := hpeer
          exact ⟨if_neg hne,by simp [ConnectorTask.isOffer,hne]⟩
      rw [hheard.2,Bool.false_and]
      have htaken := hn ▸ h.other_task hk hheard.1
      obtain ⟨entry,sent,ht⟩ := runTask_turn w draw (taken i) task
      exact .same (htaken.elsewhere ht hpeer)

/-- Whatever happens in the net follows the protocol. -/
theorem Represents.act (h : Represents key n c) (e : SignalEvent) :
    Follows key (n.act key e) c (n.glare key e) := by
  cases e with
  | connect i uri => exact .same (h.connect i uri)
  | run i k draw w => exact h.run i k draw w
  | deliver i k => exact .same (h.deliver i k)
  | gather i peer e w => exact h.gather i peer e w

theorem init_represents (key : Bool → String) (config : Bool → IceConfig) :
    Represents key (fun i => .init (config i)) Call.idle :=
  ⟨fun _ => rfl,fun _ => rfl,fun _ y hy => absurd hy (Multiset.notMem_zero y)⟩

/-- A run of the net is a run of the protocol, marked when there has been a glare. -/
theorem Represents.follows (h : Represents key n c) (events : List SignalEvent) :
    ∃ b, Follows key (Interleaving.run (SignalNet.act key) n events) c b ∧
      (b = false ↔ Along (SignalNet.act key) (NoGlare key) n events) := by
  induction events generalizing n c with
  | nil => exact ⟨false,.same h,fun _ => trivial,fun _ => rfl⟩
  | cons e rest ih =>
    obtain ⟨c',hc',hrun⟩ := h.act e
    obtain ⟨b,⟨d,hd,hrun'⟩,hb⟩ := ih hc'
    refine ⟨n.glare key e || b,⟨d,hd,fun hr => ?_⟩,?_⟩
    · rw [← Bool.or_assoc]
      exact hrun' (hrun hr)
    · rw [Bool.or_eq_false_iff,hb]
      exact Iff.rfl

theorem Represents.quiet (h : Represents key n c) (hq : n.Quiet key) : c.Quiet := by
  intro i
  constructor
  · have hflight := h.flight i
    rw [(hq i).1] at hflight
    exact Multiset.map_eq_zero.1 hflight.symm
  · intro caller remote he
    have hentry := h.ends i
    rw [he] at hentry
    cases hs : n.session key i with
    | none =>
      rw [hs] at hentry
      cases hentry
    | some s =>
      rw [hs] at hentry
      cases hentry with
      | collecting hg hr => exact (hq i).2 s hs hg.state

/-- Ends that have announced themselves are sessions that say the same. -/
theorem shows_announced {own x : Announcement} {caller : Bool}
    (h : f.Shows (.announced own caller (some x))) :
    f.own = own ∧ f.controlling = caller ∧ f.remote = x := by
  cases h with
  | checking => exact ⟨rfl,rfl,rfl⟩

theorem settled_shows {e : End Announcement} (h : s.face.Shows e) (hs : s.state ≠ .gathering) :
    s.localCandidates ≠ [] ∧ (s.remoteCandidates ≠ [] →
      e = .announced s.face.own s.controlling (some s.face.remote)) := by
  cases h with
  | collecting hg hr => exact absurd hg.state hs
  | waiting _ _ _ hl hr => exact ⟨hl,fun hsome => absurd hr hsome⟩
  | checking _ _ _ hl => exact ⟨hl,fun _ => rfl⟩

theorem Represents.agreed_iff (h : Represents key n c) (hq : n.Quiet key) :
    n.Agreed key ↔ c.Agreed := by
  have hquiet := h.quiet hq
  constructor
  · intro ha i hi
    cases hs : n.session key i with
    | none =>
      have hentry := h.ends i
      rw [hs] at hentry
      exact absurd hentry hi
    | some s =>
      obtain ⟨t,ht,hcreds,hcands,hrole⟩ := ha i s hs
      obtain ⟨s',hs',hcreds',hcands',-⟩ := ha (!i) t ht
      rw [Bool.not_not,hs] at hs'
      cases hs'
      have hshow := h.ends i
      rw [hs] at hshow
      have hshow' := h.ends (!i)
      rw [ht] at hshow'
      obtain ⟨hlocal,hsettled⟩ := settled_shows hshow ((hq i).2 s hs)
      obtain ⟨hlocal',hsettled'⟩ := settled_shows hshow' ((hq (!i)).2 t ht)
      have hremote : s.face.remote = t.face.own := Prod.ext hcreds hcands
      have hremote' : t.face.remote = s.face.own := Prod.ext hcreds' hcands'
      refine ⟨s.face.own,s.controlling,s.face.remote,hsettled (hcands ▸ hlocal'),?_⟩
      rw [hsettled' (hcands' ▸ hlocal),hremote,hremote',hrole,Bool.not_not]
  · intro ha i s hs
    have hshow := h.ends i
    rw [show n.session key i = some s from hs] at hshow
    have hpresent : c.ends i ≠ .absent := by
      intro he
      rw [he] at hshow
      cases hshow
    obtain ⟨own,caller,x,he,he'⟩ := ha i hpresent
    rw [he] at hshow
    have hshow' := h.ends (!i)
    rw [he'] at hshow'
    cases ht : n.session key (!i) with
    | none =>
      rw [ht] at hshow'
      cases hshow'
    | some t =>
      rw [ht] at hshow'
      obtain ⟨hown,hcaller,hremote⟩ := shows_announced hshow
      obtain ⟨hown',hcaller',hremote'⟩ := shows_announced hshow'
      have hknown : s.face.remote = t.face.own := hremote.trans hown'.symm
      refine ⟨t,rfl,congrArg Prod.fst hknown,congrArg Prod.snd hknown,?_⟩
      have hrole : s.controlling = caller := hcaller
      have hrole' : t.controlling = !caller := hcaller'
      rw [hrole,hrole',Bool.not_not]

end

/-- When the net has come to rest, the two connectors agree if and only if no offer has met a
session: each session has been told the credentials and candidates of the other one's, and exactly
one of the two is controlling. -/
theorem agreed_iff_no_glare (key : Bool → String) (config : Bool → IceConfig)
    (events : List SignalEvent) :
    let start : SignalNet := fun i => .init (config i)
    let n := run (SignalNet.act key) start events
    n.Quiet key → (n.Agreed key ↔ Along (SignalNet.act key) (NoGlare key) start events) := by
  intro start n hq
  obtain ⟨b,⟨c,hc,hrun⟩,hb⟩ := (init_represents key config).follows events
  have hfull : Run fits b Call.idle c := by
    simpa using hrun (Run.refl Call.idle)
  rw [hc.agreed_iff hq,hfull.agreed_iff fits_comm (hc.quiet hq),hb]

def netKey (i : Bool) : String :=
  if i then "b0b0b0b0b0b0b0b0b0b0b0b0b0b0b0b0b0b0b0b0b0b0b0b0b0b0b0b0b0b0b0b0"
  else "a1a1a1a1a1a1a1a1a1a1a1a1a1a1a1a1a1a1a1a1a1a1a1a1a1a1a1a1a1a1a1a1"

/-- One side calls, the other one answers. -/
def oneCall : List SignalEvent :=
  [.connect false ("ice://" ++ netKey true),.run false 0 {} lanWorld,.deliver false 0,
   .run true 0 ⟨[1],[2],3⟩ lanWorld,.deliver true 0,.run false 0 {} lanWorld]

theorem agreed_after_one_call :
    let n := run (SignalNet.act netKey) (fun _ => .init ⟨[],3⟩) oneCall
    n.Agreed netKey ∧ ∀ i, (n.session netKey i).isSome = true :=
  ⟨(agreed_iff_no_glare netKey (fun _ => ⟨[],3⟩) oneCall (by decide +kernel)).2
    (by decide +kernel),by decide +kernel⟩

/-- Both sides have called before either offer arrives; both offers are ignored, and each side
waits for an answer. -/
theorem crossed_offers_ignored :
    ¬∀ (key : Bool → String) (config : Bool → IceConfig) (events : List SignalEvent),
      (run (SignalNet.act key) (fun i => .init (config i)) events).Quiet key →
        (run (SignalNet.act key) (fun i => .init (config i)) events).Agreed key := by
  intro h
  have hcrossed := h netKey (fun _ => ⟨[],3⟩)
    [.connect false ("ice://" ++ netKey true),.connect true ("ice://" ++ netKey false),
     .run false 0 {} lanWorld,.run true 0 ⟨[1],[2],3⟩ lanWorld,.deliver false 0,.deliver true 0,
     .run true 0 {} lanWorld,.run false 0 {} lanWorld] (by decide +kernel)
  exact absurd hcrossed (by decide +kernel)

end GoodNet.Ice
