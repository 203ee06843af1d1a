import GoodNet.TransportIndex
import GoodNet.ManagerMotions
import GoodNet.ConnectionGauge
import GoodNet.PeerEndpoints
set_option autoImplicit false

/-! Which connectors the paths of a connection go through. `handle_add_transport` takes a path only
if its scheme is new to the connection, but the first path is renamed when the handshake is over;
that this never makes two paths of one scheme, and that no path changes its connector afterwards,
is a matter of all calls together. -/

namespace GoodNet
open Codec Noise

def ConnectionRecord.places (r : ConnectionRecord) : List (Nat × String) :=
  r.transportPaths.map TransportPath.place

/-- What a record can become when no path is added to it: its paths are renamed only as long as
its handshake is on. -/
structure ConnectionRecord.Follows (r r' : ConnectionRecord) : Prop where
  pending : r'.handshake.isSome = true → r.handshake.isSome = true
  few : r'.places.length ≤ r.places.length
  kept : r.handshake.isSome = false → r'.places.Sublist r.places

/-- All schemes are different, and there is one path during the handshake. -/
structure ConnectionRecord.Spread (r : ConnectionRecord) : Prop where
  schemes : (r.places.map Prod.snd).Nodup
  alone : r.handshake.isSome = true → r.places.length ≤ 1

def Impl.Follows (st st' : Impl) : Prop :=
  ∀ id r', st'.find id = some r' → ∃ r, st.find id = some r ∧ r.Follows r'

section
variable {r r' r'' : ConnectionRecord}

theorem ConnectionRecord.Follows.refl (r : ConnectionRecord) : r.Follows r :=
  ⟨fun h => h,Nat.le_refl _,fun _ => List.Sublist.refl _⟩

theorem ConnectionRecord.Follows.trans (h : r.Follows r') (h' : r'.Follows r'') : r.Follows r'' := by
  refine ⟨fun hp => h.pending (h'.pending hp),Nat.le_trans h'.few h.few,fun hn => ?_⟩
  have hn' : r'.handshake.isSome = false := by
    cases hp : r'.handshake.isSome with
    | false => rfl
    | true =>
      rw [h.pending hp] at hn
      cases hn
  exact (h'.kept hn').trans (h.kept hn)

theorem ConnectionRecord.Follows.of_places (hp : r'.places = r.places)
    (hs : r'.handshake.isSome = true → r.handshake.isSome = true) : r.Follows r' :=
  ⟨hs,by simp [hp],fun _ => by simp [hp]⟩

theorem ConnectionRecord.Follows.of_spine (h : r'.spine = r.spine) : r.Follows r' := by
  have hh : r'.handshake = r.handshake := congrArg Prod.fst h
  exact .of_places (congrArg (fun s => s.2.2) h) (fun hs => hh ▸ hs)

theorem ConnectionRecord.follows_dropPath (r : ConnectionRecord) (via : Nat) :
    r.Follows (r.dropPath via) := by
  have hsub : (r.dropPath via).places.Sublist r.places :=
    (List.filter_sublist).map TransportPath.place
  exact ⟨fun h => h,hsub.length_le,fun _ => hsub⟩

/-- During the handshake there is one path at most, and one scheme is no repetition. -/
theorem ConnectionRecord.Spread.follows (h : r.Spread) (hf : r.Follows r') : r'.Spread := by
  have halone : r'.handshake.isSome = true → r'.places.length ≤ 1 :=
    fun hs => Nat.le_trans hf.few (h.alone (hf.pending hs))
  refine ⟨?_,halone⟩
  cases hs : r.handshake.isSome with
  | false => exact h.schemes.sublist ((hf.kept hs).map Prod.snd)
  | true =>
    have hlen := Nat.le_trans hf.few (h.alone hs)
    match hp : r'.places with
    | [] => simp
    | [_] => simp
    | _ :: _ :: _ =>
      simp only [hp,List.length_cons] at hlen
      omega

end

section
variable {env : Env} {heard : Nat → NoiseFrame → Read → Prop} {st st' st'' : Impl}

theorem Impl.Follows.refl (st : Impl) : st.Follows st := fun _ r' h => ⟨r',h,.refl r'⟩

theorem Impl.Follows.trans (h : st.Follows st') (h' : st'.Follows st'') : st.Follows st'' := by
  intro id r₂ hr₂
  obtain ⟨r₁,hr₁,hf'⟩ := h' id r₂ hr₂
  obtain ⟨r,hr,hf⟩ := h id r₁ hr₁
  exact ⟨r,hr,hf.trans hf'⟩

theorem Impl.Follows.of_agrees (h : Impl.Agrees ConnectionRecord.spine st st') :
    st.Follows st' := by
  intro id r' hr'
  obtain ⟨r,hr,hs⟩ := h.keeps id r' hr'
  exact ⟨r,hr,.of_spine hs⟩

theorem Impl.follows_handleDisconnect (st : Impl) (via : Nat) :
    st.Follows (st.handleDisconnect via) := by
  intro id r' hr'
  obtain ⟨r,hr,rfl | rfl⟩ := handleDisconnect_find hr'
  · exact ⟨r',hr,.refl r'⟩
  · exact ⟨r,hr,r.follows_dropPath via⟩

/-- A record in its handshake becomes another one. -/
theorem Impl.follows_modify (st : Impl) {id : Nat} {hs : HandshakeState}
    {f : ConnectionRecord → ConnectionRecord}
    (h : (st.find id).bind ConnectionRecord.handshake = some hs)
    (hf : ∀ r, (f r).places.length = r.places.length) : st.Follows (st.modify id f) := by
  intro j r' hr'
  obtain ⟨r,hr,⟨rfl,rfl⟩ | ⟨_,rfl⟩⟩ := find_modify_some hr'
  · rw [hr] at h
    have hh : r.handshake = some hs := h
    exact ⟨r,hr,fun _ => by simp [hh],(hf r).le,fun hn => by simp [hh] at hn⟩
  · exact ⟨r',hr,.refl r'⟩

theorem Impl.authenticate_places (st : Impl) (hp : HandshakePayload) (schemes : List String)
    (r : ConnectionRecord) : (st.authenticate hp schemes r).places.length = r.places.length := by
  unfold authenticate ConnectionRecord.places
  dsimp only
  split
  · rfl
  · rename_i tp rest hcons
    simp [hcons]

theorem Motion.follows (h : Motion env heard st st') : st.Follows st' := by
  have hmild : ∀ a b : Impl, Mild a b → st.Follows a → st.Follows b :=
    fun a b hab ha => ha.trans (.of_agrees hab.spine)
  have hreport : ∀ (a : Impl) via, st.Follows a → st.Follows (a.handleDisconnect via) :=
    fun a via ha => ha.trans (a.follows_handleDisconnect via)
  have hemit : ∀ (a : Impl) e, st.Follows a → st.Follows (a.emit e) := fun a e ha => ha
  cases h with
  | talk h => exact .of_agrees h.agrees
  | disconnect id => exact st.follows_handleDisconnect id
  | hangUp h =>
    exact Impl.hangUp_rule hmild hreport h (fun a via scheme _ ha => hemit a _ ha)
      (fun a via scheme _ ha => hemit a _ ha) (.refl st)
  | duplicate id r =>
    intro j r' hr'
    obtain ⟨r₀,hr₀,heq⟩ := Impl.removeDuplicate_keeps (f := fun r => r) st id r j r' hr'
    cases heq
    exact ⟨r',hr₀,.refl r'⟩
  | read kind msg cap h => exact st.follows_modify h (fun r => rfl)
  | greet h h0 => exact st.ask.follows_modify h (fun r => rfl)
  | answer h hd hok => exact st.ask.follows_modify h (fun r => rfl)
  | authenticate h hd hk ha => exact st.follows_modify h (st.authenticate_places _ _)
  | @commit id r hs h hh =>
    exact st.follows_modify (Option.bind_eq_some_iff.mpr ⟨r,h,hh⟩) (fun r => rfl)

theorem Motions.follows (h : Motions env heard st st') : st.Follows st' := by
  induction h with
  | refl => exact .refl _
  | tail _ h ih => exact ih.trans h.follows

/-- The check of `handle_add_transport` has found no path of the scheme. -/
theorem Impl.handleAddTransport_new (st : Impl) (pk : String) (ep : Endpoint) (scheme : String) :
    (st.handleAddTransport pk ep scheme).1 = st ∨
    ∃ peer r, st.find peer = some r ∧ r.established = true ∧ r.findPath scheme = none ∧
      (st.handleAddTransport pk ep scheme).1 = st.attachTransport peer ep scheme := by
  unfold handleAddTransport
  split
  · exact .inl rfl
  · dsimp only
    split
    · exact .inl rfl
    · split
      · exact .inl rfl
      · rename_i r hr
        split
        · exact .inl rfl
        · rename_i he
          split
          · exact .inl rfl
          · rename_i hnew
            exact .inr ⟨_,r,hr,by simpa using he,by simpa using hnew,rfl⟩

/-- A record behind an opening was there before, with one path less perhaps, or it is new. -/
theorem Event.opening_find {e : Event} {id : Nat} {r' : ConnectionRecord}
    (h : (e.opening env st).find id = some r') :
    (∃ r, st.find id = some r ∧ (r' = r ∨ r.established = true ∧
      ∃ scheme, r.findPath scheme = none ∧ r'.places = r.places ++ [(st.nextId,scheme)] ∧
        r'.handshake = r.handshake ∧ r'.state = r.state)) ∨
    ∃ ep, id = st.nextId ∧ r' = st.newRecord env ep := by
  cases e with
  | connected ep =>
    unfold Event.opening at h
    dsimp only at h
    split at h
    · exact .inl ⟨r',h,.inl rfl⟩
    · by_cases hid : id = st.nextId
      · subst hid
        rw [Impl.insertRecord_find,Option.some.injEq] at h
        exact .inr ⟨ep,rfl,h.symm⟩
      · rw [Impl.insertRecord_find_ne hid] at h
        exact .inl ⟨r',h,.inl rfl⟩
  | addTransport pk ep scheme =>
    have hopen : Event.opening env st (.addTransport pk ep scheme) =
        (st.handleAddTransport pk ep scheme).1 := rfl
    rw [hopen] at h
    rcases st.handleAddTransport_new pk ep scheme with heq | ⟨peer,r,hr,he,hnew,heq⟩
    · rw [heq] at h
      exact .inl ⟨r',h,.inl rfl⟩
    · rw [heq] at h
      obtain ⟨r₀,hr₀,⟨rfl,rfl⟩ | ⟨_,rfl⟩⟩ := Impl.attachTransport_find h
      · cases hr₀.symm.trans hr
        refine .inl ⟨_,hr,.inr ⟨he,scheme,hnew,?_,rfl,rfl⟩⟩
        simp [ConnectionRecord.places,TransportPath.place]
      · exact .inl ⟨r',hr₀,.inl rfl⟩
  | _ => exact .inl ⟨r',h,.inl rfl⟩

/-- Every record is spread. -/
def Impl.Spread (st : Impl) : Prop := ∀ id r, st.find id = some r → r.Spread

theorem ConnectionRecord.Spread.attach {r r' : ConnectionRecord} (h : r.Spread) {tid : Nat}
    {scheme : String} (hnew : r.findPath scheme = none) (hdone : r.handshake.isSome = false)
    (hp : r'.places = r.places ++ [(tid,scheme)]) (hh : r'.handshake = r.handshake) :
    r'.Spread := by
  have hnone : scheme ∉ r.places.map Prod.snd := by
    intro hin
    obtain ⟨t,ht,rfl⟩ := List.mem_map.mp hin
    obtain ⟨p,hmem,rfl⟩ := List.mem_map.mp ht
    unfold findPath at hnew
    have hne := List.find?_eq_none.mp hnew p hmem
    simp [TransportPath.place] at hne
  refine ⟨?_,fun hs => ?_⟩
  · rw [hp,List.map_append]
    refine List.nodup_append.mpr ⟨h.schemes,by simp,fun a ha b hb hab => hnone ?_⟩
    rw [List.map_singleton,List.mem_singleton] at hb
    rw [hab,hb] at ha
    exact ha
  · rw [hh,hdone] at hs
    cases hs

theorem Event.step_spread (hs : st.SoundRecords env.sodium) (h : st.Spread) (e : Event) :
    (e.step env st).Spread := by
  intro id r' hr'
  obtain ⟨r₁,hr₁,hf⟩ := (Event.step_motions hs e).follows id r' hr'
  refine ConnectionRecord.Spread.follows ?_ hf
  rcases Event.opening_find hr₁ with ⟨r,hr,rfl | ⟨he,scheme,hnew,hp,hh,_⟩⟩ | ⟨ep,rfl,rfl⟩
  · exact h id r₁ hr
  · exact (h id r hr).attach hnew ((hs.record id r hr).settled he).2 hp hh
  · exact ⟨by simp [ConnectionRecord.places,Impl.newRecord],
      by simp [ConnectionRecord.places,Impl.newRecord]⟩

/-- What a record that was established at `base` still has, it had there or it got under a later
id. -/
def Impl.Onward (base st : Impl) : Prop :=
  base.nextId ≤ st.nextId ∧
  ∀ id r r', base.find id = some r → r.established = true → st.find id = some r' →
    r'.handshake.isSome = false ∧
    ∀ t ∈ r'.places, t ∈ r.places ∨ base.nextId ≤ t.1

theorem Event.step_onward {base : Impl} (hb : base.SoundRecords env.sodium)
    (hs : st.SoundRecords env.sodium) (h : base.Onward st) (e : Event) :
    base.Onward (e.step env st) := by
  have hticks : Ticks env st (e.step env st) := Event.step_ticks st e
  have hnext := hticks.nextId_le
  refine ⟨Nat.le_trans h.1 hnext,fun id r r' hr he hr' => ?_⟩
  obtain ⟨r₁,hr₁,hf⟩ := (Event.step_motions hs e).follows id r' hr'
  have hopen : r₁.handshake.isSome = false ∧ ∀ t ∈ r₁.places, t ∈ r.places ∨ base.nextId ≤ t.1 := by
    rcases Event.opening_find hr₁ with ⟨r₀,hr₀,rfl | ⟨_,scheme,_,hp,hh,_⟩⟩ | ⟨ep,rfl,_⟩
    · exact h.2 id r r₁ hr he hr₀
    · obtain ⟨hdone,hold⟩ := h.2 id r r₀ hr he hr₀
      refine ⟨hh ▸ hdone,fun t ht => ?_⟩
      rw [hp] at ht
      rcases List.mem_append.mp ht with ht | ht
      · exact hold t ht
      · rw [List.mem_singleton.mp ht]
        exact .inr h.1
    · exact absurd (hb.fresh _ r hr) (Nat.not_lt.mpr h.1)
  refine ⟨?_,fun t ht => hopen.2 t ((hf.kept hopen.1).subset ht)⟩
  cases hp : r'.handshake.isSome with
  | false => rfl
  | true =>
    rw [hf.pending hp] at hopen
    cases hopen.1

theorem perform_spread (env : Env) (hs : st.SoundRecords env.sodium) (h : st.Spread)
    (events : List Event) :
    (st.perform env events).SoundRecords env.sodium ∧ (st.perform env events).Spread :=
  Interleaving.run_invariant (I := fun st : Impl => st.SoundRecords env.sodium ∧ st.Spread)
    (fun _ e hi => ⟨Event.step_sound hi.1 e,Event.step_spread hi.1 hi.2 e⟩) ⟨hs,h⟩ events

theorem perform_onward (env : Env) (hs : st.SoundRecords env.sodium) (events : List Event) :
    st.Onward (st.perform env events) := by
  have hstart : st.Onward st := by
    refine ⟨Nat.le_refl _,fun id r r' hr he hr' => ?_⟩
    cases hr.symm.trans hr'
    exact ⟨((hs.record id r hr).settled he).2,fun t ht => .inl ht⟩
  have hrun := Interleaving.run_invariant
    (I := fun a : Impl => a.SoundRecords env.sodium ∧ st.Onward a)
    (fun a e hi => ⟨Event.step_sound hi.1 e,Event.step_onward hs hi.1 hi.2 e⟩) ⟨hs,hstart⟩ events
  exact hrun.2

/-- What is looked for by a key that no two entries share is found. -/
theorem find_of_nodup {α κ : Type} [BEq κ] [LawfulBEq κ] (key : α → κ) {l : List α} {a : α}
    (h : (l.map key).Nodup) (ha : a ∈ l) : l.find? (fun x => key x == key a) = some a := by
  induction l with
  | nil => cases ha
  | cons b l ih =>
    rw [List.map_cons,List.nodup_cons] at h
    rcases List.mem_cons.mp ha with rfl | ha
    · simp
    · have hne : (key b == key a) = false := by
        rw [beq_eq_false_iff_ne]
        exact fun he => h.1 (he ▸ List.mem_map_of_mem ha)
      rw [List.find?_cons,hne]
      exact ih h.2 ha

end

/-- In every state of every run the paths of a connection have different schemes, and one in its
handshake has a single path, so that each path is the one found by its scheme and by its id; and
whatever is done after a connection is established, a path it had then goes through the same
connector for as long as it is there. -/
theorem path_schemes_distinct (env : Env) (identity : NodeIdentity) (before after : List Call) :
    let st := (Impl.start identity).run env before
    let st' := st.run env after
    (∀ id r, st.find id = some r → (r.transportPaths.map TransportPath.scheme).Nodup ∧
      (r.handshake.isSome = true → r.transportPaths.length = 1) ∧
      ∀ p ∈ r.transportPaths, r.findPath p.scheme = some p ∧
        r.findPathByTransportId p.transportConnId = some p) ∧
    ∀ id r r', st.find id = some r → r.established = true → st'.find id = some r' →
      ∀ p' ∈ r'.transportPaths, p'.transportConnId < st.nextId →
        ∃ p ∈ r.transportPaths, p.transportConnId = p'.transportConnId ∧ p.scheme = p'.scheme := by
  intro st st'
  have hst : st.SoundRecords env.sodium ∧ st.Spread := by
    obtain ⟨events,h⟩ := (Impl.start identity).run_events env before
    have hstart : (Impl.start identity).Spread := fun id r hr => by
      simp [Impl.start,Impl.find] at hr
    have hrun := perform_spread env (start_sound env identity) hstart events
    rw [← h] at hrun
    exact hrun
  have hports : st.Ported := run_ported env identity before
  constructor
  · intro id r hr
    have hspread := hst.2 id r hr
    have hport := hports.records id r hr
    have hschemes : (r.transportPaths.map TransportPath.scheme).Nodup := by
      have hs := hspread.schemes
      unfold ConnectionRecord.places at hs
      rw [List.map_map] at hs
      exact hs
    refine ⟨hschemes,fun hs => ?_,fun p hp => ⟨find_of_nodup _ hschemes hp,
      find_of_nodup TransportPath.transportConnId hport.nodup hp⟩⟩
    have hle := hspread.alone hs
    have hpos := List.length_pos_of_mem hport.own
    simp only [ConnectionRecord.places,ConnectionRecord.ports,List.length_map] at hle hpos
    omega
  · intro id r r' hr he hr' p' hp' hold
    obtain ⟨events,h⟩ := st.run_events env after
    have honward := perform_onward env hst.1 events
    rw [← h] at honward
    have hplace : p'.place ∈ r'.places := List.mem_map_of_mem hp'
    rcases (honward.2 id r r' hr he hr').2 _ hplace with hin | hnew
    · obtain ⟨p,hp,heq⟩ := List.mem_map.mp hin
      exact ⟨p,hp,congrArg Prod.fst heq,congrArg Prod.snd heq⟩
    · exact absurd hold (Nat.not_lt.mpr hnew)

end GoodNet
