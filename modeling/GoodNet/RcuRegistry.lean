import GoodNet.Lib.CopyOnWrite
import GoodNet.ManagerState
set_option autoImplicit false

/-! The registry of records under several threads: `rcu_update` copies the map, changes the copy
and publishes it, and every caller holds `records_write_mu_` around it; `rcu_find` loads the map
and takes no lock. -/

namespace GoodNet
open Codec Interleaving CopyOnWrite

variable {ρ : Type}

/-- What the callers do to the copied map. A record that is found there is written in place, and
its entry stays. -/
inductive RecordUpdate (ρ : Type) where
  | put (id : Nat) (rec : ρ)
  | erase (id : Nat)
  | write (id : Nat)
  deriving DecidableEq, Repr

def RecordUpdate.apply : RecordUpdate ρ → Table Nat ρ → Table Nat ρ
  | .put id rec, m => m.insert id rec
  | .erase id, m => m.erase id
  | .write _, m => m

/-- The map, its lock and the ids. The handles of the records are a parameter. -/
structure RecordRegistry (ρ : Type) where
  nextId : Nat := 1
  cell : Cell (Table Nat ρ) (RecordUpdate ρ) := { value := ∅ }

/-- `connect` takes its id and builds its record before it asks for the lock; the others come
with an id that they have found. -/
inductive RegistryStep (ρ : Type) where
  | connect (thread : Nat) (rec : ρ)
  | remove (thread id : Nat)
  | write (thread id : Nat)
  | lock (thread : Nat)
  | load (thread : Nat)
  | store (thread : Nat)
  | unlock (thread : Nat)

namespace RecordRegistry

def rcuFind (s : RecordRegistry ρ) (id : Nat) : Option ρ := s.cell.value.lookup id

def tell (s : RecordRegistry ρ) (e : Step (RecordUpdate ρ)) : RecordRegistry ρ :=
  { s with cell := s.cell.act RecordUpdate.apply e }

def published (s : RecordRegistry ρ) : List (RecordUpdate ρ) := s.cell.published.map Prod.snd

/-- A registration of the id has been published. -/
def known (s : RecordRegistry ρ) (id : Nat) : Bool :=
  s.published.any (fun u =>
    match u with
    | .put id' _ => id' == id
    | _ => false)

def act (s : RecordRegistry ρ) : RegistryStep ρ → RecordRegistry ρ
  | .connect t rec =>
    if (s.cell.stage t).isSome then s
    else { s.tell (.begin t (.put s.nextId rec)) with nextId := s.nextId+1 }
  | .remove t id => if s.known id then s.tell (.begin t (.erase id)) else s
  | .write t id => if s.known id then s.tell (.begin t (.write id)) else s
  | .lock t => s.tell (.lock t)
  | .load t => s.tell (.load t)
  | .store t => s.tell (.store t)
  | .unlock t => s.tell (.unlock t)

/-- The update that a step begins. A registration comes with the next id. -/
def begins (s : RecordRegistry ρ) : RegistryStep ρ → List (Nat × RecordUpdate ρ)
  | .connect t rec => s.cell.begins (.begin t (.put s.nextId rec))
  | .remove t id => if s.known id then s.cell.begins (.begin t (.erase id)) else []
  | .write t id => if s.known id then s.cell.begins (.begin t (.write id)) else []
  | .lock _ | .load _ | .store _ | .unlock _ => []

/-- The updates that the calls of a run begin, with their threads. -/
def begunBy : RecordRegistry ρ → List (RegistryStep ρ) → List (Nat × RecordUpdate ρ)
  | _, [] => []
  | s, a :: steps => s.begins a ++ begunBy (s.act a) steps

/-- The map has what was put in and not erased, an id is put in once, and nothing is erased before
it has been put in. -/
structure Sound (s : RecordRegistry ρ) : Prop where
  cell : s.cell.Sound RecordUpdate.apply ∅
  find : ∀ id rec, s.rcuFind id = some rec ↔ .put id rec ∈ s.published ∧ .erase id ∉ s.published
  old : ∀ id rec, .put id rec ∈ s.published → id < s.nextId
  apart : ∀ t id rec, s.cell.pending t = some (.put id rec) → id < s.nextId ∧
    (∀ rec', .put id rec' ∉ s.published) ∧
    ∀ t' rec', s.cell.pending t' = some (.put id rec') → t' = t
  known : ∀ t id, s.cell.pending t = some (.erase id) → s.known id = true
  erased : ∀ id, .erase id ∈ s.published → s.known id = true

section
variable {s : RecordRegistry ρ}

theorem known_iff {id : Nat} : s.known id = true ↔ ∃ rec, .put id rec ∈ s.published := by
  unfold RecordRegistry.known
  rw [List.any_eq_true]
  constructor
  · rintro ⟨u,hu,hm⟩
    cases u with
    | put id' rec =>
      have hid : id' = id := by simpa using hm
      exact ⟨rec,hid ▸ hu⟩
    | erase id' => cases hm
    | write id' => cases hm
  · rintro ⟨rec,h⟩
    exact ⟨_,h,by simp⟩

end

end RecordRegistry

namespace RecordRegistry

section
variable {s s' : RecordRegistry ρ}

theorem known_mono {id : Nat} {new : List (RecordUpdate ρ)}
    (hp : s'.published = s.published ++ new) (h : s.known id = true) : s'.known id = true := by
  obtain ⟨rec,hrec⟩ := known_iff.mp h
  exact known_iff.mpr ⟨rec,hp ▸ List.mem_append_left _ hrec⟩

/-- A step that neither begins an update nor stores one. -/
theorem Sound.same (h : s.Sound) (hcell : s'.cell.Sound RecordUpdate.apply ∅)
    (hv : s'.cell.value = s.cell.value) (hp : s'.cell.published = s.cell.published)
    (hn : s'.nextId = s.nextId) (hw : s'.cell.pending = s.cell.pending) : s'.Sound := by
  have hpub : s'.published = s.published := by simp [RecordRegistry.published,hp]
  have hknown : ∀ id, s'.known id = s.known id := fun id => by simp [RecordRegistry.known,hpub]
  refine ⟨hcell,fun id rec => ?_,fun id rec => ?_,fun t id rec => ?_,fun t id => ?_,fun id => ?_⟩
  · rw [rcuFind,hv,hpub]
    exact h.find id rec
  · rw [hpub,hn]
    exact h.old id rec
  · rw [hw,hpub,hn]
    exact h.apart t id rec
  · rw [hw,hknown]
    exact h.known t id
  · rw [hpub,hknown]
    exact h.erased id

/-- A thread begins an update; if it is a registration, under an id of its own. -/
theorem Sound.begin (h : s.Sound) {t : Nat} {u : RecordUpdate ρ}
    (hcell : s'.cell.Sound RecordUpdate.apply ∅) (hv : s'.cell.value = s.cell.value)
    (hp : s'.cell.published = s.cell.published) (hn : s.nextId ≤ s'.nextId)
    (hw : s'.cell.pending = Function.update s.cell.pending t (some u))
    (hput : ∀ id rec, u = .put id rec → id = s.nextId ∧ s'.nextId = s.nextId+1)
    (herase : ∀ id, u = .erase id → s.known id = true) : s'.Sound := by
  have hpub : s'.published = s.published := by simp [RecordRegistry.published,hp]
  have hknown : ∀ id, s'.known id = s.known id := fun id => by simp [RecordRegistry.known,hpub]
  have hpend : ∀ t' v, s'.cell.pending t' = some v → u = v ∧ t' = t ∨
      t' ≠ t ∧ s.cell.pending t' = some v := by
    intro t' v hv'
    simpa using update_eq_some hw hv'
  refine ⟨hcell,fun id rec => ?_,fun id rec hin => ?_,fun t' id rec hpen => ?_,fun t' id hpen => ?_,
    fun id => ?_⟩
  · rw [rcuFind,hv,hpub]
    exact h.find id rec
  · rw [hpub] at hin
    exact Nat.lt_of_lt_of_le (h.old id rec hin) hn
  · rw [hpub]
    rcases hpend t' _ hpen with ⟨hu,rfl⟩ | ⟨ht,hpen⟩
    · obtain ⟨rfl,hnext⟩ := hput id rec hu
      refine ⟨by omega,fun rec' hin => Nat.lt_irrefl _ (h.old _ rec' hin),fun t₂ rec' hpen₂ => ?_⟩
      rcases hpend t₂ _ hpen₂ with ⟨_,ht₂⟩ | ⟨_,hpen₂⟩
      · exact ht₂
      · exact absurd (h.apart t₂ _ rec' hpen₂).1 (Nat.lt_irrefl _)
    · obtain ⟨hlt,hnot,hone⟩ := h.apart t' id rec hpen
      refine ⟨by omega,hnot,fun t₂ rec' hpen₂ => ?_⟩
      rcases hpend t₂ _ hpen₂ with ⟨hu,_⟩ | ⟨_,hpen₂⟩
      · obtain ⟨rfl,_⟩ := hput id rec' hu
        exact absurd hlt (Nat.lt_irrefl _)
      · exact hone t₂ rec' hpen₂
  · rw [hknown]
    rcases hpend t' _ hpen with ⟨hu,_⟩ | ⟨_,hpen⟩
    · exact herase id hu
    · exact h.known t' id hpen
  · rw [hpub,hknown]
    exact h.erased id

/-- The copy that is stored is the published map with one more update. -/
theorem Sound.store (h : s.Sound) {t : Nat} {u : RecordUpdate ρ}
    (hcell : s'.cell.Sound RecordUpdate.apply ∅) (hv : s'.cell.value = u.apply s.cell.value)
    (hp : s'.cell.published = s.cell.published ++ [(t,u)]) (hn : s'.nextId = s.nextId)
    (ht : s.cell.pending t = some u)
    (hw : s'.cell.pending = Function.update s.cell.pending t none) : s'.Sound := by
  have hpub : s'.published = s.published ++ [u] := by simp [RecordRegistry.published,hp]
  have hpend : ∀ t' v, s'.cell.pending t' = some v → t' ≠ t ∧ s.cell.pending t' = some v := by
    intro t' v hv'
    simpa using update_eq_some hw hv'
  refine ⟨hcell,fun id rec => ?_,fun id rec hin => ?_,fun t' id rec hpen => ?_,fun t' id hpen => ?_,
    fun id hin => ?_⟩
  · have hfind := h.find id rec
    rw [hpub,rcuFind,hv]
    unfold rcuFind at hfind
    cases u with
    | put id' rec' =>
      obtain ⟨_,hnot,_⟩ := h.apart t id' rec' ht
      by_cases hid : id = id'
      · subst hid
        have hgone : .erase id ∉ s.published := by
          intro hin
          obtain ⟨rec₀,hin₀⟩ := known_iff.mp (h.erased id hin)
          exact hnot rec₀ hin₀
        simp [RecordUpdate.apply,hnot,hgone,eq_comm]
      · simp [RecordUpdate.apply,AList.lookup_insert_ne hid,hfind,hid]
    | erase id' =>
      by_cases hid : id = id'
      · subst hid
        simp [RecordUpdate.apply]
      · simp [RecordUpdate.apply,AList.lookup_erase_ne hid,hfind,hid]
    | write id' => simp [RecordUpdate.apply,hfind]
  · rw [hn]
    rw [hpub] at hin
    rcases List.mem_append.mp hin with hin | hin
    · exact h.old id rec hin
    · have hu := List.mem_singleton.mp hin
      exact (h.apart t id rec (hu ▸ ht)).1
  · obtain ⟨hne,hpen⟩ := hpend t' _ hpen
    obtain ⟨hlt,hnot,hone⟩ := h.apart t' id rec hpen
    refine ⟨hn ▸ hlt,fun rec' hin => ?_,fun t₂ rec' hpen₂ => hone t₂ rec' (hpend t₂ _ hpen₂).2⟩
    rw [hpub] at hin
    rcases List.mem_append.mp hin with hin | hin
    · exact hnot rec' hin
    · have hu := List.mem_singleton.mp hin
      exact hne (hone t rec' (hu ▸ ht)).symm
  · exact known_mono hpub (h.known t' id (hpend t' _ hpen).2)
  · rw [hpub] at hin
    rcases List.mem_append.mp hin with hin | hin
    · exact known_mono hpub (h.erased id hin)
    · have hu := List.mem_singleton.mp hin
      exact known_mono hpub (h.known t id (hu ▸ ht))

theorem Sound.tell (h : s.Sound) (e : Step (RecordUpdate ρ))
    (he : ∀ t u, e = .begin t u →
      ∀ id, (∀ rec, u ≠ .put id rec) ∧ (u = .erase id → s.known id = true)) :
    (s.tell e).Sound := by
  have hcell := h.cell.act e
  rcases Cell.act_cases RecordUpdate.apply s.cell e with
    ⟨hv,hp,_,hw⟩ | ⟨t,u,heq,_,hv,hp,_,hw⟩ | ⟨t,u,old,_,hc,hv,hp,_,hw⟩
  · exact h.same hcell hv hp rfl hw
  · exact h.begin hcell hv hp (Nat.le_refl _) hw
      (fun id rec hu => absurd hu ((he t u heq id).1 rec)) (fun id hu => (he t u heq id).2 hu)
  · refine h.store hcell ?_ hp rfl (by simp [Cell.pending,hc,Stage.ahead]) hw
    exact hv.trans (by rw [h.cell.fresh t u old hc])

theorem Sound.act (h : s.Sound) (e : RegistryStep ρ) : (s.act e).Sound := by
  cases e with
  | connect t rec =>
    unfold RecordRegistry.act
    dsimp only
    split
    · exact h
    · rename_i hbusy
      have hidle : s.cell.stage t = none := by simpa using hbusy
      have hcell := h.cell.act (.begin t (.put s.nextId rec))
      rcases Cell.act_cases RecordUpdate.apply s.cell (.begin t (.put s.nextId rec)) with
        ⟨hv,hp,hb,_⟩ | ⟨t',u,heq,_,hv,hp,_,hw⟩ | ⟨t',u,old,heq,_⟩
      · simp [Cell.act,hidle] at hb
      · cases heq
        refine h.begin hcell hv hp (Nat.le_succ _) hw (fun id rec' hu => ?_) (fun id hu => ?_)
        · cases hu
          exact ⟨rfl,rfl⟩
        · cases hu
      · cases heq
  | remove t id =>
    unfold RecordRegistry.act
    dsimp only
    split
    · rename_i hk
      refine h.tell _ (fun t' u heq id' => ?_)
      cases heq
      refine ⟨fun rec hu => (by cases hu),fun hu => ?_⟩
      cases hu
      exact hk
    · exact h
  | write t id =>
    unfold RecordRegistry.act
    dsimp only
    split
    · refine h.tell _ (fun t' u heq id' => ?_)
      cases heq
      exact ⟨fun rec hu => (by cases hu),fun hu => (by cases hu)⟩
    · exact h
  | lock t => exact h.tell _ (fun t' u heq => (by cases heq))
  | load t => exact h.tell _ (fun t' u heq => (by cases heq))
  | store t => exact h.tell _ (fun t' u heq => (by cases heq))
  | unlock t => exact h.tell _ (fun t' u heq => (by cases heq))

theorem published_act (s : RecordRegistry ρ) (e : RegistryStep ρ) :
    s.cell.published <+: (s.act e).cell.published := by
  have htell : ∀ e, s.cell.published <+: (s.tell e).cell.published :=
    fun e => s.cell.published_act _ e
  cases e with
  | connect t rec =>
    unfold RecordRegistry.act
    dsimp only
    split
    · exact List.prefix_refl _
    · exact htell _
  | remove t id =>
    unfold RecordRegistry.act
    dsimp only
    split
    · exact htell _
    · exact List.prefix_refl _
  | write t id =>
    unfold RecordRegistry.act
    dsimp only
    split
    · exact htell _
    · exact List.prefix_refl _
  | lock t => exact htell _
  | load t => exact htell _
  | store t => exact htell _
  | unlock t => exact htell _

theorem act_begun (s : RecordRegistry ρ) (e : RegistryStep ρ) :
    (s.act e).cell.begun = s.cell.begun ++ s.begins e := by
  have htell : ∀ e, (s.tell e).cell.begun = s.cell.begun ++ s.cell.begins e :=
    fun e => s.cell.begun_act _ e
  cases e with
  | connect t rec =>
    unfold RecordRegistry.act RecordRegistry.begins
    dsimp only
    split
    · rename_i hbusy
      obtain ⟨x,hx⟩ := Option.isSome_iff_exists.mp hbusy
      simp [Cell.begins,hx]
    · exact htell _
  | remove t id =>
    unfold RecordRegistry.act RecordRegistry.begins
    dsimp only
    split
    · exact htell _
    · simp
  | write t id =>
    unfold RecordRegistry.act RecordRegistry.begins
    dsimp only
    split
    · exact htell _
    · simp
  | lock t => exact htell _
  | load t => exact htell _
  | store t => exact htell _
  | unlock t => exact htell _

theorem run_begun (s : RecordRegistry ρ) (steps : List (RegistryStep ρ)) :
    (run RecordRegistry.act s steps).cell.begun = s.cell.begun ++ s.begunBy steps := by
  induction steps generalizing s with
  | nil => simp [run,begunBy]
  | cons e steps ih =>
    have hrest := ih (s.act e)
    rw [act_begun,List.append_assoc] at hrest
    exact hrest

theorem sound_run (steps : List (RegistryStep ρ)) :
    (run RecordRegistry.act ({} : RecordRegistry ρ) steps).Sound := by
  refine run_invariant (I := RecordRegistry.Sound) (fun s e h => h.act e) ?_ steps
  refine ⟨sound_start _ _,fun id rec => ?_,fun id rec h => ?_,fun t id rec h => ?_,
    fun t id h => ?_,fun id h => ?_⟩
  · simp [RecordRegistry.rcuFind,RecordRegistry.published]
  · simp [RecordRegistry.published] at h
  · simp [Cell.pending] at h
  · simp [Cell.pending] at h
  · simp [RecordRegistry.published] at h

end

end RecordRegistry

/-- Whatever the threads do and in whatever order: the map is what the published updates make one
after another, and a look-up finds exactly what has been registered and not removed since. What a
thread has published are the updates of its calls, each once and in its own order, and when it has
returned all of them; they stand before everything that is begun later. -/
theorem record_registry_serial (before after : List (RegistryStep ρ)) :
    let s := run RecordRegistry.act {} before
    let s' := run RecordRegistry.act s after
    s.cell.value = replay RecordUpdate.apply ∅ s.cell.published ∧
    (∀ id rec, s.rcuFind id = some rec ↔ .put id rec ∈ s.published ∧ .erase id ∉ s.published) ∧
    (∀ t, ofThread t s.cell.published <+: ofThread t (RecordRegistry.begunBy {} before) ∧
      (s.cell.stage t = none →
        ofThread t (RecordRegistry.begunBy {} before) = ofThread t s.cell.published)) ∧
    s.cell.published <+: s'.cell.published := by
  intro s s'
  have hs : s.Sound := RecordRegistry.sound_run before
  have hbegun : s.cell.begun = RecordRegistry.begunBy {} before :=
    RecordRegistry.run_begun {} before
  rw [← hbegun]
  refine ⟨hs.cell.value,hs.find,fun t => ⟨⟨_,(hs.cell.order t).symm⟩,fun ht => hs.cell.returned ht⟩,
    ?_⟩
  exact run_invariant (I := fun x : RecordRegistry ρ => s.cell.published <+: x.cell.published)
    (fun x e hx => hx.trans (x.published_act e)) (List.prefix_refl _) after

/-- Two registrations at once, the second of which gets the lock first, and a removal. -/
def crossedUpdates : List (RegistryStep Nat) :=
  [.connect 1 10,.connect 2 20,.lock 2,.lock 1,.load 2,.store 2,.unlock 2,.lock 1,.load 1,.store 1,
    .unlock 1,.remove 2 1,.lock 2,.load 2,.store 2,.unlock 2]

theorem record_registry_serial_crossed :
    let s := run RecordRegistry.act {} crossedUpdates
    s.rcuFind 2 = some 20 ∧ s.rcuFind 1 = none ∧
      RecordRegistry.begunBy {} crossedUpdates = [(1,.put 1 10),(2,.put 2 20),(2,.erase 1)] ∧
      s.cell.published = [(2,.put 2 20),(1,.put 1 10),(2,.erase 1)] ∧
      s.cell.value = replay RecordUpdate.apply ∅ s.cell.published := by
  refine ⟨by decide,by decide,by decide,by decide,?_⟩
  exact (record_registry_serial crossedUpdates []).1

end GoodNet
