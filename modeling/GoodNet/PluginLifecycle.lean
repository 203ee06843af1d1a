import GoodNet.PluginManager
set_option autoImplicit false

/-! What becomes of a plugin after its init call. Every call to the plugin manager does one of four
things to the plugins it owns (`Moves`); that each of them is shut down once, and before its
library is closed, follows from these. -/

namespace GoodNet
open Interleaving

/-- A plugin that is loaded. -/
structure Owned where
  slot : Nat
  lib : Bool
  shutdown : Bool
  deriving DecidableEq, Repr

def Owned.birth (x : Owned) : List PluginAct :=
  (if x.lib then [.opened] else []) ++ [.initialised x.shutdown]

def Owned.death (x : Owned) : List PluginAct := lastActs x.lib x.shutdown

def HandlerInfo.owned (i : HandlerInfo) : Owned := ⟨i.slot,i.lib,i.shutsDown⟩

def ConnectorInfo.owned (i : ConnectorInfo) : Owned := ⟨i.slot,i.lib,i.shutsDown⟩

namespace PluginManager

def owned (pm : PluginManager) : List Owned :=
  pm.handlers.entries.map (fun e => e.2.owned) ++ pm.connectors.entries.map (fun e => e.2.owned)

/-- What was done to one plugin, in order. -/
def history (pm : PluginManager) (slot : Nat) : List PluginAct :=
  (pm.trace.filter (fun e => e.1 = slot)).map Prod.snd

/-- A plugin that was initialised is loaded and has not been shut down, or it is loaded no longer
and was shut down once, and after that its library was closed. -/
def Settled (pm : PluginManager) (slot : Nat) : Prop :=
  .initialised true ∈ pm.history slot →
    (∃ x ∈ pm.owned, x.slot = slot ∧ pm.history slot = x.birth) ∨
    (∀ x ∈ pm.owned, x.slot ≠ slot) ∧
      ∃ lib, pm.history slot = Owned.birth ⟨slot,lib,true⟩ ++ Owned.death ⟨slot,lib,true⟩

/-- The init call does not succeed only for the plugin to be refused. -/
def sparesHandler (pm : PluginManager) (fallback : String) : InitResult HandlerT → Prop
  | (0,some h) => h.shutdown = true → pm.handlers.lookup (h.key fallback) = none
  | _ => True

def sparesConnector (pm : PluginManager) : InitResult ConnectorOpsT → Prop
  | (0,some ops) => ops.shutdown = true →
    ops.scheme ≠ "" ∧ pm.connectors.lookup ops.scheme = none
  | _ => True

def sparesInits (pm : PluginManager) (fallback : String) :
    Option (InitResult HandlerT) → Option (InitResult ConnectorOpsT) → Prop
  | some init, _ => pm.sparesHandler fallback init
  | none, some init => pm.sparesConnector init
  | none, none => True

def sparesEntry (pm : PluginManager) (entry : StaticPluginEntry) : Prop :=
  pm.sparesInits entry.name entry.handlerInit entry.connectorInit

/-- A file that is opened at all. -/
def PluginFile.opens (f : PluginFile) : Prop :=
  f.present = true ∧ f.metadata = .ok () ∧ f.dlopen = .ok ()

def Spares (pm : PluginManager) : PluginCall → Prop
  | .load f => PluginFile.opens f → pm.sparesInits f.stem f.handlerInit f.connectorInit
  | .loadStatic registry => Along loadStaticPlugin sparesEntry pm registry
  | _ => True

/-- What a call does to the plugins. `spared` says whether it is one that refuses no plugin after
its init. -/
inductive Moves (pm pm' : PluginManager) (spared : Prop) : Prop
  | stays (hspared : spared) (howned : pm'.owned.Perm pm.owned) (htrace : pm'.trace = pm.trace)
      (hslots : pm'.slots = pm.slots)
  | fails (acts : List PluginAct) (hacts : .shutdown ∉ acts)
      (hspared : .initialised true ∈ acts ↔ ¬ spared) (howned : pm'.owned = pm.owned)
      (htrace : pm'.trace = pm.trace ++ acts.map (fun a => (pm.slots,a)))
      (hslots : pm'.slots = pm.slots+1)
  | admits (x : Owned) (hspared : spared) (hx : x.slot = pm.slots)
      (howned : pm'.owned.Perm (x :: pm.owned))
      (htrace : pm'.trace = pm.trace ++ x.birth.map (fun a => (pm.slots,a)))
      (hslots : pm'.slots = pm.slots+1)
  | releases (xs : List Owned) (hspared : spared) (howned : pm.owned.Perm (xs ++ pm'.owned))
      (htrace : pm'.trace = pm.trace ++ xs.flatMap (fun x => x.death.map (fun a => (x.slot,a))))
      (hslots : pm'.slots = pm.slots)

/-- What holds of the plugins that are loaded, whatever was refused before. -/
structure Kept (pm : PluginManager) : Prop where
  apart : (pm.owned.map Owned.slot).Nodup
  drawn : ∀ x ∈ pm.owned, x.slot < pm.slots
  born : ∀ x ∈ pm.owned, pm.history x.slot = x.birth
  fresh : ∀ e ∈ pm.trace, e.1 < pm.slots

/-- A plugin that was initialised, is not loaded and was never shut down. -/
structure Lost (pm : PluginManager) (slot : Nat) : Prop where
  gone : ∀ x ∈ pm.owned, x.slot ≠ slot
  drawn : slot < pm.slots
  started : .initialised true ∈ pm.history slot
  running : .shutdown ∉ pm.history slot

variable {pm pm' : PluginManager} {spared : Prop} {slot : Nat}

theorem history_append (pm : PluginManager) {trace : List (Nat × PluginAct)} (s : Nat)
    (acts : List PluginAct) (h : pm'.trace = trace ++ acts.map (fun a => (s,a)))
    (ht : pm.trace = trace) (slot : Nat) :
    pm'.history slot = pm.history slot ++ if slot = s then acts else [] := by
  unfold history
  rw [h,ht,List.filter_append,List.map_append]
  congr 1
  by_cases hs : slot = s
  · simp [hs,List.filter_map,Function.comp_def]
  · simp [hs,Ne.symm hs,List.filter_map,Function.comp_def]

theorem Kept.history_fresh (h : pm.Kept) (hs : pm.slots ≤ slot) : pm.history slot = [] := by
  unfold history
  rw [List.map_eq_nil_iff,List.filter_eq_nil_iff]
  intro e he
  have hlt := h.fresh e he
  simp only [decide_eq_true_eq]
  omega

/-- A call about a new plugin leaves the histories of the others. -/
theorem history_others {acts : List PluginAct}
    (h : pm'.trace = pm.trace ++ acts.map (fun a => (pm.slots,a))) (hs : slot ≠ pm.slots) :
    pm'.history slot = pm.history slot := by
  rw [history_append pm pm.slots acts h rfl,if_neg hs,List.append_nil]

theorem Kept.history_new (hk : pm.Kept) {acts : List PluginAct}
    (h : pm'.trace = pm.trace ++ acts.map (fun a => (pm.slots,a))) :
    pm'.history pm.slots = acts := by
  rw [history_append pm pm.slots acts h rfl,if_pos rfl,hk.history_fresh le_rfl,List.nil_append]

/-- What a release adds to the history of one plugin: its end, where it is among those released. -/
theorem history_releases {xs : List Owned}
    (h : pm'.trace = pm.trace ++ xs.flatMap (fun x => x.death.map (fun a => (x.slot,a))))
    (slot : Nat) :
    pm'.history slot =
      pm.history slot ++ (xs.filter (fun x => x.slot = slot)).flatMap Owned.death := by
  unfold history
  rw [h,List.filter_append,List.map_append]
  congr 1
  clear h
  induction xs with
  | nil => rfl
  | cons x xs ih =>
    rw [List.flatMap_cons,List.filter_append,List.map_append,ih]
    by_cases hx : x.slot = slot
    · simp [hx,List.filter_map,Function.comp_def]
    · simp [hx,List.filter_map,Function.comp_def]

theorem mem_lastActs {lib shutdown : Bool} {b : Bool} :
    PluginAct.initialised b ∉ lastActs lib shutdown := by
  cases lib <;> cases shutdown <;> simp [lastActs]

theorem mem_birth {x : Owned} : PluginAct.initialised true ∈ x.birth ↔ x.shutdown = true := by
  unfold Owned.birth
  cases x.lib <;> cases x.shutdown <;> simp

theorem Kept.released (h : pm.Kept) {xs : List Owned} (howned : pm.owned.Perm (xs ++ pm'.owned))
    {x : Owned} (hx : x ∈ xs) :
    xs.filter (fun y => y.slot = x.slot) = [x] ∧ ∀ y ∈ pm'.owned, y.slot ≠ x.slot := by
  have hapart := (howned.map Owned.slot).nodup_iff.1 h.apart
  rw [List.map_append,List.nodup_append] at hapart
  obtain ⟨hxs,_,hdisjoint⟩ := hapart
  constructor
  · have hmem : ∀ y, y ∈ xs.filter (fun y => y.slot = x.slot) ↔ y = x := by
      intro y
      rw [List.mem_filter,decide_eq_true_eq]
      constructor
      · rintro ⟨hy,hslot⟩
        exact List.inj_on_of_nodup_map hxs hy hx hslot
      · rintro rfl
        exact ⟨hx,rfl⟩
    have hnodup : (xs.filter (fun y => y.slot = x.slot)).Nodup := hxs.of_map.filter _
    rw [← List.perm_singleton]
    exact (List.perm_ext_iff_of_nodup hnodup (List.nodup_singleton x)).2 (by simpa using hmem)
  · intro y hy
    exact (hdisjoint _ (List.mem_map_of_mem hx) _ (List.mem_map_of_mem hy)).symm

theorem Kept.unreleased {xs : List Owned} (hno : ∀ x ∈ xs, x.slot ≠ slot)
    (htrace : pm'.trace = pm.trace ++ xs.flatMap (fun x => x.death.map (fun a => (x.slot,a)))) :
    pm'.history slot = pm.history slot := by
  have hnone : xs.filter (fun x => x.slot = slot) = [] := by
    rw [List.filter_eq_nil_iff]
    intro x hx
    simpa using hno x hx
  rw [history_releases htrace,hnone,List.flatMap_nil,List.append_nil]

theorem Moves.kept (h : pm.Moves pm' spared) (hk : pm.Kept) : pm'.Kept := by
  cases h with
  | stays _ howned htrace hslots =>
    refine ⟨(howned.map _).nodup_iff.2 hk.apart,fun x hx => ?_,fun x hx => ?_,fun e he => ?_⟩
    · rw [hslots]
      exact hk.drawn x (howned.mem_iff.1 hx)
    · rw [← hk.born x (howned.mem_iff.1 hx)]
      simp only [history,htrace]
    · rw [hslots]
      exact hk.fresh e (htrace ▸ he)
  | fails acts _ _ howned htrace hslots =>
    refine ⟨howned ▸ hk.apart,fun x hx => ?_,fun x hx => ?_,fun e he => ?_⟩
    · have hlt := hk.drawn x (howned ▸ hx)
      omega
    · rw [howned] at hx
      have hne : x.slot ≠ pm.slots := Nat.ne_of_lt (hk.drawn x hx)
      rw [history_others htrace hne,hk.born x hx]
    · rw [htrace,List.mem_append,List.mem_map] at he
      rcases he with he | ⟨a,_,rfl⟩
      · have hlt := hk.fresh e he
        omega
      · simp [hslots]
  | admits x _ hslot howned htrace hslots =>
    refine ⟨(howned.map _).nodup_iff.2 ?_,fun y hy => ?_,fun y hy => ?_,fun e he => ?_⟩
    · rw [List.map_cons,List.nodup_cons]
      refine ⟨fun hmem => ?_,hk.apart⟩
      obtain ⟨y,hy,hyx⟩ := List.mem_map.1 hmem
      have hlt := hk.drawn y hy
      omega
    · rcases List.mem_cons.1 (howned.mem_iff.1 hy) with rfl | hy
      · omega
      · have hlt := hk.drawn y hy
        omega
    · rcases List.mem_cons.1 (howned.mem_iff.1 hy) with rfl | hy
      · rw [hslot,hk.history_new htrace]
      · rw [history_others htrace (Nat.ne_of_lt (hk.drawn y hy)),hk.born y hy]
    · rw [htrace,List.mem_append,List.mem_map] at he
      rcases he with he | ⟨a,_,rfl⟩
      · have hlt := hk.fresh e he
        omega
      · simp [hslots]
  | releases xs _ howned htrace hslots =>
    have hkeep : ∀ x ∈ pm'.owned, x ∈ pm.owned := fun x hx =>
      howned.mem_iff.2 (List.mem_append_right _ hx)
    have hsub : pm'.owned.Sublist (xs ++ pm'.owned) := List.sublist_append_right _ _
    refine ⟨((howned.map _).nodup_iff.1 hk.apart).sublist (hsub.map _),fun x hx => ?_,
      fun x hx => ?_,fun e he => ?_⟩
    · rw [hslots]
      exact hk.drawn x (hkeep x hx)
    · rw [Kept.unreleased (fun y hy heq => ?_) htrace,hk.born x (hkeep x hx)]
      exact (hk.released howned hy).2 x hx heq.symm
    · rw [hslots]
      rw [htrace,List.mem_append,List.mem_flatMap] at he
      rcases he with he | ⟨x,hx,he⟩
      · exact hk.fresh e he
      · obtain ⟨a,_,rfl⟩ := List.mem_map.1 he
        exact hk.drawn x (howned.mem_iff.2 (List.mem_append_left _ hx))

/-- A call that refuses no plugin after its init leaves all of them settled. -/
theorem Moves.settled (h : pm.Moves pm' spared) (hs : spared) (hk : pm.Kept)
    (hall : ∀ slot, pm.Settled slot) : ∀ slot, pm'.Settled slot := by
  intro slot hinit
  cases h with
  | stays _ howned htrace _ =>
    have hsame : pm'.history slot = pm.history slot := by simp only [history,htrace]
    rw [hsame] at hinit ⊢
    rcases hall slot hinit with ⟨x,hx,hrest⟩ | ⟨hno,hrest⟩
    · exact .inl ⟨x,howned.mem_iff.2 hx,hrest⟩
    · exact .inr ⟨fun x hx => hno x (howned.mem_iff.1 hx),hrest⟩
  | fails acts _ hspared howned htrace _ =>
    rw [howned]
    by_cases hslot : slot = pm.slots
    · rw [hslot,hk.history_new htrace] at hinit
      exact absurd hs (hspared.1 hinit)
    · rw [history_others htrace hslot] at hinit ⊢
      exact hall slot hinit
  | admits x _ hx howned htrace _ =>
    by_cases hslot : slot = pm.slots
    · rw [hslot,hk.history_new htrace]
      exact .inl ⟨x,howned.mem_iff.2 List.mem_cons_self,hx,rfl⟩
    · rw [history_others htrace hslot] at hinit ⊢
      rcases hall slot hinit with ⟨y,hy,hrest⟩ | ⟨hno,hrest⟩
      · exact .inl ⟨y,howned.mem_iff.2 (List.mem_cons_of_mem _ hy),hrest⟩
      · refine .inr ⟨fun y hy => ?_,hrest⟩
        rcases List.mem_cons.1 (howned.mem_iff.1 hy) with rfl | hy
        · omega
        · exact hno y hy
  | releases xs _ howned htrace _ =>
    by_cases hrel : ∃ x ∈ xs, x.slot = slot
    · -- it is shut down now
      obtain ⟨x,hx,rfl⟩ := hrel
      obtain ⟨hfilter,hgone⟩ := hk.released howned hx
      have hborn := hk.born x (howned.mem_iff.2 (List.mem_append_left _ hx))
      rw [history_releases htrace,hfilter,hborn] at hinit ⊢
      simp only [List.flatMap_cons,List.flatMap_nil,List.append_nil] at hinit ⊢
      have hshut : x.shutdown = true := by
        rcases List.mem_append.1 hinit with hinit | hinit
        · exact mem_birth.1 hinit
        · exact absurd hinit mem_lastActs
      refine .inr ⟨hgone,x.lib,?_⟩
      rw [← hshut]
    · have hno : ∀ x ∈ xs, x.slot ≠ slot := fun x hx heq => hrel ⟨x,hx,heq⟩
      rw [Kept.unreleased hno htrace] at hinit ⊢
      rcases hall slot hinit with ⟨x,hx,hslot,hrest⟩ | ⟨hgone,hrest⟩
      · rcases List.mem_append.1 (howned.mem_iff.1 hx) with hx | hx
        · exact absurd hslot (hno x hx)
        · exact .inl ⟨x,hx,hslot,hrest⟩
      · refine .inr ⟨fun x hx => hgone x ?_,hrest⟩
        exact howned.mem_iff.2 (List.mem_append_right _ hx)

/-- What is lost stays lost. -/
theorem Moves.lost (h : pm.Moves pm' spared) (hl : pm.Lost slot) : pm'.Lost slot := by
  have hold : slot ≠ pm.slots := Nat.ne_of_lt hl.drawn
  cases h with
  | stays _ howned htrace hslots =>
    have hsame : pm'.history slot = pm.history slot := by simp only [history,htrace]
    refine ⟨fun x hx => hl.gone x (howned.mem_iff.1 hx),hslots ▸ hl.drawn,?_,?_⟩
    · exact hsame ▸ hl.started
    · exact hsame ▸ hl.running
  | fails acts _ _ howned htrace hslots =>
    have hsame : pm'.history slot = pm.history slot := history_others htrace hold
    refine ⟨howned ▸ hl.gone,hslots ▸ Nat.lt_succ_of_lt hl.drawn,?_,?_⟩
    · exact hsame ▸ hl.started
    · exact hsame ▸ hl.running
  | admits x _ hx howned htrace hslots =>
    have hsame : pm'.history slot = pm.history slot := history_others htrace hold
    refine ⟨fun y hy => ?_,hslots ▸ Nat.lt_succ_of_lt hl.drawn,hsame ▸ hl.started,
      hsame ▸ hl.running⟩
    rcases List.mem_cons.1 (howned.mem_iff.1 hy) with rfl | hy
    · omega
    · exact hl.gone y hy
  | releases xs _ howned htrace hslots =>
    have hsame : pm'.history slot = pm.history slot :=
      Kept.unreleased (fun x hx => hl.gone x (howned.mem_iff.2 (List.mem_append_left _ hx))) htrace
    refine ⟨fun x hx => hl.gone x ?_,hslots ▸ hl.drawn,hsame ▸ hl.started,hsame ▸ hl.running⟩
    exact howned.mem_iff.2 (List.mem_append_right _ hx)

/-- A plugin that is refused after its init is lost. -/
theorem Moves.loses (h : pm.Moves pm' spared) (hs : ¬ spared) (hk : pm.Kept) :
    pm'.Lost pm.slots := by
  cases h with
  | stays hspared => exact absurd hspared hs
  | admits _ hspared => exact absurd hspared hs
  | releases _ hspared => exact absurd hspared hs
  | fails acts hacts hspared howned htrace hslots =>
    have hhist : pm'.history pm.slots = acts := hk.history_new htrace
    refine ⟨fun x hx => ?_,?_,?_,?_⟩
    · rw [howned] at hx
      exact Nat.ne_of_lt (hk.drawn x hx)
    · omega
    · rw [hhist]
      exact hspared.2 hs
    · rw [hhist]
      exact hacts

theorem Lost.not_settled (h : pm.Lost slot) : ¬ pm.Settled slot := by
  intro hs
  rcases hs h.started with ⟨x,hx,hslot,_⟩ | ⟨_,lib,hhist⟩
  · exact h.gone x hx hslot
  · refine h.running ?_
    rw [hhist]
    simp [Owned.death,lastActs]

/-- Where nothing is loaded under the key, inserting adds one plugin. -/
theorem owned_insertHandler (pm : PluginManager) {name : String}
    (h : (pm.handlers.lookup name).isSome = false)
    (info : HandlerInfo) :
    owned { pm with handlers := pm.handlers.insert name info } = info.owned :: pm.owned := by
  have hno : name ∉ pm.handlers := AList.lookup_eq_none.1 (by simpa using h)
  simp only [owned,AList.entries_insert_of_notMem hno,List.map_cons,List.cons_append]

theorem owned_insertConnector (pm : PluginManager) {scheme : String}
    (h : (pm.connectors.lookup scheme).isSome = false) (info : ConnectorInfo) :
    (owned { pm with connectors := pm.connectors.insert scheme info }).Perm
      (info.owned :: pm.owned) := by
  have hno : scheme ∉ pm.connectors := AList.lookup_eq_none.1 (by simpa using h)
  simp only [owned,AList.entries_insert_of_notMem hno,List.map_cons]
  exact List.perm_middle

/-- What was there under the key, and the rest. -/
theorem entries_erase {α : Type} {t : Table String α} {key : String} {a : α}
    (h : t.lookup key = some a) : t.entries.Perm (⟨key,a⟩ :: (t.erase key).entries) := by
  have hnodup : (⟨key,a⟩ :: (t.erase key).entries : List (Sigma fun _ : String => α)).NodupKeys :=
    (t.insert key a).nodupKeys
  refine List.lookup_ext t.nodupKeys hnodup fun k b => ?_
  change b ∈ t.lookup k ↔ b ∈ (t.insert key a).lookup k
  by_cases hk : k = key
  · subst hk
    rw [h,AList.lookup_insert]
  · rw [AList.lookup_insert_ne hk]

theorem owned_eraseHandler {name : String} {info : HandlerInfo}
    (h : pm.handlers.lookup name = some info) :
    pm.owned.Perm (info.owned :: owned { pm with handlers := pm.handlers.erase name }) :=
  ((entries_erase h).map _).append_right _

theorem owned_eraseConnector {scheme : String} {info : ConnectorInfo}
    (h : pm.connectors.lookup scheme = some info) :
    pm.owned.Perm (info.owned :: owned { pm with connectors := pm.connectors.erase scheme }) := by
  refine List.Perm.trans (((entries_erase h).map _).append_left _) ?_
  exact List.perm_middle

/-- What is done to a plugin before its init call. -/
def opening (lib : Bool) : List PluginAct := if lib then [.opened] else []

/-- An info object that ends before the init call has succeeded. -/
theorem Moves.unstarted (lib : Bool) (hs : spared) (howned : pm'.owned = pm.owned)
    (htrace : pm'.trace =
      pm.trace ++ (opening lib ++ lastActs lib false).map (fun a => (pm.slots,a)))
    (hslots : pm'.slots = pm.slots+1) : pm.Moves pm' spared := by
  refine .fails (opening lib ++ lastActs lib false) ?_ ?_ howned htrace hslots
  · cases lib <;> simp [opening,lastActs]
  · cases lib <;> simp [opening,lastActs,hs]

/-- One that ends after it, still without the plugin's operations. -/
theorem Moves.turned_away (lib shutdown : Bool) (hs : spared ↔ shutdown = false)
    (howned : pm'.owned = pm.owned)
    (htrace : pm'.trace = pm.trace ++
      (opening lib ++ [PluginAct.initialised shutdown] ++ lastActs lib false).map
        (fun a => (pm.slots,a)))
    (hslots : pm'.slots = pm.slots+1) : pm.Moves pm' spared := by
  refine .fails (opening lib ++ [.initialised shutdown] ++ lastActs lib false) ?_ ?_ howned htrace
    hslots
  · cases lib <;> simp [opening,lastActs]
  · rw [hs]
    cases shutdown <;> cases lib <;> simp [opening,lastActs]

theorem admitHandler_moves (pm : PluginManager) (lib : Bool) (path fallback : String)
    (init : InitResult HandlerT) :
    pm.Moves ((pm.does pm.slots (opening lib)).admitHandler lib path fallback init).1
      (pm.sparesHandler fallback init) := by
  obtain ⟨rc,out⟩ := init
  by_cases hok : ∃ h, rc = 0 ∧ out = some h
  · obtain ⟨h,rfl,rfl⟩ := hok
    cases htaken : (pm.handlers.lookup (h.key fallback)).isSome with
    | true =>
      have hsome : pm.handlers.lookup (h.key fallback) ≠ none := by
        rw [← Option.isSome_iff_ne_none,htaken]
      have hspares : pm.sparesHandler fallback (0,some h) ↔ h.shutdown = false := by
        simp [sparesHandler,hsome]
      refine .turned_away lib h.shutdown hspares ?_ ?_ ?_
      · simp [admitHandler,does,htaken,HandlerInfo.destroy,owned]
      · simp [admitHandler,does,htaken,HandlerInfo.destroy,HandlerInfo.shutsDown]
      · simp [admitHandler,does,htaken,HandlerInfo.destroy]
    | false =>
      refine .admits ⟨pm.slots,lib,h.shutdown⟩ ?_ rfl ?_ ?_ ?_
      · intro _
        simpa using htaken
      · simp only [admitHandler,does,htaken,Bool.false_eq_true,if_false]
        refine .of_eq ?_
        exact owned_insertHandler { pm with slots := _, trace := _ } htaken _
      · cases lib <;> simp [admitHandler,does,htaken,opening,Owned.birth]
      · simp [admitHandler,does,htaken]
  · have hspares : pm.sparesHandler fallback (rc,out) := by
      unfold sparesHandler
      split
      · rename_i h heq
        cases heq
        exact absurd ⟨h,rfl,rfl⟩ hok
      · trivial
    have hrun : ((pm.does pm.slots (opening lib)).admitHandler lib path fallback (rc,out)).1 =
        HandlerInfo.destroy { pm.does pm.slots (opening lib) with slots := pm.slots+1 }
          { slot := pm.slots, lib := lib } := by
      unfold admitHandler
      split
      · rename_i h heq
        cases heq
        exact absurd ⟨h,rfl,rfl⟩ hok
      · rfl
    rw [hrun]
    refine .unstarted lib hspares rfl ?_ rfl
    simp [does,HandlerInfo.destroy,HandlerInfo.shutsDown]

theorem admitConnector_moves (pm : PluginManager) (lib : Bool) (path fallback : String)
    (init : InitResult ConnectorOpsT) :
    pm.Moves ((pm.does pm.slots (opening lib)).admitConnector lib path fallback init).1
      (pm.sparesConnector init) := by
  obtain ⟨rc,out⟩ := init
  by_cases hok : ∃ ops, rc = 0 ∧ out = some ops
  · obtain ⟨ops,rfl,rfl⟩ := hok
    by_cases hfree : ops.scheme ≠ "" ∧ (pm.connectors.lookup ops.scheme).isSome = false
    · obtain ⟨hscheme,hfree⟩ := hfree
      refine .admits ⟨pm.slots,lib,ops.shutdown⟩ ?_ rfl ?_ ?_ ?_
      · intro _
        exact ⟨hscheme,by simpa using hfree⟩
      · simp only [admitConnector,does,hscheme,hfree,Bool.false_eq_true,if_false]
        exact owned_insertConnector { pm with slots := _, trace := _ } hfree _
      · cases lib <;> simp [admitConnector,does,hscheme,hfree,opening,Owned.birth]
      · simp [admitConnector,does,hscheme,hfree]
    · -- the scheme is empty or loaded already, and the info object ends without its operations
      obtain ⟨why,hrun⟩ : ∃ why,
          (pm.does pm.slots (opening lib)).admitConnector lib path fallback (0,some ops) =
            (ConnectorInfo.destroy { (pm.does pm.slots (opening lib)).does pm.slots
              [.initialised ops.shutdown] with slots := pm.slots+1 }
                { slot := pm.slots, lib := lib },some why) := by
        by_cases hscheme : ops.scheme = ""
        · exact ⟨.emptyScheme,by simp [admitConnector,hscheme,does]⟩
        · have htaken : (pm.connectors.lookup ops.scheme).isSome = true := by
            by_contra hno
            exact hfree ⟨hscheme,by simpa using hno⟩
          exact ⟨.taken ops.scheme,by simp [admitConnector,hscheme,htaken,does]⟩
      have hspares : pm.sparesConnector (0,some ops) ↔ ops.shutdown = false := by
        unfold sparesConnector
        constructor
        · intro h
          by_contra hshut
          obtain ⟨hscheme,hnone⟩ := h (by simpa using hshut)
          exact hfree ⟨hscheme,by rw [hnone]; rfl⟩
        · intro hshut h
          rw [hshut] at h
          cases h
      rw [hrun]
      refine .turned_away lib ops.shutdown hspares rfl ?_ rfl
      simp [does,ConnectorInfo.destroy,ConnectorInfo.shutsDown]
  · have hspares : pm.sparesConnector (rc,out) := by
      unfold sparesConnector
      split
      · rename_i ops heq
        cases heq
        exact absurd ⟨ops,rfl,rfl⟩ hok
      · trivial
    have hrun : ((pm.does pm.slots (opening lib)).admitConnector lib path fallback (rc,out)).1 =
        ConnectorInfo.destroy { pm.does pm.slots (opening lib) with slots := pm.slots+1 }
          { slot := pm.slots, lib := lib } := by
      unfold admitConnector
      split
      · rename_i ops heq
        cases heq
        exact absurd ⟨ops,rfl,rfl⟩ hok
      · rfl
    rw [hrun]
    refine .unstarted lib hspares rfl ?_ rfl
    simp [does,ConnectorInfo.destroy,ConnectorInfo.shutsDown]

theorem Moves.nothing (pm : PluginManager) (hs : spared) : pm.Moves pm spared :=
  .stays hs (List.Perm.refl _) rfl rfl

theorem refused_fst (error : Refusal → String) (r : PluginManager × Option Refusal) :
    (refused error r).1 = r.1 := by
  unfold refused
  cases r.2 <;> rfl

theorem loadPlugin_moves (pm : PluginManager) (f : PluginFile) :
    pm.Moves (pm.loadPlugin f).1 (pm.Spares (.load f)) := by
  by_cases hopens : PluginFile.opens f
  · obtain ⟨hpresent,hmeta,hdl⟩ := hopens
    have hspares : pm.Spares (.load f) ↔ pm.sparesInits f.stem f.handlerInit f.connectorInit := by
      simp [Spares,PluginFile.opens,hpresent,hmeta,hdl]
    rw [hspares]
    cases hh : f.handlerInit with
    | some init =>
      have hrun : (pm.loadPlugin f).1 =
          ((pm.does pm.slots (opening true)).admitHandler true f.path f.stem init).1 := by
        simp [loadPlugin,hpresent,hmeta,hdl,hh,refused_fst,opening]
      rw [hrun]
      exact pm.admitHandler_moves true f.path f.stem init
    | none =>
      cases hc : f.connectorInit with
      | some init =>
        have hrun : (pm.loadPlugin f).1 =
            ((pm.does pm.slots (opening true)).admitConnector true f.path f.stem init).1 := by
          simp [loadPlugin,hpresent,hmeta,hdl,hh,hc,refused_fst,opening]
        rw [hrun]
        exact pm.admitConnector_moves true f.path f.stem init
      | none =>
        have hrun : (pm.loadPlugin f).1 =
            { (pm.does pm.slots [.opened]).does pm.slots [.closed] with slots := pm.slots+1 } := by
          simp [loadPlugin,hpresent,hmeta,hdl,hh,hc]
        rw [hrun]
        refine .fails [.opened,.closed] (by simp) ?_ rfl ?_ rfl
        · simp [sparesInits]
        · simp [does]
  · have hsame : (pm.loadPlugin f).1 = pm := by
      unfold loadPlugin
      split
      · rfl
      · rename_i hpresent
        split
        · rfl
        · rename_i hmeta
          split
          · rfl
          · rename_i hdl
            exact absurd ⟨by simpa using hpresent,hmeta,hdl⟩ hopens
    rw [hsame]
    exact .nothing pm fun h => absurd h hopens

theorem loadStaticPlugin_moves (pm : PluginManager) (entry : StaticPluginEntry) :
    pm.Moves (pm.loadStaticPlugin entry) (pm.sparesEntry entry) := by
  have hsame : pm.does pm.slots (opening false) = pm := by simp [does,opening]
  unfold loadStaticPlugin sparesEntry
  cases entry.handlerInit with
  | some init =>
    have hmoves := pm.admitHandler_moves false "" entry.name init
    rw [hsame] at hmoves
    exact hmoves
  | none =>
    cases entry.connectorInit with
    | some init =>
      have hmoves := pm.admitConnector_moves false "" entry.name init
      rw [hsame] at hmoves
      exact hmoves
    | none => exact .nothing pm trivial

theorem unloadHandler_moves (pm : PluginManager) (name : String) (hs : spared) :
    pm.Moves (pm.unloadHandler name).1 spared := by
  unfold unloadHandler
  cases hname : pm.handlers.lookup name with
  | none => exact .nothing pm hs
  | some info =>
    refine .releases [info.owned] hs (owned_eraseHandler hname) ?_ rfl
    simp [HandlerInfo.destroy,does,Owned.death,HandlerInfo.owned]

theorem unloadConnector_moves (pm : PluginManager) (scheme : String) (hs : spared) :
    pm.Moves (pm.unloadConnector scheme).1 spared := by
  unfold unloadConnector
  cases hscheme : pm.connectors.lookup scheme with
  | none => exact .nothing pm hs
  | some info =>
    refine .releases [info.owned] hs (owned_eraseConnector hscheme) ?_ rfl
    simp [ConnectorInfo.destroy,does,Owned.death,ConnectorInfo.owned]

theorem setEnabled_moves (pm : PluginManager) (name : String) (enabled : Bool) (hs : spared) :
    pm.Moves (pm.setEnabled name enabled).1 spared := by
  unfold setEnabled
  cases hname : pm.handlers.lookup name with
  | none => exact .nothing pm hs
  | some info => exact .stays hs (owned_eraseHandler hname).symm rfl rfl

theorem destroy_handler (info : HandlerInfo) (pm : PluginManager) :
    info.destroy pm =
      { pm with trace := pm.trace ++ info.owned.death.map (fun a => (info.owned.slot,a)) } := by
  simp [HandlerInfo.destroy,does,Owned.death,HandlerInfo.owned]

theorem destroy_connector (info : ConnectorInfo) (pm : PluginManager) :
    info.destroy pm =
      { pm with trace := pm.trace ++ info.owned.death.map (fun a => (info.owned.slot,a)) } := by
  simp [ConnectorInfo.destroy,does,Owned.death,ConnectorInfo.owned]

/-- Destroying one info object after another, of either sort. -/
theorem destroyAll {ι : Type} {destroy : ι → PluginManager → PluginManager} {owned : ι → Owned}
    (hone : ∀ info pm, destroy info pm =
      { pm with trace := pm.trace ++ (owned info).death.map (fun a => ((owned info).slot,a)) })
    (l : List (Sigma fun _ : String => ι)) (pm : PluginManager) :
    l.foldl (fun pm e => destroy e.2 pm) pm =
      { pm with trace := pm.trace ++
          (l.map (fun e => owned e.2)).flatMap (fun x => x.death.map (fun a => (x.slot,a))) } := by
  induction l generalizing pm with
  | nil => simp
  | cons e l ih =>
    rw [List.foldl_cons,ih,hone]
    simp

theorem unloadAll_owned (pm : PluginManager) : pm.unloadAll.owned = [] := by
  unfold unloadAll
  rw [destroyAll destroy_handler,destroyAll destroy_connector]
  rfl

theorem unloadAll_moves (pm : PluginManager) (hs : spared) : pm.Moves pm.unloadAll spared := by
  refine .releases pm.owned hs ?_ ?_ ?_
  · rw [unloadAll_owned,List.append_nil]
  · unfold unloadAll
    rw [destroyAll destroy_handler,destroyAll destroy_connector]
    simp [owned]
  · unfold unloadAll
    rw [destroyAll destroy_handler,destroyAll destroy_connector]

/-- What a call leaves behind: settled plugins where it spares them all, and a lost one where it
does not. -/
structure Leaves (pm pm' : PluginManager) (spared : Prop) : Prop where
  kept : pm.Kept → pm'.Kept
  settled : spared → pm.Kept → (∀ slot, pm.Settled slot) → ∀ slot, pm'.Settled slot
  lost : ∀ slot, pm.Lost slot → pm'.Lost slot
  loses : ¬ spared → pm.Kept → ∃ slot, pm'.Lost slot

theorem Moves.leaves (h : pm.Moves pm' spared) : pm.Leaves pm' spared :=
  ⟨h.kept,h.settled,fun _ => h.lost,fun hs hk => ⟨_,h.loses hs hk⟩⟩

theorem Leaves.along {ε : Type} {act : PluginManager → ε → PluginManager}
    {spares : PluginManager → ε → Prop}
    (hstep : ∀ (pm : PluginManager) (a : ε), pm.Leaves (act pm a) (spares pm a))
    (pm : PluginManager) (steps : List ε) :
    pm.Leaves (run act pm steps) (Along act spares pm steps) := by
  induction steps generalizing pm with
  | nil => exact ⟨id,fun _ _ => id,fun _ => id,fun hno => absurd trivial hno⟩
  | cons a steps ih =>
    have hfirst := hstep pm a
    have hrest := ih (act pm a)
    refine ⟨fun hk => hrest.kept (hfirst.kept hk),fun hs hk hall => ?_,
      fun slot hl => hrest.lost slot (hfirst.lost slot hl),fun hs hk => ?_⟩
    · exact hrest.settled hs.2 (hfirst.kept hk) (hfirst.settled hs.1 hk hall)
    · by_cases hsa : spares pm a
      · exact hrest.loses (fun hs' => hs ⟨hsa,hs'⟩) (hfirst.kept hk)
      · obtain ⟨slot,hl⟩ := hfirst.loses hsa hk
        exact ⟨slot,hrest.lost slot hl⟩

theorem act_leaves (pm : PluginManager) (call : PluginCall) :
    pm.Leaves (pm.act call) (pm.Spares call) := by
  cases call with
  | load f => exact (pm.loadPlugin_moves f).leaves
  | loadStatic registry =>
    exact Leaves.along (fun pm entry => (pm.loadStaticPlugin_moves entry).leaves) pm registry
  | unloadHandler name => exact (pm.unloadHandler_moves name trivial).leaves
  | unloadConnector scheme => exact (pm.unloadConnector_moves scheme trivial).leaves
  | enableHandler name => exact (pm.setEnabled_moves name true trivial).leaves
  | disableHandler name => exact (pm.setEnabled_moves name false trivial).leaves
  | unloadAll => exact (pm.unloadAll_moves trivial).leaves

theorem kept_empty : ({} : PluginManager).Kept :=
  ⟨List.nodup_nil,by simp [owned],by simp [owned],by simp⟩

/-- The maps of two states are the same. -/
def SameMaps (pm pm' : PluginManager) : Prop :=
  pm'.handlers = pm.handlers ∧ pm'.connectors = pm.connectors

theorem admitHandler_refused (pm : PluginManager) (lib : Bool) (path fallback : String)
    (init : InitResult HandlerT) {why : Refusal}
    (h : (pm.admitHandler lib path fallback init).2 = some why) :
    pm.SameMaps (pm.admitHandler lib path fallback init).1 := by
  unfold admitHandler at h ⊢
  split
  · rename_i hd
    dsimp only
    split
    · exact ⟨rfl,rfl⟩
    · rename_i hfree
      simp [hfree] at h
  · exact ⟨rfl,rfl⟩

theorem admitConnector_refused (pm : PluginManager) (lib : Bool) (path fallback : String)
    (init : InitResult ConnectorOpsT) {why : Refusal}
    (h : (pm.admitConnector lib path fallback init).2 = some why) :
    pm.SameMaps (pm.admitConnector lib path fallback init).1 := by
  unfold admitConnector at h ⊢
  split
  · rename_i ops
    dsimp only
    split
    · exact ⟨rfl,rfl⟩
    · rename_i hscheme
      split
      · exact ⟨rfl,rfl⟩
      · rename_i hfree
        simp [hscheme,hfree] at h
  · exact ⟨rfl,rfl⟩

theorem refused_error {error : Refusal → String} {r : PluginManager × Option Refusal} {e : String}
    (h : (refused error r).2 = .error e) : ∃ why, r.2 = some why := by
  unfold refused at h
  cases hr : r.2 with
  | none =>
    rw [hr] at h
    cases h
  | some why => exact ⟨why,rfl⟩

/-- A load that fails leaves the maps as they are. -/
theorem loadPlugin_error (pm : PluginManager) (f : PluginFile) {e : String}
    (h : (pm.loadPlugin f).2 = .error e) : pm.SameMaps (pm.loadPlugin f).1 := by
  unfold loadPlugin at h ⊢
  split
  · exact ⟨rfl,rfl⟩
  · rename_i hpresent
    rw [if_neg hpresent] at h
    split
    · exact ⟨rfl,rfl⟩
    · rename_i hmeta
      rw [hmeta] at h
      dsimp only at h
      split
      · exact ⟨rfl,rfl⟩
      · rename_i hdl
        rw [hdl] at h
        dsimp only at h ⊢
        cases hh : f.handlerInit with
        | some init =>
          rw [hh] at h
          obtain ⟨why,hwhy⟩ := refused_error h
          rw [refused_fst]
          exact admitHandler_refused _ true f.path f.stem init hwhy
        | none =>
          rw [hh] at h
          cases hc : f.connectorInit with
          | some init =>
            rw [hc] at h
            obtain ⟨why,hwhy⟩ := refused_error h
            rw [refused_fst]
            exact admitConnector_refused _ true f.path f.stem init hwhy
          | none => exact ⟨rfl,rfl⟩

/-- In every run of calls: the plugins that were initialised are loaded and not yet shut down, or
have been shut down once and before their library was closed, if and only if no call refuses a
plugin after its init call. When everything is unloaded nothing is loaded any more, and a load
that fails changes no map. -/
theorem shutdown_exactly_once (calls : List PluginCall) :
    ((∀ slot, (run act {} calls).Settled slot) ↔ Along act Spares {} calls) ∧
    (run act {} calls).unloadAll.owned = [] ∧
    ∀ (f : PluginFile) (e : String), ((run act {} calls).loadPlugin f).2 = .error e →
      (run act {} calls).SameMaps ((run act {} calls).loadPlugin f).1 := by
  have hleaves := Leaves.along act_leaves {} calls
  refine ⟨⟨fun hall => ?_,fun hs => ?_⟩,unloadAll_owned _,fun f e he => loadPlugin_error _ f he⟩
  · by_contra hno
    obtain ⟨slot,hl⟩ := hleaves.loses hno kept_empty
    exact hl.not_settled (hall slot)
  · exact hleaves.settled hs kept_empty fun slot hinit => by simp [history] at hinit

end PluginManager

/-- Two plugins that report the same name. -/
def echoPlugin (path : String) : PluginFile where
  path := path
  filename := path
  stem := path
  handlerInit := some (0,some { name := some "echo" })

/-- The second one is initialised, refused, and closed without a shutdown. -/
theorem refused_not_shut_down :
    ¬ ∀ (calls : List PluginCall) (slot : Nat), (run PluginManager.act {} calls).Settled slot := by
  intro hall
  obtain ⟨hhist,howned⟩ :
      (run PluginManager.act {} [.load (echoPlugin "a.so"),.load (echoPlugin "b.so")]).history 1 =
        [.opened,.initialised true,.closed] ∧
      ∀ x ∈ (run PluginManager.act {} [.load (echoPlugin "a.so"),
        .load (echoPlugin "b.so")]).owned, x.slot ≠ 1 := by
    decide +kernel
  rcases hall [.load (echoPlugin "a.so"),.load (echoPlugin "b.so")] 1 (by rw [hhist]; simp) with
    ⟨x,hx,hslot,_⟩ | ⟨_,lib,hlib⟩
  · exact howned x hx hslot
  · rw [hhist] at hlib
    have hshut : PluginAct.shutdown ∈ [.opened,.initialised true,PluginAct.closed] := by
      rw [hlib]
      simp [Owned.death,lastActs]
    simp at hshut

end GoodNet
