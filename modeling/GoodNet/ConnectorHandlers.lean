import GoodNet.PluginDispatch
set_option autoImplicit false

/-! Handlers that a connector registers, as ICE does for its signals. The core keeps some types to
itself and to its plugins: no packet of these ever runs such a handler, whatever else is
registered, and no packet of a type that it did not ask for. -/

namespace GoodNet
open Interleaving

/-- Where the handler under a number stands on the bus: under types that it asked for and that are
not kept from connectors, and nowhere among the wildcards. -/
structure PluginNode.Fenced (asked : HandlerPtr → Prop) (slot : Nat) (n : PluginNode) : Prop where
  chains : ∀ t, ∀ e ∈ n.bus.chain t, e.fn.1 = slot →
    isConnectorBlockedType t = false ∧ t ∈ e.fn.2.supportedTypes ∧ asked e.fn
  wildcards : ∀ e ∈ n.bus.wildcards.handlers, e.fn.1 ≠ slot

section
variable {n : PluginNode} {asked : HandlerPtr → Prop} {slot : Nat}

theorem PluginNode.Fenced.of_bus {n' : PluginNode} (h : n.Fenced asked slot)
    (hb : n'.bus = n.bus) : n'.Fenced asked slot := by
  constructor
  · rw [hb]
    exact h.chains
  · rw [hb]
    exact h.wildcards

/-- One subscription to a type that the handler may have. -/
theorem PluginNode.Fenced.subscribe (h : n.Fenced asked slot) {p : HandlerPtr} {t : UInt32}
    (hp : p.1 = slot → isConnectorBlockedType t = false ∧ t ∈ p.2.supportedTypes ∧ asked p)
    (name : String) (prio : UInt8) :
    PluginNode.Fenced asked slot { n with bus := (n.bus.subscribe t name p prio).1 } := by
  refine ⟨fun t' e he hslot => ?_,h.wildcards⟩
  rw [SignalBus.subscribe_chain] at he
  split at he
  · rename_i ht
    subst ht
    rcases List.mem_append.mp ((List.mem_insertionSort _).mp he) with he | he
    · exact h.chains _ e he hslot
    · rw [List.mem_singleton.mp he] at hslot ⊢
      exact hp hslot
  · exact h.chains t' e he hslot

theorem PluginNode.Fenced.subscribeAll {p : HandlerPtr} {types : List UInt32}
    (h : n.Fenced asked slot) (name : String) (prio : UInt8)
    (hp : ∀ t ∈ types, p.1 = slot →
      isConnectorBlockedType t = false ∧ t ∈ p.2.supportedTypes ∧ asked p) :
    PluginNode.Fenced asked slot
      { n with bus := types.foldl (fun bus t => (bus.subscribe t name p prio).1) n.bus } := by
  induction types generalizing n with
  | nil => exact h
  | cons t types ih =>
    have hfirst := h.subscribe (hp t List.mem_cons_self) name prio
    exact ih hfirst (fun t' ht' => hp t' (List.mem_cons_of_mem t ht'))

theorem PluginNode.Fenced.subscribeWildcard (h : n.Fenced asked slot) {p : HandlerPtr}
    (hp : p.1 ≠ slot) (name : String) (prio : UInt8) :
    PluginNode.Fenced asked slot { n with bus := n.bus.subscribeWildcard name p prio } := by
  refine ⟨h.chains,fun e he => ?_⟩
  rcases List.mem_append.mp ((List.mem_insertionSort _).mp he) with he | he
  · exact h.wildcards e he
  · rw [List.mem_singleton.mp he]
    exact hp

/-- A registration keeps the fence, if the handler it is about is registered by a connector. -/
theorem PluginNode.Fenced.registerHandlerInternal (h : n.Fenced asked slot) {p : HandlerPtr}
    {source : HandlerSource} (hp : p.1 = slot → source = .connector ∧ asked p) :
    (n.registerHandlerInternal p source).Fenced asked slot := by
  unfold PluginNode.registerHandlerInternal
  split
  · exact h
  · rename_i name _
    dsimp only
    split
    · exact h
    · rename_i hwild
      split
      · rename_i hnone
        have hother : p.1 ≠ slot := fun hslot => hwild ⟨(hp hslot).1,hnone⟩
        exact (h.subscribeWildcard hother name p.2.busPriority).of_bus rfl
      · have hall := h.subscribeAll name p.2.busPriority
          (fun t (ht : t ∈ p.2.supportedTypes.filter (fun t =>
            !(source == .connector && isConnectorBlockedType t))) (hslot : p.1 = slot) => by
              obtain ⟨htypes,hallowed⟩ := List.mem_filter.mp ht
              obtain ⟨hsource,hasked⟩ := hp hslot
              subst hsource
              exact ⟨by simpa using hallowed,htypes,hasked⟩)
        split
        · exact hall
        · exact hall.of_bus rfl

/-- A packet runs handlers of its type and wildcards, and no others. -/
theorem PluginNode.Fenced.dispatch (h : n.Fenced asked slot) {reply : Nat → Propagation}
    {t : UInt32} (hrun : .handler slot ∈ n.dispatch reply t) :
    isConnectorBlockedType t = false ∧ ∃ p, asked p ∧ p.1 = slot ∧ t ∈ p.2.supportedTypes := by
  obtain ⟨e,he,hcode⟩ := List.mem_map.mp hrun
  have hslot : e.fn.1 = slot := by
    injection hcode
  have hcalled := (List.mem_filter.mp he).1
  rw [SignalBus.dispatchPacket_eq] at hcalled
  obtain ⟨rest,hsplit,_⟩ := emitFrom_spec (callback reply) 0
    (n.bus.chain t ++ n.bus.wildcards.handlers)
  have hmem : e ∈ n.bus.chain t ++ n.bus.wildcards.handlers := by
    rw [hsplit]
    exact List.mem_append_left _ hcalled
  rcases List.mem_append.mp hmem with hmem | hmem
  · obtain ⟨hblocked,htypes,hasked⟩ := h.chains t e hmem hslot
    exact ⟨hblocked,e.fn,hasked,hslot,htypes⟩
  · exact absurd hslot (h.wildcards e hmem)

end

/-- In every run of plugin calls and registrations, in any order and under any names: a handler that
only connectors have registered runs for no packet whose type is kept from connectors, and for
none whose type it did not name when it was registered. -/
theorem connector_handlers_fenced (calls : List NodeCall) (slot : Nat)
    (honly : ∀ p source, NodeCall.registerHandler p source ∈ calls → p.1 = slot →
      source = .connector) (reply : Nat → Propagation) (t : UInt32)
    (hrun : .handler slot ∈ (run PluginNode.act {} calls).dispatch reply t) :
    isConnectorBlockedType t = false ∧
    ∃ p, NodeCall.registerHandler p .connector ∈ calls ∧ p.1 = slot ∧
      t ∈ p.2.supportedTypes := by
  let asked : HandlerPtr → Prop := fun p => NodeCall.registerHandler p .connector ∈ calls
  have hstart : PluginNode.Fenced asked slot {} :=
    ⟨fun t e he => (by cases he),fun e he => (by cases he)⟩
  have hall : ∀ (done : List NodeCall) (n : PluginNode), done ⊆ calls → n.Fenced asked slot →
      (run PluginNode.act n done).Fenced asked slot := by
    intro done
    induction done with
    | nil => exact fun n _ hn => hn
    | cons call rest ih =>
      intro n hsub hn
      refine ih (n.act call) (fun c hc => hsub (List.mem_cons_of_mem call hc)) ?_
      have hcall : call ∈ calls := hsub List.mem_cons_self
      cases call with
      | plugin c => exact hn.of_bus rfl
      | registerConnector scheme ops => exact hn.of_bus rfl
      | effect e reply => exact hn
      | registerHandler p source =>
        rw [PluginNode.act_registerHandler]
        refine hn.registerHandlerInternal (fun hslot => ?_)
        have hsource := honly p source hcall hslot
        subst hsource
        exact ⟨rfl,hcall⟩
  exact (hall calls {} (fun c hc => hc) hstart).dispatch hrun

/-- A handler for signals that also asks for heartbeats. -/
def greedySignalHandler : HandlerT := { name := some "ice_signal_handler", supportedTypes := [40,4] }

theorem connector_handlers_fenced_signal :
    isConnectorBlockedType 40 = false ∧
    ∃ p, NodeCall.registerHandler p .connector ∈
        [NodeCall.registerHandler (0,echoHandler) .plugin,
          .registerHandler (1,greedySignalHandler) .connector] ∧
      p.1 = 1 ∧ (40 : UInt32) ∈ p.2.supportedTypes := by
  refine connector_handlers_fenced _ 1 (fun p source hmem hslot => ?_) carriesOn 40
    (by decide +kernel)
  simp only [List.mem_cons,List.not_mem_nil,or_false,NodeCall.registerHandler.injEq] at hmem
  rcases hmem with ⟨rfl,rfl⟩ | ⟨rfl,rfl⟩
  · cases hslot
  · rfl

end GoodNet
