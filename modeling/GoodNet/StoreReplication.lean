import GoodNet.StoreSync
import Mathlib.Logic.Function.Basic
set_option autoImplicit false

/-! Any number of stores that pass their rows on. The answers to SYNC requests are in flight
until they are imported, and notes that no store can see say where every row comes from. -/

namespace GoodNet.Store
open Codec Interleaving

/-- The row that a PUT wrote, and the row a copy was made of. -/
structure Provenance where
  origin : Row
  source : Row
  deriving DecidableEq, Repr

def unwritten : Row := Row.written [] 0 0 0

/-- A store with the provenance of its rows and the writes that have reached it, each with its
key and the time of the PUT. -/
structure Node where
  store : StoreHandler := {}
  prov : Bytes → Provenance := fun _ => ⟨unwritten,unwritten⟩
  heard : List (Bytes × UInt64) := []

/-- A SYNC response on its way, with the provenance of its entries. -/
structure Packet where
  dest : Nat
  payload : Bytes
  prov : List Provenance

structure Net where
  node : Nat → Node := fun _ => {}
  flight : List Packet := []
  /-- The times of the PUTs so far. -/
  puts : List UInt64 := []

inductive NetStep where
  | node (n : Nat) (ev : Event)
  | deliver (i : Nat) (clock : Clock)

def Packet.entries (p : Packet) : List (Entry × Provenance) :=
  (importedEntries p.payload).zip p.prov

def Node.importEntry (nd : Node) (e : Entry) (p : Provenance) (gotAt putAt : UInt64) : Node where
  store := { nd.store with rows := nd.store.rows.importEntry e gotAt putAt }
  prov := if nd.store.rows.takes e gotAt then Function.update nd.prov e.key p else nd.prov
  heard := (e.key,p.origin.timestampUs) :: nd.heard

def Node.importEntries (nd : Node) (clock : Clock) : List (Entry × Provenance) → Node
  | [] => nd
  | x :: l => (nd.importEntry x.1 x.2 (clock 0) (clock 1)).importEntries (fun i => clock (i+2)) l

/-- The store handles the response; the notes follow entry by entry. -/
def Node.receive (nd : Node) (p : Packet) (clock : Clock) : Node :=
  { nd.importEntries clock p.entries with store := (nd.store.onSync 0 p.payload clock).state }

def Node.own (nd : Node) (ev : Event) : Node :=
  match ev with
  | .request .put _ raw clock =>
    match putEntry raw with
    | none => { nd with store := nd.store.act ev }
    | some (key,value) =>
      let row := putRow raw value (clock 0)
      { store := nd.store.act ev
        prov := Function.update nd.prov key ⟨row,row⟩
        heard := (key,row.timestampUs) :: nd.heard }
  | _ => { nd with store := nd.store.act ev }

/-- The provenance of what a response carries. -/
def Node.served (nd : Node) (sync : StoreSyncPayload) (now : UInt64) : List Provenance :=
  ((nd.store.rows.since sync.sinceTimestamp now).take 255).map
    (fun x => ⟨(nd.prov x.1).origin,x.2⟩)

def Node.answers (nd : Node) : Event → List Packet
  | .request .sync peer raw clock =>
    (nd.store.onSync peer raw clock).sent.map (fun m =>
      { dest := m.peer, payload := m.payload,
        prov := nd.served (StoreSyncPayload.decode raw) (clock 0) })
  | _ => []

def putsAfter (puts : List UInt64) : Event → List UInt64
  | .request .put _ raw clock => if (putEntry raw).isSome then clock 0 :: puts else puts
  | _ => puts

def Net.act (net : Net) : NetStep → Net
  | .node n ev =>
    { node := Function.update net.node n ((net.node n).own ev)
      flight := net.flight ++ (net.node n).answers ev
      puts := putsAfter net.puts ev }
  | .deliver i clock =>
    match net.flight[i]? with
    | none => net
    | some p =>
      { net with
        node := Function.update net.node p.dest ((net.node p.dest).receive p clock)
        flight := net.flight.eraseIdx i }

/-- Every entry of an import meets `P` at the node as it then is. -/
def Node.EachImport (P : Node → Entry → Provenance → UInt64 → UInt64 → Prop) (nd : Node)
    (clock : Clock) : List (Entry × Provenance) → Prop
  | [] => True
  | x :: l => P nd x.1 x.2 (clock 0) (clock 1) ∧
      (nd.importEntry x.1 x.2 (clock 0) (clock 1)).EachImport P (fun i => clock (i+2)) l

instance decidableEachImport (P : Node → Entry → Provenance → UInt64 → UInt64 → Prop)
    [∀ nd e p gotAt putAt, Decidable (P nd e p gotAt putAt)] :
    (nd : Node) → (clock : Clock) → (l : List (Entry × Provenance)) →
      Decidable (nd.EachImport P clock l)
  | _, _, [] => inferInstanceAs (Decidable True)
  | nd, clock, x :: l => @instDecidableAnd _ _ _
    (decidableEachImport P (nd.importEntry x.1 x.2 (clock 0) (clock 1)) (fun i => clock (i+2)) l)

theorem Node.importEntries_store (nd : Node) (clock : Clock) (l : List (Entry × Provenance)) :
    (nd.importEntries clock l).store =
      { nd.store with rows := nd.store.rows.importEntries clock (l.map Prod.fst) } := by
  induction l generalizing nd clock with
  | nil => rfl
  | cons x l ih => exact ih _ _

theorem Node.eachImport_trivial (nd : Node) (clock : Clock) (l : List (Entry × Provenance)) :
    nd.EachImport (fun _ _ _ _ _ => True) clock l := by
  induction l generalizing nd clock with
  | nil => trivial
  | cons x l ih => exact ⟨trivial,ih _ _⟩

/-- A response whose entries and notes match. -/
def Packet.Aligned (p : Packet) : Prop := (importedEntries p.payload).length = p.prov.length

theorem Node.receive_aligned {p : Packet} (h : p.Aligned) (nd : Node) (clock : Clock) :
    nd.receive p clock = nd.importEntries clock p.entries := by
  have hfst : p.entries.map Prod.fst = importedEntries p.payload :=
    List.map_fst_zip (Nat.le_of_eq h)
  have hstore := nd.importEntries_store clock p.entries
  rw [hfst,← onSync_state nd.store 0] at hstore
  rw [Node.receive,← hstore]

/-- What a node answers is made of its rows. -/
theorem Node.mem_answers {nd : Node} (hfits : nd.store.rows.Fits) {ev : Event} {p : Packet}
    (h : p ∈ nd.answers ev) :
    p.Aligned ∧ ∀ x ∈ p.entries, ∃ k r, nd.store.rows.lookup k = some r ∧
      x = (r.toEntry k,⟨(nd.prov k).origin,r⟩) := by
  cases ev with
  | disconnected id => cases h
  | cleanup now => cases h
  | request kind peer raw clock =>
    cases kind with
    | put => cases h
    | get => cases h
    | delete => cases h
    | subscribe => cases h
    | sync =>
      obtain ⟨m,hm,rfl⟩ := List.mem_map.1 h
      have hpayload : m.payload =
          nd.store.rows.syncResponse (StoreSyncPayload.decode raw) (clock 0) := by
        simp only [StoreHandler.onSync] at hm
        split at hm
        · cases hm
        · split at hm
          · rw [List.mem_singleton.1 hm]
          · split at hm <;> cases hm
      have hentries : importedEntries m.payload =
          ((nd.store.rows.since (StoreSyncPayload.decode raw).sinceTimestamp
            (clock 0)).take 255).map (fun x => x.2.toEntry x.1) := by
        have hlim : ((256 : UInt32) = 0) = False := by simp
        rw [hpayload,importedEntries_syncResponse hfits,Rows.getSince,← List.map_take]
        simp only [hlim,if_false,limited]
        rw [if_pos (by decide),List.take_take]
        rfl
      refine ⟨?_,?_⟩
      · simp [Packet.Aligned,hentries,Node.served]
      · intro x hx
        rw [Packet.entries,hentries,Node.served,List.zip_map'] at hx
        obtain ⟨y,hy,rfl⟩ := List.mem_map.1 hx
        exact ⟨y.1,y.2,(Rows.mem_since.1 (List.mem_of_mem_take hy)).1,rfl⟩

theorem Node.own_store (nd : Node) (ev : Event) : (nd.own ev).store = nd.store.act ev := by
  unfold Node.own
  split
  · split <;> rfl
  · rfl

theorem Node.own_refused {nd : Node} {peer : Nat} {raw : Bytes} {clock : Clock}
    (h : putEntry raw = none) :
    nd.own (.request .put peer raw clock) =
      { nd with store := nd.store.act (.request .put peer raw clock) } := by
  simp only [Node.own,h]

theorem Node.own_put {nd : Node} {peer : Nat} {raw key value : Bytes} {clock : Clock}
    (h : putEntry raw = some (key,value)) :
    nd.own (.request .put peer raw clock) =
      { store := nd.store.act (.request .put peer raw clock)
        prov := Function.update nd.prov key
          ⟨putRow raw value (clock 0),putRow raw value (clock 0)⟩
        heard := (key,(putRow raw value (clock 0)).timestampUs) :: nd.heard } := by
  simp only [Node.own,h]

theorem Node.importEntry_settled {nd : Node} {e : Entry} {gotAt : UInt64}
    (h : nd.store.rows.Settled e gotAt) (p : Provenance) (putAt : UInt64) :
    nd.importEntry e p gotAt putAt =
      { nd with heard := (e.key,p.origin.timestampUs) :: nd.heard } := by
  have htakes := takes_eq_false_iff.2 h
  simp only [Node.importEntry,htakes,Bool.false_eq_true,if_false,
    GoodNet.Store.importEntry_settled h]

theorem Node.importEntry_unsettled {nd : Node} {e : Entry} {gotAt : UInt64}
    (h : ¬nd.store.rows.Settled e gotAt) (p : Provenance) (putAt : UInt64) :
    nd.importEntry e p gotAt putAt =
      { store :=
          { nd.store with
            rows := nd.store.rows.insert e.key (Row.written e.value e.ttlS e.flags putAt) }
        prov := Function.update nd.prov e.key p
        heard := (e.key,p.origin.timestampUs) :: nd.heard } := by
  have htakes : nd.store.rows.takes e gotAt = true :=
    (Bool.not_eq_false _).mp (fun hc => h (takes_eq_false_iff.1 hc))
  simp only [Node.importEntry,htakes,if_true,GoodNet.Store.importEntry_unsettled h]

theorem Node.importEntries_invariant {P : Node → Entry → Provenance → UInt64 → UInt64 → Prop}
    {I : Node → Prop} {X : Entry × Provenance → Prop}
    (hstep : ∀ nd e p gotAt putAt, I nd → X (e,p) → P nd e p gotAt putAt →
      I (nd.importEntry e p gotAt putAt))
    {nd : Node} (hi : I nd) {clock : Clock} {l : List (Entry × Provenance)} (hl : ∀ x ∈ l, X x)
    (h : nd.EachImport P clock l) : I (nd.importEntries clock l) := by
  induction l generalizing nd clock with
  | nil => exact hi
  | cons x l ih =>
    have hx := hstep nd x.1 x.2 _ _ hi (hl x List.mem_cons_self) h.1
    exact ih hx (fun y hy => hl y (List.mem_cons_of_mem x hy)) h.2

/-- Local events meet `Q`, imports meet `P`. -/
def Allowed (Q : List UInt64 → Event → Prop)
    (P : Node → Entry → Provenance → UInt64 → UInt64 → Prop) (net : Net) : NetStep → Prop
  | .node _ ev => Q net.puts ev
  | .deliver i clock => ∀ p, net.flight[i]? = some p →
      (net.node p.dest).EachImport P clock p.entries

instance (Q : List UInt64 → Event → Prop) [∀ puts ev, Decidable (Q puts ev)]
    (P : Node → Entry → Provenance → UInt64 → UInt64 → Prop)
    [∀ nd e p gotAt putAt, Decidable (P nd e p gotAt putAt)] (net : Net) :
    (step : NetStep) → Decidable (Allowed Q P net step)
  | .node _ ev => inferInstanceAs (Decidable (Q net.puts ev))
  | .deliver i clock => inferInstanceAs (Decidable (∀ p ∈ net.flight[i]?,
      (net.node p.dest).EachImport P clock p.entries))

/-- A property `N` of the nodes and a property `X` of the entries on their way, both seen
against the PUTs so far, that together survive every allowed step. -/
structure Replicates (N : List UInt64 → Node → Prop) (X : List UInt64 → Entry × Provenance → Prop)
    (Q : List UInt64 → Event → Prop) (P : Node → Entry → Provenance → UInt64 → UInt64 → Prop) :
    Prop where
  node_later : ∀ puts ev nd, N puts nd → N (putsAfter puts ev) nd
  entry_later : ∀ puts ev x, X puts x → X (putsAfter puts ev) x
  own : ∀ puts ev nd, N puts nd → Q puts ev → N (putsAfter puts ev) (nd.own ev)
  serve : ∀ puts nd k r, N puts nd → nd.store.rows.lookup k = some r →
    X puts (r.toEntry k,⟨(nd.prov k).origin,r⟩)
  take : ∀ puts nd e p gotAt putAt, N puts nd → X puts (e,p) → P nd e p gotAt putAt →
    N puts (nd.importEntry e p gotAt putAt)

structure Replicated (N : List UInt64 → Node → Prop) (X : List UInt64 → Entry × Provenance → Prop)
    (net : Net) : Prop where
  fits : ∀ n, (net.node n).store.rows.Fits
  nodes : ∀ n, N net.puts (net.node n)
  aligned : ∀ p ∈ net.flight, p.Aligned
  entries : ∀ p ∈ net.flight, ∀ x ∈ p.entries, X net.puts x

section
variable {N : List UInt64 → Node → Prop} {X : List UInt64 → Entry × Provenance → Prop}
  {Q : List UInt64 → Event → Prop} {P : Node → Entry → Provenance → UInt64 → UInt64 → Prop}

theorem Replicates.act (h : Replicates N X Q P) (net : Net) (a : NetStep)
    (hi : Replicated N X net) (ha : Allowed Q P net a) : Replicated N X (net.act a) := by
  cases a with
  | node n ev =>
    constructor
    · intro m
      by_cases hm : m = n
      · subst hm
        simp only [Net.act,Function.update_self,Node.own_store]
        exact act_fits _ ev (hi.fits m)
      · simp only [Net.act,Function.update_of_ne hm]
        exact hi.fits m
    · intro m
      by_cases hm : m = n
      · subst hm
        simp only [Net.act,Function.update_self]
        exact h.own _ ev _ (hi.nodes m) ha
      · simp only [Net.act,Function.update_of_ne hm]
        exact h.node_later _ ev _ (hi.nodes m)
    · intro p hp
      rcases List.mem_append.mp hp with hp | hp
      · exact hi.aligned p hp
      · exact (Node.mem_answers (hi.fits n) hp).1
    · intro p hp x hx
      refine h.entry_later _ ev x ?_
      rcases List.mem_append.mp hp with hp | hp
      · exact hi.entries p hp x hx
      · obtain ⟨k,r,hr,rfl⟩ := (Node.mem_answers (hi.fits n) hp).2 x hx
        exact h.serve _ _ k r (hi.nodes n) hr
  | deliver i clock =>
    rw [Net.act]
    cases hp : net.flight[i]? with
    | none => exact hi
    | some p =>
      have hmem := List.mem_of_getElem? hp
      have hreceive := Node.receive_aligned (hi.aligned p hmem) (net.node p.dest) clock
      constructor
      · intro m
        by_cases hm : m = p.dest
        · subst hm
          simp only [Function.update_self,Node.receive,onSync_state]
          exact importEntries_fits (hi.fits _) clock importedEntries_fits
        · simp only [Function.update_of_ne hm]
          exact hi.fits m
      · intro m
        by_cases hm : m = p.dest
        · subst hm
          simp only [Function.update_self,hreceive]
          exact Node.importEntries_invariant (fun nd e q g t => h.take _ nd e q g t)
            (hi.nodes _) (hi.entries p hmem) (ha p hp)
        · simp only [Function.update_of_ne hm]
          exact hi.nodes m
      · exact fun q hq => hi.aligned q (List.mem_of_mem_eraseIdx hq)
      · exact fun q hq => hi.entries q (List.mem_of_mem_eraseIdx hq)

/-- What survives every allowed step holds after every run of them. -/
theorem Replicates.run (h : Replicates N X Q P) (hempty : N [] {}) {steps : List NetStep}
    (hsteps : Along Net.act (Allowed Q P) {} steps) :
    Replicated N X (Interleaving.run Net.act {} steps) :=
  Along.invariant h.act
    { fits := fun _ _ _ hr => by cases hr
      nodes := fun _ => hempty
      aligned := fun _ hp => by cases hp
      entries := fun _ hp => by cases hp } hsteps

end

/-- A PUT payload. -/
def putOf (key value : Bytes) (ttlS : UInt64) : Bytes :=
  leBytes 8 0 ++ leBytes 8 ttlS.toNat ++ leBytes 2 key.length ++ leBytes 2 value.length ++
    [0,0,0,0] ++ key ++ value

/-- A SYNC request for everything. -/
def syncRequest : Bytes :=
  StoreSyncPayload.encode { requestId := 0, syncType := 0, entryCount := 0, sinceTimestamp := 0 }

theorem importedEntries_syncRequest : importedEntries syncRequest = [] := by decide +kernel

end GoodNet.Store
