import GoodNet.StoreReplication
set_option autoImplicit false

/-! How long copies live. The TTL travels as the PUT gave it, and every import counts it again
from its own time. -/

namespace GoodNet.Store
open Codec Interleaving

/-- Whatever lives until `a` has lived until `b` at least. -/
def NotLater (a b : UInt64) : Prop := ∀ nowS, live a nowS = true → live b nowS = true

theorem NotLater.refl (a : UInt64) : NotLater a a := fun _ h => h

theorem NotLater.trans {a b c : UInt64} (h : NotLater a b) (h' : NotLater b c) : NotLater a c :=
  fun nowS hn => h' nowS (h nowS hn)

/-- Rows come in by PUTs and by responses only. -/
def ImportsNothing (_puts : List UInt64) : Event → Prop
  | .request .sync _ raw _ => importedEntries raw = []
  | _ => True

/-- If the entry is taken over, then no later than its own timestamp says: the TTL counted
from the import runs out no later than the TTL counted from the timestamp. -/
def InTime (nd : Node) (e : Entry) (_p : Provenance) (gotAt putAt : UInt64) : Prop :=
  nd.store.rows.takes e gotAt = true →
    NotLater (expiry putAt e.ttlS) (expiry e.timestampUs e.ttlS)

/-- A row expires when its TTL, counted from its timestamp, runs out, and not later than the
row it was copied from, which in turn does not outlive what the PUT wrote. -/
structure RowLife (nd : Node) (k : Bytes) (r : Row) : Prop where
  expires : r.expiresAt = expiry r.timestampUs r.ttlS
  copied : NotLater r.expiresAt (nd.prov k).source.expiresAt
  original : NotLater r.expiresAt (nd.prov k).origin.expiresAt

def Mortal (_puts : List UInt64) (nd : Node) : Prop :=
  ∀ k r, nd.store.rows.lookup k = some r → RowLife nd k r

def EntryLife (_puts : List UInt64) (x : Entry × Provenance) : Prop :=
  expiry x.1.timestampUs x.1.ttlS = x.2.source.expiresAt ∧
    NotLater x.2.source.expiresAt x.2.origin.expiresAt

theorem Mortal.sub {puts puts' : List UInt64} {nd nd' : Node} (h : Mortal puts nd)
    (hrows : ∀ k r, nd'.store.rows.lookup k = some r → nd.store.rows.lookup k = some r)
    (hprov : nd'.prov = nd.prov) : Mortal puts' nd' := by
  intro k r hr
  obtain ⟨hexp,hcop,horig⟩ := h k r (hrows k r hr)
  exact ⟨hexp,hprov ▸ hcop,hprov ▸ horig⟩

theorem Mortal.write {puts puts' : List UInt64} {nd nd' : Node} (h : Mortal puts nd) {key : Bytes}
    {row : Row} {p : Provenance} (hexp : row.expiresAt = expiry row.timestampUs row.ttlS)
    (hcop : NotLater row.expiresAt p.source.expiresAt)
    (horig : NotLater row.expiresAt p.origin.expiresAt)
    (hrows : nd'.store.rows = nd.store.rows.insert key row)
    (hprov : nd'.prov = Function.update nd.prov key p) : Mortal puts' nd' := by
  intro k r hr
  rw [hrows] at hr
  by_cases hk : k = key
  · subst hk
    rw [AList.lookup_insert] at hr
    cases hr
    refine ⟨hexp,?_,?_⟩ <;> rwa [hprov,Function.update_self]
  · rw [AList.lookup_insert_ne hk] at hr
    obtain ⟨hexp',hcop',horig'⟩ := h k r hr
    refine ⟨hexp',?_,?_⟩ <;> rwa [hprov,Function.update_of_ne hk]

theorem Mortal.own {puts : List UInt64} {nd : Node} (h : Mortal puts nd) {ev : Event}
    (hev : ImportsNothing puts ev) : Mortal (putsAfter puts ev) (nd.own ev) := by
  cases ev with
  | disconnected id => exact h.sub (fun _ _ hr => hr) rfl
  | cleanup now => exact h.sub (fun _ _ hr => Rows.cleanupExpired_lookup hr) rfl
  | request kind peer raw clock =>
    have hrows := handle_rows nd.store kind peer raw clock
    cases kind with
    | get => exact h.sub (fun k r hr => (congrArg (AList.lookup k) hrows).symm.trans hr) rfl
    | subscribe => exact h.sub (fun k r hr => (congrArg (AList.lookup k) hrows).symm.trans hr) rfl
    | delete =>
      refine h.sub (fun k r hr => ?_) rfl
      exact Rows.del_lookup ((congrArg (AList.lookup k) hrows).symm.trans hr)
    | sync =>
      have hnone : importedEntries raw = [] := hev
      rw [hnone] at hrows
      exact h.sub (fun k r hr => (congrArg (AList.lookup k) hrows).symm.trans hr) rfl
    | put =>
      cases hput : putEntry raw with
      | none =>
        rw [hput] at hrows
        rw [Node.own_refused hput]
        exact h.sub (fun k r hr => (congrArg (AList.lookup k) hrows).symm.trans hr) rfl
      | some kv =>
        obtain ⟨key,value⟩ := kv
        rw [hput] at hrows
        rw [Node.own_put hput]
        refine h.write ?_ ?_ ?_ hrows rfl
        · rfl
        · exact .refl _
        · exact .refl _

theorem Mortal.take {puts : List UInt64} {nd : Node} (h : Mortal puts nd) {e : Entry}
    {p : Provenance} (hlife : EntryLife puts (e,p)) {gotAt putAt : UInt64}
    (htime : InTime nd e p gotAt putAt) : Mortal puts (nd.importEntry e p gotAt putAt) := by
  by_cases hs : nd.store.rows.Settled e gotAt
  · rw [Node.importEntry_settled hs]
    exact h.sub (fun _ _ hr => hr) rfl
  · have htakes : nd.store.rows.takes e gotAt = true :=
      (Bool.not_eq_false _).mp (fun hc => hs (takes_eq_false_iff.1 hc))
    have hcop : NotLater (expiry putAt e.ttlS) p.source.expiresAt := hlife.1 ▸ htime htakes
    rw [Node.importEntry_unsettled hs]
    refine h.write ?_ hcop (hcop.trans hlife.2) rfl rfl
    rfl

theorem mortal_replicates : Replicates Mortal EntryLife ImportsNothing InTime where
  node_later _ _ _ h := h.sub (fun _ _ hr => hr) rfl
  entry_later _ _ _ h := h
  own _ _ _ h hev := h.own hev
  serve _ nd k r h hr := by
    obtain ⟨hexp,_,horig⟩ := h k r hr
    exact ⟨hexp.symm,horig⟩
  take _ _ _ _ _ _ h hlife htime := h.take hlife htime

/-- No row of the node outlives what it was copied from, nor what the PUT wrote. -/
def Node.Lives (nd : Node) : Prop :=
  ∀ k r, nd.store.rows.lookup k = some r →
    NotLater r.expiresAt (nd.prov k).source.expiresAt ∧
      NotLater r.expiresAt (nd.prov k).origin.expiresAt

theorem Mortal.lives {puts : List UInt64} {nd : Node} (h : Mortal puts nd) : nd.Lives :=
  fun k r hr => ⟨(h k r hr).copied,(h k r hr).original⟩

/-- An import out of time breaks the law. -/
theorem inTime_of_lives {puts : List UInt64} {nd : Node} {e : Entry} {p : Provenance}
    (hlife : EntryLife puts (e,p)) {gotAt putAt : UInt64}
    (h : (nd.importEntry e p gotAt putAt).Lives) : InTime nd e p gotAt putAt := by
  intro htakes
  have hs : ¬nd.store.rows.Settled e gotAt := by
    intro hc
    rw [takes_eq_false_iff.2 hc] at htakes
    cases htakes
  rw [Node.importEntry_unsettled hs] at h
  have hcop := (h e.key _ (AList.lookup_insert _)).1
  simp only [Function.update_self] at hcop
  rw [hlife.1]
  exact hcop

theorem expiry_toNat {now ttlS : UInt64} (hpos : 0 < ttlS)
    (h : (seconds now).toNat+ttlS.toNat < 2^63) :
    (expiry now ttlS).toNat = (seconds now).toNat+ttlS.toNat := by
  rw [expiry,if_pos hpos,UInt64.toNat_add]
  exact Nat.mod_eq_of_lt (by omega)

theorem live_iff {a nowS : UInt64} (hpos : 0 < a.toNat) (ha : a.toNat < 2^63) :
    live a nowS = true ↔ nowS.toInt64.toInt < a.toNat := by
  have hne : a ≠ 0 := by
    rintro rfl
    exact absurd hpos (by decide)
  simp [live,hne,Int64.lt_iff_toInt_lt,toInt64_toInt ha]

theorem notLater_iff {a b : UInt64} (ha : 0 < a.toNat) (ha' : a.toNat < 2^63) (hb : 0 < b.toNat)
    (hb' : b.toNat < 2^63) : NotLater a b ↔ a.toNat ≤ b.toNat := by
  constructor
  · intro h
    have hlast := h (a-1) ((live_iff ha ha').2 (by rw [pred_toInt64 ha']; omega))
    rw [live_iff hb hb',pred_toInt64 ha'] at hlast
    omega
  · intro hle nowS hnow
    rw [live_iff ha ha'] at hnow
    rw [live_iff hb hb']
    omega

/-- A TTL counted again from another time runs out no later exactly if that time is not in
a later second. -/
theorem expiry_notLater_iff {now stamp ttlS : UInt64} (hpos : 0 < ttlS)
    (hnow : (seconds now).toNat+ttlS.toNat < 2^63)
    (hstamp : (seconds stamp).toNat+ttlS.toNat < 2^63) :
    NotLater (expiry now ttlS) (expiry stamp ttlS) ↔ seconds now ≤ seconds stamp := by
  have hn := expiry_toNat hpos hnow
  have hs := expiry_toNat hpos hstamp
  have hpos' : 0 < ttlS.toNat := UInt64.lt_iff_toNat_lt.1 hpos
  rw [notLater_iff (by omega) (by omega) (by omega) (by omega),hn,hs,UInt64.le_iff_toNat_le]
  omega

/-- Copies that are taken over in time never outlive their source or the original, in stores
that pass rows on in any way; and an entry on its way keeps it so exactly if it is in time,
which means not in a later second than its timestamp. -/
theorem copies_expire_in_time (steps : List NetStep)
    (h : Along Net.act (Allowed ImportsNothing InTime) {} steps) (n : Nat) :
    ((run Net.act {} steps).node n).Lives ∧
    ∀ p ∈ (run Net.act {} steps).flight, ∀ x ∈ p.entries, ∀ gotAt putAt,
      ((((run Net.act {} steps).node n).importEntry x.1 x.2 gotAt putAt).Lives ↔
        InTime ((run Net.act {} steps).node n) x.1 x.2 gotAt putAt) ∧
      (0 < x.1.ttlS → (seconds putAt).toNat+x.1.ttlS.toNat < 2^63 →
        (seconds x.1.timestampUs).toNat+x.1.ttlS.toNat < 2^63 →
        (InTime ((run Net.act {} steps).node n) x.1 x.2 gotAt putAt ↔
          (((run Net.act {} steps).node n).store.rows.takes x.1 gotAt = true →
            seconds putAt ≤ seconds x.1.timestampUs))) := by
  have hrun := mortal_replicates.run (fun _ _ hr => by cases hr) h
  refine ⟨(hrun.nodes n).lives,fun p hp x hx gotAt putAt => ⟨⟨?_,?_⟩,?_⟩⟩
  · exact inTime_of_lives (hrun.entries p hp x hx)
  · exact fun htime => ((hrun.nodes n).take (hrun.entries p hp x hx) htime).lives
  · intro hpos hput hstamp
    rw [InTime,expiry_notLater_iff hpos hput hstamp]

/-- A row with a TTL of ten seconds, written in second 5 and copied in second 8. -/
def copiedLater : List NetStep :=
  [.node 0 (.request .put 9 (putOf [1] [7] 10) (fun _ => 5000000)),
    .node 0 (.request .sync 1 syncRequest (fun _ => 8000000)),
    .deliver 0 (fun _ => 8000000)]

theorem copiedLater_allowed :
    Along Net.act (Allowed ImportsNothing (fun _ _ _ _ _ => True)) {} copiedLater := by
  refine ⟨trivial,?_,?_,trivial⟩
  · exact importedEntries_syncRequest
  · exact fun p _ => Node.eachImport_trivial _ _ _

/-- The same row, copied in the second it was written in. -/
def copiedAtOnce : List NetStep :=
  [.node 0 (.request .put 9 (putOf [1] [7] 10) (fun _ => 5000000)),
    .node 0 (.request .sync 1 syncRequest (fun _ => 5400000)),
    .deliver 0 (fun _ => 5500000)]

theorem copiedAtOnce_inTime : Along Net.act (Allowed ImportsNothing InTime) {} copiedAtOnce := by
  refine ⟨trivial,importedEntries_syncRequest,?_,trivial⟩
  intro p hp
  have hp' : (run Net.act {} (copiedAtOnce.take 2)).flight[0]? = some p := hp
  have hshape : ((run Net.act {} (copiedAtOnce.take 2)).flight[0]?).map
      (fun p => p.entries.map (fun x => (x.1.timestampUs,x.1.ttlS))) = some [(5000000,10)] := by
    decide +kernel
  rw [hp'] at hshape
  injection hshape with hshape
  obtain ⟨x,hx,hpair⟩ := List.map_eq_singleton_iff.1 hshape
  injection hpair with hstamp httl
  rw [hx]
  refine ⟨fun _ => ?_,trivial⟩
  rw [hstamp,httl]
  exact .refl _

theorem copies_expire_in_time_sample :
    ((run Net.act {} copiedAtOnce).node 1).Lives ∧
    ∀ p ∈ (run Net.act {} copiedAtOnce).flight, ∀ x ∈ p.entries, ∀ gotAt putAt,
      ((((run Net.act {} copiedAtOnce).node 1).importEntry x.1 x.2 gotAt putAt).Lives ↔
        InTime ((run Net.act {} copiedAtOnce).node 1) x.1 x.2 gotAt putAt) ∧
      (0 < x.1.ttlS → (seconds putAt).toNat+x.1.ttlS.toNat < 2^63 →
        (seconds x.1.timestampUs).toNat+x.1.ttlS.toNat < 2^63 →
        (InTime ((run Net.act {} copiedAtOnce).node 1) x.1 x.2 gotAt putAt ↔
          (((run Net.act {} copiedAtOnce).node 1).store.rows.takes x.1 gotAt = true →
            seconds putAt ≤ seconds x.1.timestampUs))) :=
  copies_expire_in_time copiedAtOnce copiedAtOnce_inTime 1

/-- The copy expires in second 18 and the original in second 15. -/
theorem copy_outlives_original :
    ¬∀ steps : List NetStep,
      Along Net.act (Allowed ImportsNothing (fun _ _ _ _ _ => True)) {} steps →
        ∀ n, ((run Net.act {} steps).node n).Lives := by
  intro h
  have hrow : ((run Net.act {} copiedLater).node 1).store.rows.lookup [1] =
      some (Row.written [7] 10 0 8000000) := by decide +kernel
  have horig : (((run Net.act {} copiedLater).node 1).prov [1]).origin =
      Row.written [7] 10 0 5000000 := by decide +kernel
  have hlate := (h copiedLater copiedLater_allowed 1 [1] _ hrow).2 16 (by decide +kernel)
  rw [horig] at hlate
  exact absurd hlate (by decide +kernel)

end GoodNet.Store
