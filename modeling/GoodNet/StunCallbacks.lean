import GoodNet.IcePending
set_option autoImplicit false

/-! The callbacks of the STUN client. A callback is user code: while it runs, the client may be
called again, and the call that has invoked it goes on when it returns. -/

namespace GoodNet.Ice
open Codec Interleaving

/-- What the resolver, the source of transaction ids and the socket answer in a step. -/
structure StunAnswers where
  resolved : StunServer → Option StunAddress
  txn : TransactionId
  sent : Bool

/-- What is left of a call when the callback it has invoked returns: nothing, or in `resolve`
the part behind `finish`. -/
inductive ClientFrame where
  | done
  | resolve (cb : Nat) (server : StunServer) (sock : Nat)
  deriving DecidableEq, Repr

/-- A binding request, for the callback and on the socket that are pending when it is built. -/
structure BindingRequest where
  cb : Option Nat
  sock : Option Nat
  dest : StunAddress
  txn : TransactionId
  deriving DecidableEq, Repr

/-- A call of a callback; `packet` is the response the result is from. -/
structure Invocation where
  cb : Nat
  result : Option StunAddress
  packet : Option Bytes
  deriving DecidableEq, Repr

/-- The callback of the `n`-th call of `resolve` is `n`. `armed` and `due` are the wait on the
timer and its handlers that have run out, `stack` holds the calls that wait for a callback. -/
structure CallbackClient where
  client : StunClient := {}
  pendingCb : Option Nat := none
  pendingSock : Option Nat := none
  armed : Bool := false
  due : Nat := 0
  stack : List ClientFrame := []
  resolves : Nat := 0
  requests : List BindingRequest := []
  invoked : List Invocation := []
  deriving DecidableEq, Repr

namespace CallbackClient

/-- `finish`; `rest` is what its caller does after it. -/
def finish (s : CallbackClient) (result : Option StunAddress) (packet : Option Bytes)
    (rest : ClientFrame) : CallbackClient :=
  let idle := { s with
    client := { s.client with active := false }, pendingSock := none, pendingCb := none }
  match s.pendingCb with
  | none => idle
  | some cb =>
    { idle with stack := rest :: s.stack, invoked := ⟨cb,result,packet⟩ :: s.invoked }

/-- `build_binding_request`, which writes the id it draws to `pending_txn_`, and `send_to`. -/
def request (s : CallbackClient) (txn : TransactionId) : CallbackClient :=
  { s with
    client := { s.client with pendingTxn := txn },
    requests := ⟨s.pendingCb,s.pendingSock,s.client.stunEp,txn⟩ :: s.requests }

def sendRequest (s : CallbackClient) (w : StunAnswers) : CallbackClient :=
  let s := s.request w.txn
  if w.sent then { s with armed := true } else s.finish none none .done

/-- The part of `resolve` behind `finish`. -/
def install (s : CallbackClient) (cb : Nat) (server : StunServer) (sock : Nat)
    (w : StunAnswers) : CallbackClient :=
  let s := { s with
    pendingCb := some cb, pendingSock := some sock,
    client := { s.client with retries := 0, active := true } }
  match w.resolved server with
  | none => s.finish none none .done
  | some ep => ({ s with client := { s.client with stunEp := ep } }).sendRequest w

def resolve (s : CallbackClient) (server : StunServer) (sock : Nat) (w : StunAnswers) :
    CallbackClient :=
  let cb := s.resolves
  let s := { s with resolves := cb+1 }
  if s.client.active then
    let after := s.finish none none (.resolve cb server sock)
    if s.pendingCb.isSome then after else after.install cb server sock w
  else s.install cb server sock w

/-- The callback that runs returns. -/
def ret (s : CallbackClient) (w : StunAnswers) : CallbackClient :=
  match s.stack with
  | [] => s
  | .done :: rest => { s with stack := rest }
  | .resolve cb server sock :: rest => ({ s with stack := rest }).install cb server sock w

def feed (s : CallbackClient) (data : Bytes) : CallbackClient :=
  match s.client.feed data with
  | none => s
  | some addr => ({ s with armed := false }).finish (some addr) (some data) .done

def cancel (s : CallbackClient) : CallbackClient :=
  if s.client.active then ({ s with armed := false }).finish none none .done else s

/-- The wait on the timer runs out. -/
def expire (s : CallbackClient) : CallbackClient :=
  if s.armed then { s with armed := false, due := s.due+1 } else s

/-- The handler of the timer. What `send_to` reports is not looked at here. -/
def retry (s : CallbackClient) (w : StunAnswers) : CallbackClient :=
  if s.due = 0 then s
  else
    let s := { s with due := s.due-1 }
    if !s.client.active then s
    else
      let s := { s with client := { s.client with retries := s.client.retries+1 } }
      if maxRetries ≤ s.client.retries then s.finish none none .done
      else { s.request w.txn with armed := true }

end CallbackClient

inductive StunInput where
  | resolve (server : StunServer) (sock : Nat) (w : StunAnswers)
  | feed (data : Bytes)
  | cancel
  | expire
  | retry (w : StunAnswers)
  | ret (w : StunAnswers)

namespace CallbackClient

def step (s : CallbackClient) : StunInput → CallbackClient
  | .resolve server sock w => s.resolve server sock w
  | .feed data => s.feed data
  | .cancel => s.cancel
  | .expire => s.expire
  | .retry w => s.retry w
  | .ret w => s.ret w

/-- The callbacks that were invoked. -/
def called (s : CallbackClient) : List Nat := s.invoked.map Invocation.cb

/-- The callback a frame is to install. -/
def frameCb : ClientFrame → Option Nat
  | .done => none
  | .resolve cb _ _ => some cb

/-- The callbacks of the calls of `resolve` that are not that far. -/
def waiting (s : CallbackClient) : List Nat := s.stack.filterMap frameCb

/-- The packet answers a request of the callback it is delivered to. -/
def Delivered (s : CallbackClient) (v : Invocation) : Prop :=
  ∀ addr, v.result = some addr → ∃ data r,
    v.packet = some data ∧ parseBindingResponse data = some r ∧ r.mapped = addr ∧
      ∃ q ∈ s.requests, q.cb = some v.cb ∧ q.txn = r.txnId

/-- Where every callback that was passed to `resolve` has got to: it was invoked once, or it is the
one of the active client, or its `resolve` has not installed it. -/
structure Faultless (s : CallbackClient) : Prop where
  count : s.called.length+(if s.client.active then 1 else 0)+s.waiting.length = s.resolves
  all : ∀ cb < s.resolves, s.called.count cb = 1 ∨
    s.client.active = true ∧ s.pendingCb = some cb ∨ cb ∈ s.waiting
  atMostOnce : s.called.Nodup
  delivered : ∀ v ∈ s.invoked, s.Delivered v

/-- No `resolve` goes on behind `finish` while a request is pending that the callback has made. -/
def KeepsPending (s : CallbackClient) : StunInput → Prop
  | .ret _ =>
    match s.stack with
    | .resolve _ _ _ :: _ => s.client.active = false
    | _ => True
  | _ => True

/-- All the callbacks that can still be accounted for. -/
def held (s : CallbackClient) : List Nat := s.called ++ s.pendingCb.toList ++ s.waiting

structure Wf (s : CallbackClient) : Prop where
  active : s.client.active = s.pendingCb.isSome
  distinct : s.held.Nodup
  known : ∀ cb ∈ s.held, cb < s.resolves
  delivered : ∀ v ∈ s.invoked, s.Delivered v

/-- The pending id is that of a request for the pending callback. -/
def Asked (s : CallbackClient) : Prop :=
  s.client.active = true → ∃ q ∈ s.requests, q.cb = s.pendingCb ∧ q.txn = s.client.pendingTxn

theorem finish_some {s : CallbackClient} {cb : Nat} (h : s.pendingCb = some cb)
    (result : Option StunAddress) (packet : Option Bytes) (rest : ClientFrame) :
    s.finish result packet rest = { s with
      client := { s.client with active := false }, pendingSock := none, pendingCb := none,
      stack := rest :: s.stack, invoked := ⟨cb,result,packet⟩ :: s.invoked } := by
  unfold finish
  rw [h]

/-- `finish` moves the pending callback to those that were invoked. -/
theorem finish_held {s : CallbackClient} {cb : Nat} (h : s.pendingCb = some cb)
    (result : Option StunAddress) (packet : Option Bytes) (rest : ClientFrame) :
    (s.finish result packet rest).held.Perm ((frameCb rest).toList ++ s.held) := by
  have hwaiting : ((rest :: s.stack).filterMap frameCb) = (frameCb rest).toList ++ s.waiting := by
    rw [List.filterMap_cons]
    cases frameCb rest <;> rfl
  rw [finish_some h]
  change ((cb :: s.called) ++ [] ++ (rest :: s.stack).filterMap frameCb).Perm _
  rw [hwaiting,held,h]
  refine List.perm_iff_count.2 fun a => ?_
  simp only [List.append_nil,List.count_append,List.count_cons,Option.toList_some,List.count_nil]
  omega

theorem finish_wf {s : CallbackClient} (h : s.Wf) {result : Option StunAddress}
    {packet : Option Bytes} {rest : ClientFrame} (hactive : s.client.active = true)
    (hresult : ∀ addr, result = some addr → ∃ data r,
      packet = some data ∧ parseBindingResponse data = some r ∧ r.mapped = addr ∧
        ∃ q ∈ s.requests, q.cb = s.pendingCb ∧ q.txn = r.txnId)
    (hrest : ∀ cb, frameCb rest = some cb → cb < s.resolves ∧ cb ∉ s.held) :
    (s.finish result packet rest).Wf := by
  obtain ⟨cb,hcb⟩ := Option.isSome_iff_exists.1 (h.active.symm.trans hactive)
  have hperm := finish_held hcb result packet rest
  have hsides : ∀ a ∈ (frameCb rest).toList, a < s.resolves ∧ a ∉ s.held :=
    fun a ha => hrest a (Option.mem_toList.1 ha)
  have hnodup : ((frameCb rest).toList ++ s.held).Nodup := by
    refine List.nodup_append.2 ⟨?_,h.distinct,?_⟩
    · cases frameCb rest with
      | none => exact List.nodup_nil
      | some a => exact List.nodup_singleton a
    · rintro a ha b hb rfl
      exact (hsides a ha).2 hb
  have hknown : ∀ a ∈ (s.finish result packet rest).held, a < s.resolves := by
    intro a ha
    rcases List.mem_append.1 (hperm.mem_iff.1 ha) with ha | ha
    · exact (hsides a ha).1
    · exact h.known a ha
  rw [hcb] at hresult
  rw [finish_some hcb] at hperm hknown ⊢
  refine ⟨rfl,hperm.nodup_iff.2 hnodup,hknown,fun v hv => ?_⟩
  rcases List.mem_cons.1 hv with rfl | hv
  · exact hresult
  · exact h.delivered v hv

theorem finish_asked (s : CallbackClient) (result : Option StunAddress) (packet : Option Bytes)
    (rest : ClientFrame) : (s.finish result packet rest).Asked := by
  unfold finish Asked
  cases s.pendingCb with
  | none => exact fun h => by cases h
  | some cb => exact fun h => by cases h

theorem request_wf {s : CallbackClient} (h : s.Wf) (txn : TransactionId) : (s.request txn).Wf := by
  refine ⟨h.active,h.distinct,h.known,fun v hv addr haddr => ?_⟩
  obtain ⟨data,r,hpacket,hparse,hmapped,q,hq,hboth⟩ := h.delivered v hv addr haddr
  exact ⟨data,r,hpacket,hparse,hmapped,q,List.mem_cons_of_mem _ hq,hboth⟩

theorem request_asked (s : CallbackClient) (txn : TransactionId) : (s.request txn).Asked :=
  fun _ => ⟨_,List.mem_cons_self,rfl,rfl⟩

/-- A step that ends in order, with the callbacks of `n` more accounted for, and of `k` more calls
of `resolve`. -/
structure Leads (s : CallbackClient) (n k : Nat) (s' : CallbackClient) : Prop where
  wf : s'.Wf
  asked : s'.Asked
  held : s'.held.length = s.held.length+n
  resolves : s'.resolves = s.resolves+k

/-- It matters only what is accounted for before the step. -/
theorem Leads.of_same {s t s' : CallbackClient} {n k : Nat} (h : t.Leads n k s')
    (hheld : t.held.length = s.held.length) (hresolves : t.resolves = s.resolves) :
    s.Leads n k s' :=
  ⟨h.wf,h.asked,hheld ▸ h.held,hresolves ▸ h.resolves⟩

theorem finish_leads {s : CallbackClient} (h : s.Wf) {result : Option StunAddress}
    {packet : Option Bytes} (hactive : s.client.active = true)
    (hresult : ∀ addr, result = some addr → ∃ data r,
      packet = some data ∧ parseBindingResponse data = some r ∧ r.mapped = addr ∧
        ∃ q ∈ s.requests, q.cb = s.pendingCb ∧ q.txn = r.txnId) :
    s.Leads 0 0 (s.finish result packet .done) := by
  obtain ⟨cb,hcb⟩ := Option.isSome_iff_exists.1 (h.active.symm.trans hactive)
  have hperm := finish_held hcb result packet .done
  refine ⟨finish_wf h hactive hresult (fun _ hf => by cases hf),finish_asked _ _ _ _,?_,?_⟩
  · exact hperm.length_eq
  · rw [finish_some hcb]
    rfl

/-- The client gives up. -/
theorem fail_leads {s : CallbackClient} (h : s.Wf) (hactive : s.client.active = true) :
    s.Leads 0 0 (s.finish none none .done) :=
  finish_leads h hactive (fun _ haddr => by cases haddr)

theorem sendRequest_leads {s : CallbackClient} (h : s.Wf) (hactive : s.client.active = true)
    (w : StunAnswers) : s.Leads 0 0 (s.sendRequest w) := by
  have hrequest := request_wf h w.txn
  unfold sendRequest
  by_cases hsent : w.sent = true
  · simp only [hsent,if_true]
    exact ⟨⟨hrequest.active,hrequest.distinct,hrequest.known,hrequest.delivered⟩,
      request_asked s w.txn,rfl,rfl⟩
  · simp only [hsent,Bool.false_eq_true,if_false]
    exact (fail_leads hrequest hactive).of_same rfl rfl

/-- The callback that was pending before, if there is one, is not accounted for any more. -/
theorem install_leads {s : CallbackClient} (h : s.Wf) {cb : Nat} (hcb : cb < s.resolves)
    (hnew : cb ∉ s.held) (server : StunServer) (sock : Nat) (w : StunAnswers) :
    ({ s with pendingCb := none }).Leads 1 0 (s.install cb server sock w) := by
  have hsub : ({ s with pendingCb := none } : CallbackClient).held.Sublist s.held := by
    refine List.Sublist.append_right ?_ s.waiting
    exact (List.Sublist.refl s.called).append (List.nil_sublist _)
  have hperm : (s.called ++ [cb] ++ s.waiting).Perm
      (cb :: ({ s with pendingCb := none } : CallbackClient).held) := by
    refine List.perm_iff_count.2 fun a => ?_
    change _ = (cb :: (s.called ++ [] ++ s.waiting)).count a
    simp only [List.append_nil,List.count_append,List.count_cons,List.count_nil]
    omega
  have hknown : ∀ a ∈ s.called ++ [cb] ++ s.waiting, a < s.resolves := by
    intro a ha
    rcases List.mem_cons.1 (hperm.mem_iff.1 ha) with rfl | ha
    · exact hcb
    · exact h.known a (hsub.subset ha)
  have hnodup : (s.called ++ [cb] ++ s.waiting).Nodup :=
    hperm.nodup_iff.2 (List.nodup_cons.2 ⟨fun hc => hnew (hsub.subset hc),h.distinct.sublist hsub⟩)
  have hlength := hperm.length_eq
  unfold install
  cases hresolved : w.resolved server with
  | none =>
    simp only
    obtain ⟨hwf,hasked,hheld,hresolves⟩ := fail_leads (s := { s with
      pendingCb := some cb, pendingSock := some sock,
      client := { s.client with retries := 0, active := true } })
      ⟨rfl,hnodup,hknown,h.delivered⟩ rfl
    exact ⟨hwf,hasked,hheld.trans hlength,hresolves⟩
  | some ep =>
    simp only
    obtain ⟨hwf,hasked,hheld,hresolves⟩ := sendRequest_leads (s := { s with
      pendingCb := some cb, pendingSock := some sock,
      client := { s.client with retries := 0, active := true, stunEp := ep } })
      ⟨rfl,hnodup,hknown,h.delivered⟩ rfl w
    exact ⟨hwf,hasked,hheld.trans hlength,hresolves⟩

theorem idle_held {s : CallbackClient} (h : s.Wf) (hidle : s.client.active = false) :
    ({ s with pendingCb := none } : CallbackClient) = s := by
  have hnone : s.pendingCb = none := by
    rw [h.active,Option.isSome_eq_false_iff,Option.isNone_iff_eq_none] at hidle
    exact hidle
  rw [← hnone]

theorem active_held {s : CallbackClient} (h : s.Wf) (hactive : s.client.active = true) :
    s.held.length = ({ s with pendingCb := none } : CallbackClient).held.length+1 := by
  obtain ⟨cb,hcb⟩ := Option.isSome_iff_exists.1 (h.active.symm.trans hactive)
  change (s.called ++ s.pendingCb.toList ++ s.waiting).length =
    (s.called ++ [] ++ s.waiting).length+1
  rw [hcb]
  simp only [List.length_append,Option.toList_some,List.length_cons,List.length_nil]
  omega

theorem resolve_leads {s : CallbackClient} (h : s.Wf) (server : StunServer) (sock : Nat)
    (w : StunAnswers) : s.Leads 1 1 (s.resolve server sock w) := by
  have hmore : ({ s with resolves := s.resolves+1 } : CallbackClient).Wf :=
    ⟨h.active,h.distinct,fun cb hcb => Nat.lt_succ_of_lt (h.known cb hcb),h.delivered⟩
  have hnew : s.resolves ∉ s.held := fun hc => Nat.lt_irrefl _ (h.known _ hc)
  unfold resolve
  by_cases hactive : s.client.active = true
  · have hsome : s.pendingCb.isSome = true := h.active.symm.trans hactive
    obtain ⟨cb,hcb⟩ := Option.isSome_iff_exists.1 hsome
    simp only [hactive,hsome,if_true]
    have hcb' : ({ s with resolves := s.resolves+1 } : CallbackClient).pendingCb = some cb := hcb
    have hlength : _ = s.held.length+1 :=
      (finish_held hcb' none none (.resolve s.resolves server sock)).length_eq
    refine ⟨?_,finish_asked _ _ _ _,hlength,?_⟩
    · refine finish_wf hmore hactive (fun _ haddr => by cases haddr) (fun a ha => ?_)
      cases ha
      exact ⟨Nat.lt_succ_self _,hnew⟩
    · rw [finish_some hcb']
  · have hidle : s.client.active = false := Bool.eq_false_iff.2 hactive
    simp only [hidle,Bool.false_eq_true,if_false]
    have hlead := install_leads hmore (Nat.lt_succ_self s.resolves) hnew server sock w
    rw [idle_held hmore hidle] at hlead
    exact ⟨hlead.wf,hlead.asked,hlead.held,hlead.resolves⟩

theorem feed_leads {s : CallbackClient} (h : s.Wf) (ha : s.Asked) (data : Bytes) :
    s.Leads 0 0 (s.feed data) := by
  unfold feed
  cases hfeed : s.client.feed data with
  | none => exact ⟨h,ha,rfl,rfl⟩
  | some addr =>
    unfold StunClient.feed at hfeed
    split at hfeed
    · rename_i hstun
      have hactive : s.client.active = true := (Bool.and_eq_true _ _ ▸ hstun).1
      cases hparse : parseBindingResponse data with
      | none =>
        rw [hparse] at hfeed
        cases hfeed
      | some r =>
        rw [hparse] at hfeed
        simp only at hfeed
        split at hfeed
        · rename_i htxn
          cases hfeed
          obtain ⟨q,hq,hcb,hid⟩ := ha hactive
          have hstill : ({ s with armed := false } : CallbackClient).Wf :=
            ⟨h.active,h.distinct,h.known,h.delivered⟩
          have hlead : ({ s with armed := false } : CallbackClient).Leads 0 0
              (({ s with armed := false } : CallbackClient).finish (some r.mapped) (some data)
                .done) := finish_leads hstill hactive (fun addr haddr => by
                  cases haddr
                  exact ⟨data,r,rfl,hparse,rfl,q,hq,hcb,hid.trans htxn.symm⟩)
          exact hlead.of_same rfl rfl
        · cases hfeed
    · cases hfeed

theorem cancel_leads {s : CallbackClient} (h : s.Wf) (ha : s.Asked) :
    s.Leads 0 0 s.cancel := by
  unfold cancel
  split
  · rename_i hactive
    have hstill : ({ s with armed := false } : CallbackClient).Wf :=
      ⟨h.active,h.distinct,h.known,h.delivered⟩
    exact (fail_leads hstill hactive).of_same rfl rfl
  · exact ⟨h,ha,rfl,rfl⟩

theorem expire_leads {s : CallbackClient} (h : s.Wf) (ha : s.Asked) :
    s.Leads 0 0 s.expire := by
  unfold expire
  split
  · exact ⟨⟨h.active,h.distinct,h.known,h.delivered⟩,ha,rfl,rfl⟩
  · exact ⟨h,ha,rfl,rfl⟩

theorem retry_leads {s : CallbackClient} (h : s.Wf) (ha : s.Asked) (w : StunAnswers) :
    s.Leads 0 0 (s.retry w) := by
  unfold retry
  split
  · exact ⟨h,ha,rfl,rfl⟩
  · simp only
    split
    · exact ⟨⟨h.active,h.distinct,h.known,h.delivered⟩,ha,rfl,rfl⟩
    · rename_i hnot
      have hactive : s.client.active = true := by simpa using hnot
      have hcounted : ({ s with
          due := s.due-1, client := { s.client with retries := s.client.retries+1 } } :
            CallbackClient).Wf := ⟨h.active,h.distinct,h.known,h.delivered⟩
      split
      · exact (fail_leads hcounted hactive).of_same rfl rfl
      · have hrequest := request_wf hcounted w.txn
        exact ⟨⟨hrequest.active,hrequest.distinct,hrequest.known,hrequest.delivered⟩,
          request_asked _ w.txn,rfl,rfl⟩

/-- A step that leaves one callback behind. -/
structure Drops (s s' : CallbackClient) : Prop where
  wf : s'.Wf
  asked : s'.Asked
  held : s'.held.length+1 = s.held.length
  resolves : s'.resolves = s.resolves

theorem ret_leads {s : CallbackClient} (h : s.Wf) (ha : s.Asked) (w : StunAnswers) :
    s.KeepsPending (.ret w) ∧ s.Leads 0 0 (s.ret w) ∨
      ¬s.KeepsPending (.ret w) ∧ s.Drops (s.ret w) := by
  unfold ret KeepsPending
  cases hstack : s.stack with
  | nil => exact .inl ⟨trivial,h,ha,rfl,rfl⟩
  | cons frame rest =>
    have hwaiting : s.waiting = (frameCb frame).toList ++ rest.filterMap frameCb := by
      rw [waiting,hstack,List.filterMap_cons]
      cases frameCb frame <;> rfl
    cases frame with
    | done =>
      have hheld : ({ s with stack := rest } : CallbackClient).held = s.held :=
        congrArg (fun l => s.called ++ s.pendingCb.toList ++ l) hwaiting.symm
      exact .inl ⟨trivial,⟨h.active,hheld ▸ h.distinct,hheld ▸ h.known,h.delivered⟩,ha,
        congrArg List.length hheld,rfl⟩
    | resolve cb server sock =>
      have hperm : s.held.Perm (cb :: ({ s with stack := rest } : CallbackClient).held) := by
        have hheld : s.held = s.called ++ s.pendingCb.toList ++ cb :: rest.filterMap frameCb :=
          congrArg (fun l => s.called ++ s.pendingCb.toList ++ l) hwaiting
        rw [hheld]
        exact List.perm_middle
      have hnodup := List.nodup_cons.1 (hperm.nodup_iff.1 h.distinct)
      have hpopped : ({ s with stack := rest } : CallbackClient).Wf :=
        ⟨h.active,hnodup.2,fun a hmem => h.known a (hperm.mem_iff.2 (List.mem_cons_of_mem cb hmem)),
          h.delivered⟩
      have hlead := install_leads hpopped (h.known cb (hperm.mem_iff.2 List.mem_cons_self))
        hnodup.1 server sock w
      have hlength : s.held.length = ({ s with stack := rest } : CallbackClient).held.length+1 :=
        hperm.length_eq
      cases hactive : s.client.active with
      | false =>
        rw [idle_held hpopped hactive] at hlead
        exact .inl ⟨rfl,hlead.wf,hlead.asked,hlead.held.trans hlength.symm,hlead.resolves⟩
      | true =>
        have hpending := active_held hpopped hactive
        have hmore := hlead.held
        have hless := (congrArg (· + 1) (hmore.trans hpending.symm)).trans hlength.symm
        exact .inr ⟨Bool.noConfusion,hlead.wf,hlead.asked,hless,hlead.resolves⟩

theorem step_leads {s : CallbackClient} (h : s.Wf) (ha : s.Asked) (i : StunInput) :
    s.KeepsPending i ∧ (∃ n, s.Leads n n (s.step i)) ∨ ¬s.KeepsPending i ∧ s.Drops (s.step i) := by
  cases i with
  | resolve server sock w => exact .inl ⟨trivial,1,resolve_leads h server sock w⟩
  | feed data => exact .inl ⟨trivial,0,feed_leads h ha data⟩
  | cancel => exact .inl ⟨trivial,0,cancel_leads h ha⟩
  | expire => exact .inl ⟨trivial,0,expire_leads h ha⟩
  | retry w => exact .inl ⟨trivial,0,retry_leads h ha w⟩
  | ret w => exact (ret_leads h ha w).imp_left (fun hkeep => ⟨hkeep.1,0,hkeep.2⟩)

theorem step_wf {s : CallbackClient} (h : s.Wf ∧ s.Asked) (i : StunInput) :
    (s.step i).Wf ∧ (s.step i).Asked := by
  rcases step_leads h.1 h.2 i with ⟨_,_,hlead⟩ | ⟨_,hdrop⟩
  · exact ⟨hlead.wf,hlead.asked⟩
  · exact ⟨hdrop.wf,hdrop.asked⟩

theorem wf_empty : Wf {} ∧ Asked {} :=
  ⟨⟨rfl,List.nodup_nil,fun _ hcb => absurd hcb List.not_mem_nil,
    fun _ hv => absurd hv List.not_mem_nil⟩,fun h => by cases h⟩

theorem run_wf (inputs : List StunInput) :
    (run step {} inputs).Wf ∧ (run step {} inputs).Asked :=
  run_invariant (I := fun s : CallbackClient => s.Wf ∧ s.Asked) (fun _ i h => step_wf h i) wf_empty
    inputs

/-- The number of callbacks that nothing leads to any more. -/
def lost (s : CallbackClient) : Nat := s.resolves-s.held.length

theorem Wf.held_le {s : CallbackClient} (h : s.Wf) : s.held.length ≤ s.resolves := by
  have hsub : s.held ⊆ List.range s.resolves := fun cb hcb => List.mem_range.2 (h.known cb hcb)
  have hle := (List.subperm_of_subset h.distinct hsub).length_le
  rw [List.length_range] at hle
  exact hle

/-- Callbacks are lost where a pending one is overwritten, and nowhere else. -/
theorem step_lost {s : CallbackClient} (h : s.Wf ∧ s.Asked) (i : StunInput) :
    s.lost ≤ (s.step i).lost ∧ ((s.step i).lost = s.lost ↔ s.KeepsPending i) := by
  have hle := h.1.held_le
  unfold lost
  rcases step_leads h.1 h.2 i with ⟨hkeep,n,hlead⟩ | ⟨hdrop,hless⟩
  · have hheld := hlead.held
    have hresolves := hlead.resolves
    exact ⟨by omega,iff_of_true (by omega) hkeep⟩
  · have hheld := hless.held
    have hresolves := hless.resolves
    exact ⟨by omega,iff_of_false (by omega) hdrop⟩

theorem Wf.pending_length {s : CallbackClient} (h : s.Wf) :
    s.pendingCb.toList.length = if s.client.active then 1 else 0 := by
  rw [h.active]
  cases s.pendingCb <;> rfl

theorem Wf.faultless_iff {s : CallbackClient} (h : s.Wf) : s.Faultless ↔ s.lost = 0 := by
  have hle := h.held_le
  have hpending := h.pending_length
  have hlength : s.held.length = s.called.length+s.pendingCb.toList.length+s.waiting.length := by
    rw [held,List.length_append,List.length_append]
  have hcalled : s.called.Nodup := (List.nodup_append.1 (List.nodup_append.1 h.distinct).1).1
  unfold lost
  constructor
  · intro hf
    have hcount := hf.count
    omega
  · intro hlost
    refine ⟨by omega,fun cb hcb => ?_,hcalled,h.delivered⟩
    have hsub : s.held ⊆ List.range s.resolves := fun a ha => List.mem_range.2 (h.known a ha)
    have hperm : s.held.Perm (List.range s.resolves) :=
      (List.subperm_of_subset h.distinct hsub).perm_of_length_le (by rw [List.length_range]; omega)
    have hmem : cb ∈ s.held := hperm.mem_iff.2 (List.mem_range.2 hcb)
    rcases List.mem_append.1 hmem with hmem | hwaits
    · rcases List.mem_append.1 hmem with hwas | hpends
      · exact .inl (List.count_eq_one_of_mem hcalled hwas)
      · have hcb' : s.pendingCb = some cb := Option.mem_toList.1 hpends
        exact .inr (.inl ⟨h.active.trans (Option.isSome_of_mem hcb'),hcb'⟩)
    · exact .inr (.inr hwaits)

/-- In every run: no callback is invoked twice, and results go to the asker. -/
theorem run_never_twice (inputs : List StunInput) :
    (run step {} inputs).called.Nodup ∧
      ∀ v ∈ (run step {} inputs).invoked, (run step {} inputs).Delivered v := by
  have h := (run_wf inputs).1
  exact ⟨(List.nodup_append.1 (List.nodup_append.1 h.distinct).1).1,h.delivered⟩

/-- Every callback is accounted for exactly if no `resolve` has overwritten a pending one. -/
theorem callbacks_kept_iff (inputs : List StunInput) :
    (run step {} inputs).Faultless ↔ Along step KeepsPending {} inputs := by
  rw [(run_wf inputs).1.faultless_iff]
  exact Along.of_measure (I := fun s : CallbackClient => s.Wf ∧ s.Asked)
    (fun _ i h => step_wf h i) (fun _ i h => (step_lost h i).1) (fun _ i h => (step_lost h i).2)
    wf_empty inputs

/-- `resolve` is called on an idle client only, as the gathering of candidates does. -/
def OnIdle (s : CallbackClient) : StunInput → Prop
  | .resolve _ _ _ => s.client.active = false
  | _ => True

theorem finish_waiting (s : CallbackClient) (result : Option StunAddress)
    (packet : Option Bytes) : (s.finish result packet .done).waiting = s.waiting := by
  unfold finish
  cases s.pendingCb <;> rfl

theorem install_waiting (s : CallbackClient) (cb : Nat) (server : StunServer) (sock : Nat)
    (w : StunAnswers) : (s.install cb server sock w).waiting = s.waiting := by
  unfold install sendRequest
  cases w.resolved server with
  | none => exact finish_waiting _ _ _
  | some ep =>
    cases hsent : w.sent with
    | true => rfl
    | false => exact finish_waiting _ _ _

theorem onIdle_waiting {s : CallbackClient} (h : s.waiting = []) {i : StunInput}
    (hi : s.OnIdle i) : (s.step i).waiting = [] := by
  cases i with
  | resolve server sock w =>
    have hidle : s.client.active = false := hi
    change (s.resolve server sock w).waiting = []
    unfold resolve
    simp only [hidle,Bool.false_eq_true,if_false]
    rw [install_waiting]
    exact h
  | feed data =>
    change (s.feed data).waiting = []
    unfold feed
    cases s.client.feed data with
    | none => exact h
    | some addr =>
      simp only
      rw [finish_waiting]
      exact h
  | cancel =>
    change s.cancel.waiting = []
    unfold cancel
    split
    · rw [finish_waiting]
      exact h
    · exact h
  | expire =>
    change s.expire.waiting = []
    unfold expire
    split
    · exact h
    · exact h
  | retry w =>
    change (s.retry w).waiting = []
    unfold retry
    split
    · exact h
    · simp only
      split
      · exact h
      · split
        · rw [finish_waiting]
          exact h
        · exact h
  | ret w =>
    change (s.ret w).waiting = []
    unfold waiting at h
    unfold ret
    cases hstack : s.stack with
    | nil => exact h
    | cons frame rest =>
      rw [hstack] at h
      cases frame with
      | done => exact h
      | resolve cb server sock => cases h

/-- So no callback of the gathering is lost. -/
theorem onIdle_faultless {inputs : List StunInput} (h : Along step OnIdle {} inputs) :
    Along step KeepsPending {} inputs := by
  refine h.promises (I := fun s : CallbackClient => s.waiting = [])
    (fun _ _ hs hi => onIdle_waiting hs hi) (fun s i hs _ => ?_) rfl
  cases i with
  | ret w =>
    unfold KeepsPending
    unfold waiting at hs
    cases hstack : s.stack with
    | nil => trivial
    | cons frame rest =>
      rw [hstack] at hs
      cases frame with
      | done => trivial
      | resolve cb server sock => cases hs
  | _ => trivial

/-- What the session's own model of the client does for one server is this. -/
theorem requestServer_install (w : IceWorld) (s : IceSession) (c : CallbackClient)
    (h : c.client = s.stunClient) (cb : Nat) (server : StunServer) (sock : Nat) :
    (s.requestServer w).1.stunClient = (c.install cb server sock
        ⟨fun _ => w.resolves s.asked,w.random s.asked,s.socketOpen && w.sends s.asked⟩).client ∧
      (s.requestServer w).2 = (s.requestServer w).1.stunClient.active := by
  have hsocket : ∀ (t : IceSession) (dest : StunAddress) (packet : Bytes),
      (t.sendTo dest packet).stunClient = t.stunClient :=
    fun t dest packet => (sendTo_client t dest packet).1
  unfold IceSession.requestServer install sendRequest
  rw [h]
  cases hresolved : w.resolves s.asked with
  | none =>
    simp only [hresolved]
    exact ⟨rfl,rfl⟩
  | some ep =>
    simp only [hresolved]
    cases hsent : s.socketOpen && w.sends s.asked with
    | true =>
      simp only [if_true,IceSession.arm,hsocket]
      exact ⟨rfl,trivial⟩
    | false =>
      simp only [Bool.false_eq_true,if_false,IceSession.clientDone,hsocket]
      exact ⟨rfl,trivial⟩

/-- All answers are good. -/
def goodAnswers (n : UInt8) : StunAnswers where
  resolved _ := some {}
  txn := ⟨List.replicate 12 n,by simp⟩
  sent := true

/-- A second `resolve` makes the first callback run, which calls `resolve` again, and then
overwrites the callback that was passed there. The client is cancelled at last. -/
def overwriting : List StunInput :=
  [.resolve ⟨"a",3478⟩ 0 (goodAnswers 1),.resolve ⟨"b",3478⟩ 0 (goodAnswers 2),
    .resolve ⟨"c",3478⟩ 0 (goodAnswers 3),.ret (goodAnswers 4),.cancel,.ret (goodAnswers 5)]

theorem overwriting_loses :
    ¬∀ inputs : List StunInput, (run step {} inputs).Faultless := by
  intro h
  have hcount := (h overwriting).count
  exact absurd hcount (by decide +kernel)

end CallbackClient

end GoodNet.Ice
