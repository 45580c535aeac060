import NanoHat.Foundations.Handles
import NanoHat.Hal.UbusRealTrace
import NanoHat.Status.Queries
import NanoHat.Status.Stack

/-!
# The contexts of service requests

`Stack` is `sys_status.c` over the real HAL, with addresses; `Sys` is the same code over a HAL of
which only the contract is known, with the requests it holds as a list. `Refines` connects the two:
the requests outstanding in `Sys` are the calls that the HAL has accepted and not called back, and
the heap has exactly their contexts, one block each (`Held`). Between the return of the HAL and the
replay of its callbacks the relation refers to the state of the HAL before, so that a call which has
been answered is still held until its callback is run.
-/

namespace NanoHat

open UbusHal UbusReal

/-! ## Requests and their blocks -/

namespace RequestCtx

variable {σ : Type*}

/-- The kind of request that carries a context. -/
def type : RequestCtx σ → RequestType
  | .query .. => .query
  | .control .. => .control

/-- The function that is called back with it. -/
def cbPtr (ctx : RequestCtx σ) : Ptr :=
  match ctx.type with
  | .query => serviceQueryCbPtr
  | .control => serviceControlCbPtr

end RequestCtx

/-- A request at the HAL: the number of the call, the address of its context, the service it is
about, and the context. -/
structure Held (σ : Type*) where
  call : ℕ
  ptr : Ptr
  service : CStr
  ctx : RequestCtx σ

namespace Held

variable {σ : Type*}

/-- The request in `Sys`. -/
def request (h : Held σ) : HalRequest σ := ⟨h.call, h.service, h.ctx⟩

/-- Its block on the heap. -/
def block (h : Held σ) : Ptr × RequestCtx σ := (h.ptr, h.ctx)

/-- Its entry in the trace of the HAL. -/
def record (h : Held σ) : UbusReal.Obs :=
  .called h.call h.ctx.type (some h.service) h.ctx.cbPtr h.ptr

end Held

namespace Stack

variable {σ ω : Type*}

/-- The two states agree, and the heap has the blocks of the requests. -/
structure Backs (held : List (Held σ)) (s : Stack σ) (t : Sys σ ω) : Prop where
  status : t.status = s.status
  next : t.nextRequestId = s.nextRequestId
  client : t.client = s.client
  outstanding : t.outstanding = held.map Held.request
  heap : Handles.Lists s.heap (held.map Held.block)
  nodup : (held.map Held.call).Nodup
  nonnull : ∀ h ∈ held, h.ptr ≠ 0
  fault : s.fault = false

/-! ## A callback -/

section

variable {l₁ l₂ : List (Held σ)} {h : Held σ} {s : Stack σ} {t : Sys σ ω}

/-- The request of a call that is called back. -/
theorem Backs.find (hb : Backs (l₁ ++ h :: l₂) s t) :
    t.outstanding.find? (·.call = h.call) = some h.request ∧
      t.outstanding.eraseP (·.call = h.call) = (l₁ ++ l₂).map Held.request := by
  have hnot : ∀ r ∈ l₁.map Held.request, r.call ≠ h.call := by
    intro r hr heq
    obtain ⟨h', hh', rfl⟩ := List.mem_map.1 hr
    have hnodup := hb.nodup
    rw [List.map_append, List.map_cons, List.nodup_middle, List.nodup_cons] at hnodup
    refine hnodup.1 (List.mem_append_left _ ?_)
    exact heq ▸ List.mem_map_of_mem (f := Held.call) hh'
  have hout : t.outstanding = l₁.map Held.request ++ h.request :: l₂.map Held.request := by
    rw [hb.outstanding, List.map_append, List.map_cons]
  rw [hout]
  constructor
  · rw [List.find?_append, List.find?_eq_none.2 fun r hr => by simpa using hnot r hr]
    simp [Held.request]
  · rw [List.eraseP_append_right _ fun r hr => by simpa using hnot r hr, List.map_append]
    simp [Held.request]

/-- The block of a held request is allocated. -/
theorem Backs.allocated (hb : Backs (l₁ ++ h :: l₂) s t) : s.heap h.ptr = some h.ctx :=
  (hb.heap.mem_iff _ _).2 (List.mem_map.2 ⟨h, by simp, rfl⟩)

/-- The release of the context of a held request, in a state that differs in what callbacks may
write. -/
theorem Backs.free (hb : Backs (l₁ ++ h :: l₂) s t) {s' : Stack σ} {t' : Sys σ ω}
    (hstatus : t'.status = s'.status) (hnext : t'.nextRequestId = s'.nextRequestId)
    (hclient : t'.client = s'.client) (hheap : s'.heap = s.heap) (hfault : s'.fault = s.fault)
    (hout : t'.outstanding = (l₁ ++ l₂).map Held.request) :
    Backs (l₁ ++ l₂) (s'.free h.ptr) t' := by
  have hfree : s'.free h.ptr = { s' with heap := Function.update s'.heap h.ptr none } := by
    rw [Stack.free, if_neg (hb.nonnull h (by simp)), hheap, hb.allocated]
  have hsub : (l₁ ++ l₂).Sublist (l₁ ++ h :: l₂) := (List.sublist_cons_self h l₂).append_left l₁
  rw [hfree]
  exact
    { status := hstatus
      next := hnext
      client := hclient
      outstanding := hout
      heap := by
        have hlists := hb.heap
        rw [List.map_append, List.map_cons] at hlists
        rw [hheap, List.map_append]
        exact hlists.free
      nodup := hb.nodup.sublist (hsub.map _)
      nonnull := fun h' hh' => hb.nonnull h' (hsub.subset hh')
      fault := hfault.trans hb.fault }

/-- **A callback** finds its context, and does what `Sys.deliver` says. -/
theorem Backs.callBack (hb : Backs (l₁ ++ h :: l₂) s t) {c : Callback}
    (htype : c.type = h.ctx.type) (hservice : c.service = h.service) (nowMs : UInt64) :
    Backs (l₁ ++ l₂) (s.callBack nowMs h.ctx.cbPtr h.ptr c)
      (t.deliver h.call (answerOf nowMs c)) := by
  obtain ⟨hfind, herase⟩ := hb.find
  have hnonnull := hb.nonnull h (by simp)
  have halloc := hb.allocated
  rw [Sys.deliver, hfind]
  simp only [herase, Held.request]
  cases hctx : h.ctx with
  | query requestId issuedFor =>
    rw [hctx] at halloc htype
    simp only [Stack.callBack, htype, RequestCtx.cbPtr, RequestCtx.type, if_true, Stack.serviceQueryCb,
      if_neg hnonnull, halloc, Sys.serviceQueryCb, hb.status, hservice]
    cases hlookup : s.status.lookup h.service with
    | none => exact hb.free rfl hb.next hb.client rfl rfl rfl
    | some i =>
      by_cases hid : (s.status.services i).requestId = requestId
      · simp only [hid, ne_eq, not_true_eq_false, if_false]
        exact hb.free rfl hb.next hb.client rfl rfl rfl
      · simp only [hid, ne_eq, not_false_eq_true, if_true]
        exact hb.free rfl hb.next hb.client rfl rfl rfl
  | control index start cb =>
    rw [hctx] at halloc htype
    simp only [Stack.callBack, htype, RequestCtx.cbPtr, RequestCtx.type, if_true,
      Stack.serviceControlCb, if_neg hnonnull, halloc, Sys.serviceControlCb, hb.status]
    by_cases hindex : 0 ≤ index ∧ index < s.status.serviceCount
    · simp only [if_pos hindex]
      cases cb with
      | none => exact hb.free rfl hb.next hb.client rfl rfl rfl
      | some cb => exact hb.free rfl hb.next (congrArg _ hb.client) rfl rfl rfl
    · simp only [if_neg hindex]
      cases cb with
      | none => exact hb.free rfl hb.next hb.client rfl rfl rfl
      | some cb => exact hb.free rfl hb.next (congrArg _ hb.client) rfl rfl rfl

end

/-! ## The callbacks of a function of the HAL -/

theorem mem_erased {α : Type*} {l₁ l₂ : List α} {a x : α} (h : (l₁ ++ a :: l₂).Nodup) :
    x ∈ l₁ ++ l₂ ↔ x ∈ l₁ ++ a :: l₂ ∧ x ≠ a := by
  rw [List.nodup_middle, List.nodup_cons] at h
  constructor
  · intro hx
    refine ⟨by simp only [List.mem_append, List.mem_cons] at hx ⊢; tauto, ?_⟩
    rintro rfl
    exact h.1 hx
  · rintro ⟨hx, hne⟩
    simpa [hne] using hx

/-- A part of a trace calls back held requests, each of them once and on its own arguments. -/
structure Answered (held : List (Held σ)) (os : List Obs) : Prop where
  nodup : (callbackIds os).Nodup
  own : ∀ id cb priv c, .callback id cb priv c ∈ os → ∃ h ∈ held, h.call = id ∧
    cb = h.ctx.cbPtr ∧ priv = h.ptr ∧ c.type = h.ctx.type ∧ c.service = h.service

theorem Answered.tail {held : List (Held σ)} {o : Obs} {os : List Obs}
    (h : Answered held (o :: os)) : Answered held os where
  nodup := h.nodup.sublist ((List.sublist_cons_self o os).filterMap _)
  own id cb priv c hm := h.own id cb priv c (List.mem_cons_of_mem _ hm)

/-- The callbacks one after the other. -/
theorem Backs.replay {held : List (Held σ)} {s : Stack σ} {t : Sys σ ω} (hb : Backs held s t)
    {os : List Obs} (ha : Answered held os) (nowMs : ℕ → UInt64) :
    ∃ completions held', Backs held' (os.foldr (fun o s => s.runCallback nowMs o) s)
        (t.deliverAll completions) ∧ held'.Sublist held ∧
      ∀ id, id ∈ held'.map Held.call ↔ id ∈ held.map Held.call ∧ id ∉ callbackIds os := by
  induction os with
  | nil => exact ⟨[], held, hb, .refl held, by simp [callbackIds]⟩
  | cons o os ih =>
    obtain ⟨completions, held₁, hb₁, hsub, hmem⟩ := ih ha.tail
    cases o with
    | callback id cb priv c =>
      obtain ⟨h, hh, rfl, rfl, rfl, htype, hservice⟩ := ha.own id cb priv c List.mem_cons_self
      have hnodup : (h.call :: callbackIds os).Nodup := ha.nodup
      -- the call is still held, since no callback of it came before
      have hheld₁ : h ∈ held₁ := by
        have hid := (hmem h.call).2 ⟨List.mem_map_of_mem hh, (List.nodup_cons.1 hnodup).1⟩
        obtain ⟨h₁, hh₁, hcall⟩ := List.mem_map.1 hid
        exact List.inj_on_of_nodup_map hb.nodup (hsub.subset hh₁) hh hcall ▸ hh₁
      obtain ⟨l₁, l₂, rfl⟩ := List.append_of_mem hheld₁
      refine ⟨completions ++ [(h.call, answerOf (nowMs h.call) c)], l₁ ++ l₂, ?_,
        ((List.sublist_cons_self h l₂).append_left l₁).trans hsub, fun id => ?_⟩
      · rw [Sys.deliverAll, List.foldl_append]
        exact hb₁.callBack htype hservice _
      · have herased := mem_erased (x := id) (by simpa using hb₁.nodup)
        rw [← List.map_append, ← List.map_cons, ← List.map_append] at herased
        rw [herased, hmem id, show callbackIds (.callback h.call _ _ c :: os) =
          h.call :: callbackIds os from rfl, List.mem_cons, not_or]
        tauto
    | _ => exact ⟨completions, held₁, hb₁, hsub, hmem⟩

/-! ## The relation -/

/-- The relation, while the callbacks that the HAL ran since its state `old` are still to be
replayed. -/
structure Refines (old : Hal) (held : List (Held σ)) (s : Stack σ) (t : Sys σ ω) : Prop extends
    Backs held s t where
  inv : Inv s.hal
  calledOnce : CalledOnce s.hal
  calls : t.calls = s.hal.calls
  grows : old.trace <:+ s.hal.trace
  /-- The held requests are the calls that are accepted and not called back. -/
  open_iff : ∀ id, id ∈ held.map Held.call ↔
    .returned id 0 ∈ s.hal.trace ∧ id ∉ callbackIds old.trace
  recorded : ∀ h ∈ held, h.record ∈ s.hal.trace
  serviceShort : ∀ h ∈ held, h.service.length < serviceNameMaxLen
  nameShort : ∀ i, (s.status.services i).name.length < serviceNameMaxLen

/-- A held call that is called back is called back on its own arguments. -/
theorem Refines.answered {old : Hal} {held : List (Held σ)} {s : Stack σ} {t : Sys σ ω}
    (hr : Refines old held s t) {os : List Obs} (ht : s.hal.trace = os ++ old.trace) :
    Answered held os where
  nodup := by
    have hnodup := hr.inv.clientPromise.atMostOnce
    rw [ht, callbackIds_append] at hnodup
    exact (List.nodup_append.1 hnodup).1
  own id cb priv c hm := by
    have hmem : .callback id cb priv c ∈ s.hal.trace := ht ▸ List.mem_append_left _ hm
    obtain ⟨hret, name, hcalled, hname⟩ := hr.inv.clientPromise.own id cb priv c hmem
    have hid : id ∉ callbackIds old.trace := by
      have hnodup := hr.inv.clientPromise.atMostOnce
      rw [ht, callbackIds_append] at hnodup
      exact fun hold => (List.nodup_append.1 hnodup).2.2 id
        (List.mem_filterMap.2 ⟨_, hm, rfl⟩) id hold rfl
    obtain ⟨h, hh, rfl⟩ := List.mem_map.1 ((hr.open_iff id).2 ⟨hret, hid⟩)
    obtain ⟨htype, hservice, hcb, hpriv⟩ := hr.calledOnce.unique hcalled (hr.recorded h hh)
    obtain rfl := Option.some.inj hservice
    have hcopy : strncpy 32 h.service = h.service :=
      List.take_of_length_le (Nat.le_of_lt_succ (hr.serviceShort h hh))
    exact ⟨h, hh, rfl, hcb, hpriv, htype, hname.elim id fun hc => hc.trans hcopy⟩

theorem newest_eq {old hal : Hal} {os : List Obs} (ht : hal.trace = os ++ old.trace) :
    newest old hal = os := by
  rw [newest, ht, List.length_append, Nat.add_sub_cancel, List.take_left]

/-- Callbacks do not touch the HAL. -/
theorem hal_callBack (s : Stack σ) (nowMs : UInt64) (cb priv : Ptr) (c : Callback) :
    (s.callBack nowMs cb priv c).hal = s.hal := by
  have hfree : ∀ (s' : Stack σ) (p : Ptr), (s'.free p).hal = s'.hal := by
    intro s' p
    simp only [Stack.free]
    split
    · rfl
    split
    · rfl
    · rfl
  simp only [Stack.callBack, Stack.serviceQueryCb, Stack.serviceControlCb]
  split
  all_goals
    split
    swap
    · rfl
    split
    · rfl
    split
    · rw [hfree]
      repeat' split
      all_goals rfl
    · rfl

theorem hal_replay (nowMs : ℕ → UInt64) (os : List Obs) (s : Stack σ) :
    (os.foldr (fun o s => s.runCallback nowMs o) s).hal = s.hal := by
  induction os with
  | nil => rfl
  | cons o os ih =>
    cases o with
    | callback id cb priv c => exact (hal_callBack _ _ _ _ _).trans ih
    | _ => exact ih

/-- After the replay the relation is about the present state of the HAL. -/
theorem Refines.runCallbacks {old : Hal} {held : List (Held σ)} {s : Stack σ} {t : Sys σ ω}
    (hr : Refines old held s t) (nowMs : ℕ → UInt64) :
    ∃ completions held', Refines s.hal held' (s.runCallbacks old nowMs)
      (t.deliverAll completions) := by
  obtain ⟨os, ht⟩ := hr.grows
  have ht' : s.hal.trace = os ++ old.trace := ht.symm
  obtain ⟨completions, held', hb, hsub, hmem⟩ := hr.toBacks.replay (hr.answered ht') nowMs
  have hsame := Sys.same_deliverAll t completions
  have hhal := hal_replay nowMs os s
  rw [← newest_eq ht'] at hb hhal
  refine ⟨completions, held', hb, ?_, ?_, ?_, ?_, fun id => ?_, fun h hh => ?_, fun h hh => ?_,
    fun i => ?_⟩
  · rw [Stack.runCallbacks, hhal]
    exact hr.inv
  · rw [Stack.runCallbacks, hhal]
    exact hr.calledOnce
  · rw [Stack.runCallbacks, hhal, hsame.calls]
    exact hr.calls
  · exact ⟨[], by rw [Stack.runCallbacks, hhal, List.nil_append]⟩
  · have hids : id ∈ callbackIds s.hal.trace ↔ id ∈ callbackIds os ∨ id ∈ callbackIds old.trace := by
      rw [ht', callbackIds_append, List.mem_append]
    rw [hmem, hr.open_iff, Stack.runCallbacks, hhal, hids]
    tauto
  · rw [Stack.runCallbacks, hhal]
    exact hr.recorded h (hsub.subset hh)
  · exact hr.serviceShort h (hsub.subset hh)
  · rw [Stack.runCallbacks, ← hb.status, hsame.name i, hr.status]
    exact hr.nameShort i

/-! ## What the event loop dispatches -/

/-- A function of the HAL that makes no call, with its callbacks. -/
theorem Refines.runHal {held : List (Held σ)} {s : Stack σ} {t : Sys σ ω}
    (hr : Refines s.hal held s t) {hal : Hal} (hm : Mute s.hal hal) (hinv : Inv hal)
    (nowMs : ℕ → UInt64) :
    ∃ completions held', Refines hal held' (s.runHal hal nowMs) (t.deliverAll completions) := by
  have hmid : Refines s.hal held ({ s with hal := hal } : Stack σ) t := by
    obtain ⟨os, ht, ho⟩ := hm
    exact
      { status := hr.status
        next := hr.next
        client := hr.client
        outstanding := hr.outstanding
        heap := hr.heap
        nodup := hr.nodup
        nonnull := hr.nonnull
        fault := hr.fault
        inv := hinv
        calledOnce := Mute.calledOnce ⟨os, ht, ho⟩ hr.inv hinv hr.calledOnce
        calls := hr.calls.trans (Mute.calls ⟨os, ht, ho⟩ hr.inv hinv).symm
        grows := ⟨os, ht.symm⟩
        open_iff := fun id => by rw [hr.open_iff, Mute.returned_iff ⟨os, ht, ho⟩]
        recorded := fun h hh => ht ▸ List.mem_append_right _ (hr.recorded h hh)
        serviceShort := hr.serviceShort
        nameShort := hr.nameShort }
  exact hmid.runCallbacks nowMs

/-- What only writes to the entries keeps the relation. -/
theorem Refines.congr {old : Hal} {held : List (Held σ)} {s s' : Stack σ} {t t' : Sys σ ω}
    (hr : Refines old held s t) (hstatus : t'.status = s'.status)
    (hnext : t'.nextRequestId = s'.nextRequestId) (hclient : t'.client = s'.client)
    (hout : t'.outstanding = t.outstanding) (hcalls : t'.calls = t.calls)
    (hhal : s'.hal = s.hal) (hheap : s'.heap = s.heap) (hfault : s'.fault = s.fault)
    (hname : ∀ i, (s'.status.services i).name.length < serviceNameMaxLen) :
    Refines old held s' t' where
  status := hstatus
  next := hnext
  client := hclient
  outstanding := hout.trans hr.outstanding
  heap := hheap ▸ hr.heap
  nodup := hr.nodup
  nonnull := hr.nonnull
  fault := hfault.trans hr.fault
  inv := hhal ▸ hr.inv
  calledOnce := hhal ▸ hr.calledOnce
  calls := by rw [hcalls, hhal, hr.calls]
  grows := hhal ▸ hr.grows
  open_iff := by rw [hhal]; exact hr.open_iff
  recorded := by rw [hhal]; exact hr.recorded
  serviceShort := hr.serviceShort
  nameShort := hname

/-! ## A request -/

/-- What a call of the HAL amounts to. -/
structure Requested (hal : Hal) (type : RequestType) (service : CStr) (cb priv : Ptr)
    (r : ℤ × Hal) : Prop where
  inv : Inv r.2
  calls : r.2.calls = hal.calls + 1
  trace : ∃ os : List Obs, r.2.trace = .returned hal.calls r.1 :: os ++
      .called hal.calls type (some service) cb priv :: hal.trace ∧
    (∀ o ∈ os, isCall o = false) ∧ (r.1 = -1 ∧ os = [] ∨ r.1 = 0)

theorem requested_query {hal : Hal} (h : Inv hal) (service : CStr) (cb priv : Ptr)
    (env : ConnEnv) : Requested hal .query service cb priv
      (hal.realQueryServiceAsync (some service) cb priv env) where
  inv := (step_refines h (.query (some service) cb priv env)).1
  calls := (h.serviceAsync queryShape (some service) cb priv env).calls
  trace := trace_serviceAsync ..

theorem requested_control {hal : Hal} (h : Inv hal) (service : CStr) (start : Bool)
    (cb priv : Ptr) (env : ConnEnv) : Requested hal .control service cb priv
      (hal.realControlServiceAsync (some service) start cb priv env) where
  inv := (step_refines h (.control (some service) start cb priv env)).1
  calls := (h.serviceAsync (controlShape start) (some service) cb priv env).calls
  trace := trace_serviceAsync ..

section

variable {held : List (Held σ)} {s : Stack σ} {t : Sys σ ω} {p : Ptr} {ctx : RequestCtx σ}
  {service : CStr} {r : ℤ × Hal}

theorem Requested.calledOnce {hal : Hal} {type : RequestType} {cb : Ptr}
    (hq : Requested hal type service cb p r) (h : CalledOnce hal) : CalledOnce r.2 := by
  obtain ⟨os, ht, ho, -⟩ := hq.trace
  exact h.call ht ho hq.calls

/-- An accepted request is held, whether or not it has been answered already. -/
theorem Refines.accepted (hr : Refines s.hal held s t) (hp : p ≠ 0 ∧ s.heap p = none)
    (hservice : service.length < serviceNameMaxLen)
    (hq : Requested s.hal ctx.type service ctx.cbPtr p r) (hcode : r.1 = 0) :
    Refines s.hal (held ++ [⟨s.hal.calls, p, service, ctx⟩])
      ({ s with heap := Function.update s.heap p (some ctx), hal := r.2 } : Stack σ)
      { t with
        calls := t.calls + 1
        outstanding := t.outstanding ++ [⟨t.calls, service, ctx⟩] } := by
  obtain ⟨os, ht, ho, -⟩ := hq.trace
  have hlt : ∀ id ∈ held.map Held.call, id < s.hal.calls := fun id hid =>
    ((hr.inv.returned_iff id).1 ((hr.open_iff id).1 hid).1).1
  have hret : ∀ id, .returned id 0 ∈ r.2.trace ↔ id = s.hal.calls ∨ .returned id 0 ∈ s.hal.trace := by
    intro id
    rw [ht, hcode, List.cons_append, List.mem_cons, List.mem_append, List.mem_cons]
    constructor
    · rintro (heq | hos | heq | hold)
      · exact Or.inl (UbusReal.Obs.returned.inj heq).1
      · exact nomatch ho _ hos
      · exact nomatch heq
      · exact Or.inr hold
    · rintro (rfl | hold)
      · exact Or.inl rfl
      · exact Or.inr (Or.inr (Or.inr hold))
  exact
    { status := hr.status
      next := hr.next
      client := hr.client
      outstanding := by
        rw [List.map_append, ← hr.outstanding, hr.calls]
        rfl
      heap := by
        rw [List.map_append]
        exact hr.heap.alloc hp.2 ctx
      nodup := by
        rw [List.map_append, List.nodup_append]
        refine ⟨hr.nodup, List.nodup_singleton _, ?_⟩
        intro id hid id' hid' heq
        have hcall : id' = s.hal.calls := List.mem_singleton.1 hid'
        exact absurd (hlt id hid) (by omega)
      nonnull := fun h hh => (List.mem_append.1 hh).elim (hr.nonnull h) fun hh => by
        rw [List.mem_singleton.1 hh]
        exact hp.1
      fault := hr.fault
      inv := hq.inv
      calledOnce := hq.calledOnce hr.calledOnce
      calls := by rw [hr.calls, hq.calls]
      grows := ⟨.returned s.hal.calls r.1 :: os ++ [.called s.hal.calls ctx.type (some service)
        ctx.cbPtr p], by rw [ht]; simp⟩
      open_iff := fun id => by
        rw [List.map_append, List.mem_append, hr.open_iff, hret]
        have hnew : s.hal.calls ∉ callbackIds s.hal.trace := fun hid =>
          absurd (hr.inv.lt_of_callbackIds hid) (lt_irrefl _)
        constructor
        · rintro (⟨hold, hid⟩ | hid)
          · exact ⟨Or.inr hold, hid⟩
          · obtain rfl : id = s.hal.calls := List.mem_singleton.1 hid
            exact ⟨Or.inl rfl, hnew⟩
        · rintro ⟨rfl | hold, hid⟩
          · exact Or.inr (List.mem_singleton.2 rfl)
          · exact Or.inl ⟨hold, hid⟩
      recorded := fun h hh => by
        rw [ht]
        rcases List.mem_append.1 hh with hh | hh
        · exact List.mem_append_right _ (List.mem_cons_of_mem _ (hr.recorded h hh))
        · rw [List.mem_singleton.1 hh]
          exact List.mem_append_right _ List.mem_cons_self
      serviceShort := fun h hh => (List.mem_append.1 hh).elim (hr.serviceShort h) fun hh => by
        rw [List.mem_singleton.1 hh]
        exact hservice
      nameShort := hr.nameShort }

/-- A refused request leaves nothing behind. -/
theorem Refines.refused (hr : Refines s.hal held s t) {type : RequestType} {cb : Ptr}
    (hq : Requested s.hal type service cb p r) (hcode : r.1 = -1) :
    Refines r.2 held ({ s with hal := r.2 } : Stack σ) { t with calls := t.calls + 1 } := by
  obtain ⟨os, ht, -, hos⟩ := hq.trace
  obtain rfl : os = [] := hos.elim And.right fun h0 => by omega
  have hids : callbackIds r.2.trace = callbackIds s.hal.trace := by rw [ht]; rfl
  have hret : ∀ id, .returned id 0 ∈ r.2.trace ↔ .returned id 0 ∈ s.hal.trace := by
    intro id
    rw [ht, hcode]
    simp
  exact
    { status := hr.status
      next := hr.next
      client := hr.client
      outstanding := hr.outstanding
      heap := hr.heap
      nodup := hr.nodup
      nonnull := hr.nonnull
      fault := hr.fault
      inv := hq.inv
      calledOnce := hq.calledOnce hr.calledOnce
      calls := by rw [hr.calls, hq.calls]
      grows := List.suffix_rfl
      open_iff := fun id => by rw [hr.open_iff, hret, hids]
      recorded := fun h hh => by
        rw [ht]
        exact List.mem_append_right _ (List.mem_cons_of_mem _ (hr.recorded h hh))
      serviceShort := hr.serviceShort
      nameShort := hr.nameShort }

/-- The callbacks of a refused request: none. -/
theorem runHal_of_refused {hal : Hal} {type : RequestType} {cb : Ptr}
    (hq : Requested s.hal type service cb p (r.1, hal)) (hcode : r.1 = -1) (nowMs : ℕ → UInt64) :
    s.runHal hal nowMs = { s with hal := hal } := by
  obtain ⟨os, ht, -, hos⟩ := hq.trace
  obtain rfl : os = [] := hos.elim And.right fun h0 => by
    have : r.1 = 0 := h0
    omega
  have ht' : hal.trace = [.returned s.hal.calls r.1, .called s.hal.calls type (some service) cb p] ++
      s.hal.trace := ht
  rw [Stack.runHal, Stack.runCallbacks, newest_eq ht']
  rfl

/-- The release of a block that has just been allocated. -/
theorem free_alloc (hp : p ≠ 0 ∧ s.heap p = none) (ctx : RequestCtx σ) :
    ({ s with heap := Function.update s.heap p (some ctx) } : Stack σ).free p = s := by
  rw [Stack.free, if_neg hp.1]
  simp only [Function.update_self, Function.update_idem]
  rw [← hp.2, Function.update_eq_self]

theorem Requested.code (hq : Requested s.hal ctx.type service ctx.cbPtr p r) :
    r.1 = 0 ∨ r.1 = -1 := by
  obtain ⟨-, -, -, ⟨h, -⟩ | h⟩ := hq.trace
  · exact Or.inr h
  · exact Or.inl h

variable (ctx) in
/-- **A request**, from the allocation of its context to the return of the HAL. -/
theorem Refines.request (hr : Refines s.hal held s t) (hp : p ≠ 0 ∧ s.heap p = none)
    (hservice : service.length < serviceNameMaxLen)
    (hq : Requested s.hal ctx.type service ctx.cbPtr p r) (nowMs : ℕ → UInt64) :
    let s' := ({ s with heap := Function.update s.heap p (some ctx) } : Stack σ).runHal r.2 nowMs
    ∃ env : CallEnv, env.alloc = true ∧ (t.halCall service ctx env).1 = r.1 ∧
      (r.1 = 0 ∧ (∃ held', Refines r.2 held' s' (t.halCall service ctx env).2) ∨
        r.1 = -1 ∧
          s' = { s with heap := Function.update s.heap p (some ctx), hal := r.2 } ∧
          Refines r.2 held ({ s with hal := r.2 } : Stack σ) (t.halCall service ctx env).2) := by
  intro s'
  rcases hq.code with hcode | hcode
  · obtain ⟨completions, held', h'⟩ := (hr.accepted hp hservice hq hcode).runCallbacks nowMs
    refine ⟨{ completions := completions }, rfl, ?_, Or.inl ⟨hcode, held', ?_⟩⟩
    · rw [hcode]
      rfl
    · exact h'
  · refine ⟨{ refused := true }, rfl, ?_, Or.inr ⟨hcode, ?_, ?_⟩⟩
    · rw [hcode]
      rfl
    · exact runHal_of_refused (s := { s with heap := Function.update s.heap p (some ctx) }) (r := r)
        hq hcode nowMs
    · exact hr.refused hq hcode

end

/-! ## The functions of `sys_status.c` -/

section

variable {held : List (Held σ)} {s : Stack σ} {t : Sys σ ω} {m : Malloc σ}

theorem name_issue (s : Stack σ) (p : Ptr) (i : ℕ) (nowMs : UInt64) (j : ℕ) :
    ((s.issue p i nowMs).status.services j).name = (s.status.services j).name := by
  simp only [Stack.issue]
  exact s.status.modify_keeps ServiceStatus.name rfl j

theorem name_unmark (st : SysStatus) (i j : ℕ) :
    ((st.modify i fun svc => { svc with queryPending := false }).services j).name =
      (st.services j).name := st.modify_keeps ServiceStatus.name rfl j

theorem hal_runHal (s : Stack σ) (hal : Hal) (nowMs : ℕ → UInt64) : (s.runHal hal nowMs).hal = hal :=
  hal_replay nowMs _ _

/-- One turn of the loop of `sys_status_query_services`. -/
theorem Refines.queryService (hr : Refines s.hal held s t) (nowMs : UInt64) (env : ℕ → Outside)
    (n n' i : ℕ) : ∃ e : CallEnv, ∀ env' : ℕ → CallEnv, env' i = e →
      ∃ held', Refines (Stack.queryService m nowMs env (n, s) i).2.hal held'
        (Stack.queryService m nowMs env (n, s) i).2 (Sys.queryService nowMs env' (n', t) i).2 := by
  simp only [Stack.queryService, Sys.queryService, hr.status]
  by_cases hdue : Sys.due (s.status.services i) nowMs = true
  swap
  · refine ⟨{}, fun env' _ => ⟨held, ?_⟩⟩
    simp only [hdue, Bool.not_false, if_true]
    exact hr
  simp only [hdue, Bool.not_true, Bool.false_eq_true, if_false]
  cases halloc : m.alloc s.heap (env i).seed with
  | none =>
    refine ⟨{ alloc := false }, fun env' henv => ⟨held, ?_⟩⟩
    simp only [henv, Bool.not_false, if_true]
    exact hr
  | some p =>
    have hp := m.fresh halloc
    set s₁ : Stack σ := { s.issue p i nowMs with heap := s.heap } with hs₁
    have hissue : s.issue p i nowMs = { s₁ with
        heap := Function.update s₁.heap p (some (.query s.nextRequestId i)) } := rfl
    have hmark : Refines s₁.hal held s₁ (t.issue i nowMs).2 := by
      refine hr.congr ?_ ?_ hr.client rfl rfl rfl rfl rfl ?_
      · simp only [Sys.issue, Sys.takeRequestId, Sys.logs, Sys.modify, hr.status, hr.next, hs₁,
          Stack.issue]
      · simp only [Sys.issue, Sys.takeRequestId, Sys.logs, Sys.modify, hr.next, hs₁, Stack.issue]
      · intro j
        rw [show (s₁.status.services j).name = (s.status.services j).name from name_issue s p i nowMs j]
        exact hr.nameShort j
    have hid : (t.issue i nowMs).1 = s.nextRequestId := hr.next
    have hq : Requested s₁.hal .query (s₁.status.services i).name serviceQueryCbPtr p
        (s₁.hal.realQueryServiceAsync (some (s₁.status.services i).name) serviceQueryCbPtr p
          (env i).conn) := requested_query hr.inv _ _ p _
    obtain ⟨e, hall, hret, hcase⟩ := hmark.request (.query s.nextRequestId i) hp
      (hmark.nameShort i) hq (env i).nowMs
    refine ⟨e, fun env' henv => ?_⟩
    have hname : ((t.issue i nowMs).2.status.services i).name = (s₁.status.services i).name := by
      rw [hmark.status]
    simp only [henv, hall, Bool.not_true, Bool.false_eq_true, if_false, hid, hname, hissue, hret]
    generalize s₁.hal.realQueryServiceAsync (some (s₁.status.services i).name) serviceQueryCbPtr p
      (env i).conn = r at hcase ⊢
    rcases hcase with ⟨hcode, held', h'⟩ | ⟨hcode, hs', h'⟩
    · rw [hcode, if_neg (by decide), if_neg (by decide)]
      refine ⟨held', ?_⟩
      rw [hal_runHal]
      exact h'
    · rw [hcode, if_pos (by decide), if_pos (by decide), hs']
      refine ⟨held, ?_⟩
      have hfree : (({ s₁ with
          heap := Function.update s₁.heap p (some (.query s.nextRequestId i)), hal := r.2 } :
            Stack σ).withdraw p i) = { s₁ with
          hal := r.2
          status := s₁.status.modify i fun svc => { svc with queryPending := false } } :=
        free_alloc (s := { s₁ with
          hal := r.2
          status := s₁.status.modify i fun svc => { svc with queryPending := false } }) hp _
      rw [hfree]
      refine h'.congr ?_ h'.next h'.client rfl rfl rfl rfl rfl fun j => ?_
      · have hstatus := h'.status
        simp only [Sys.logs, Sys.modify]
        rw [hstatus]
      · rw [name_unmark]
        exact h'.nameShort j

/-- The turns of the loop; every turn has an environment of its own. -/
theorem Refines.queryLoop (hr : Refines s.hal held s t) (nowMs : UInt64) (env : ℕ → Outside)
    {l : List ℕ} (hl : l.Nodup) (n n' : ℕ) : ∃ (env' : ℕ → CallEnv) (held' : List (Held σ)),
      Refines (l.foldl (Stack.queryService m nowMs env) (n, s)).2.hal held'
        (l.foldl (Stack.queryService m nowMs env) (n, s)).2
        (l.foldl (Sys.queryService nowMs env') (n', t)).2 := by
  induction l generalizing s t held n n' with
  | nil => exact ⟨fun _ => {}, held, hr⟩
  | cons i l ih =>
    obtain ⟨hi, hl⟩ := List.nodup_cons.1 hl
    obtain ⟨e, he⟩ := hr.queryService (m := m) nowMs env n n' i
    obtain ⟨held₁, h₁⟩ := he (fun _ => e) rfl
    obtain ⟨env₁, held', h'⟩ := ih h₁ hl (Stack.queryService m nowMs env (n, s) i).1
      (Sys.queryService nowMs (fun _ => e) (n', t) i).1
    refine ⟨Function.update env₁ i e, held', ?_⟩
    have hturn : ∀ x : ℕ × Sys σ ω, Sys.queryService nowMs (Function.update env₁ i e) x i =
        Sys.queryService nowMs (fun _ => e) x i := by
      intro x
      simp only [Sys.queryService, Function.update_self]
    have hrest : ∀ x : ℕ × Sys σ ω, l.foldl (Sys.queryService nowMs (Function.update env₁ i e)) x =
        l.foldl (Sys.queryService nowMs env₁) x := by
      intro x
      refine List.foldl_ext _ _ _ fun y j hj => ?_
      have hji : j ≠ i := fun heq => hi (heq ▸ hj)
      simp only [Sys.queryService, Function.update_of_ne hji]
    rw [List.foldl_cons, List.foldl_cons, hturn, hrest]
    exact h'

theorem Refines.controlService (hr : Refines s.hal held s t) (index : ℤ) (start : Bool)
    (cb : Option (ℤ → Bool → ℤ → σ → σ)) (env : Outside) :
    ∃ (env' : CallEnv) (held' : List (Held σ)),
      Refines (s.controlService m index start cb env).2.hal held'
        (s.controlService m index start cb env).2 (t.controlService index start cb env').2 := by
  simp only [Stack.controlService, Sys.controlService, hr.status]
  by_cases hindex : index < 0 ∨ index ≥ s.status.serviceCount
  · exact ⟨{}, held, by rw [if_pos hindex, if_pos hindex]; exact hr⟩
  simp only [if_neg hindex]
  cases halloc : m.alloc s.heap env.seed with
  | none => exact ⟨{ alloc := false }, held, hr⟩
  | some p =>
    have hp := m.fresh halloc
    have hlog : Refines s.hal held s (t.logs (.controlCalled t.calls index.toNat start)) :=
      hr.congr hr.status hr.next hr.client rfl rfl rfl rfl rfl hr.nameShort
    have hq := requested_control hr.inv (s.status.services index.toNat).name start
      serviceControlCbPtr p env.conn
    obtain ⟨e, hall, hret, hcase⟩ := hlog.request (.control index start cb) hp
      (hr.nameShort index.toNat) hq env.nowMs
    refine ⟨e, ?_⟩
    simp only [hall, Bool.not_true, Bool.false_eq_true, if_false, hret]
    generalize s.hal.realControlServiceAsync (some (s.status.services index.toNat).name) start
      serviceControlCbPtr p env.conn = r at hcase ⊢
    rcases hcase with ⟨hcode, held', h'⟩ | ⟨hcode, hs', h'⟩
    · rw [hcode, if_neg (by decide), if_neg (by decide)]
      refine ⟨held', ?_⟩
      rw [hal_runHal]
      exact h'
    · rw [hcode, if_pos (by decide), if_pos (by decide), hs']
      refine ⟨held, ?_⟩
      rw [free_alloc (s := { s with hal := r.2 }) hp]
      exact h'.congr h'.status h'.next h'.client rfl rfl rfl rfl rfl h'.nameShort

theorem Refines.updateLocal {old : Hal} (hr : Refines old held s t) (cfg : List CStr) :
    Refines old held (s.updateLocal cfg) (t.updateLocal cfg) := by
  have hsampled : t.sampled.status = t.status := rfl
  simp only [Stack.updateLocal, Sys.updateLocal, hr.status, hsampled]
  split
  · refine hr.congr rfl hr.next hr.client rfl rfl rfl rfl rfl fun i => ?_
    simp only
    split
    · refine lt_of_le_of_lt (List.length_take_le _ _) ?_
      decide
    · exact hr.nameShort i
  · exact hr.congr hr.status hr.next hr.client rfl rfl rfl rfl rfl hr.nameShort

end

/-! ## Runs -/

theorem refines_initial (client : σ) :
    Refines ({} : Hal) [] ({ client := client } : Stack σ) ({ client := client } : Sys σ ω) where
  status := rfl
  next := rfl
  client := rfl
  outstanding := rfl
  heap := Handles.lists_empty
  nodup := List.nodup_nil
  nonnull h hh := nomatch hh
  fault := rfl
  inv := inv_initial
  calledOnce := rfl
  calls := rfl
  grows := List.suffix_rfl
  open_iff id := by simp
  recorded h hh := nomatch hh
  serviceShort h hh := nomatch hh
  nameShort i := by
    show 0 < serviceNameMaxLen
    decide

/-- The completions of a run of callbacks are events of `Sys`. -/
theorem deliverAll_eq_run (cfg : List CStr) (t : Sys σ ω) (completions : List (ℕ × Answer)) :
    t.deliverAll completions =
      Runs.run (Sys.step cfg) t (completions.map fun c => .complete c.1 c.2) := by
  rw [Sys.deliverAll, Runs.run, List.foldl_map]
  rfl

/-- **One event** of the stack is a few events of `Sys`. -/
theorem Refines.step (m : Malloc σ) (cfg : List CStr) {held : List (Held σ)} {s : Stack σ}
    {t : Sys σ ω} (hr : Refines s.hal held s t) (e : Event σ) :
    ∃ (es : List (Sys.Event σ)) (held' : List (Held σ)),
      Refines (step m cfg s e).hal held' (step m cfg s e) (Runs.run (Sys.step cfg) t es) := by
  have hrun : ∀ (hal : Hal) (nowMs : ℕ → UInt64), Mute s.hal hal → Inv hal →
      ∃ (es : List (Sys.Event σ)) (held' : List (Held σ)),
        Refines (s.runHal hal nowMs).hal held' (s.runHal hal nowMs)
          (Runs.run (Sys.step cfg) t es) := by
    intro hal nowMs hm hinv
    obtain ⟨completions, held', h'⟩ := hr.runHal hm hinv nowMs
    rw [deliverAll_eq_run cfg] at h'
    exact ⟨_, held', by rw [hal_runHal]; exact h'⟩
  cases e with
  | init env => exact hrun _ _ (mute_realInit _ _) (step_refines hr.inv (.init env.conn)).1
  | cleanup => exact hrun _ _ (mute_realCleanup _) (step_refines hr.inv .cleanup).1
  | updateLocal =>
    refine ⟨[.updateLocal], held, ?_⟩
    have hhal : (s.updateLocal cfg).hal = s.hal := by
      simp only [Stack.updateLocal]
      split <;> rfl
    rw [Stack.step, hhal]
    exact hr.updateLocal cfg
  | queryServices nowMs env =>
    obtain ⟨env', held', h'⟩ := hr.queryLoop (m := m) nowMs env
      (l := List.range s.status.serviceCount) List.nodup_range 0 0
    refine ⟨[.queryServices nowMs env'], held', ?_⟩
    rw [Runs.run_cons, Runs.run_nil, Sys.step, Sys.queryServices, hr.status]
    exact h'
  | controlService index start cb env =>
    obtain ⟨env', held', h'⟩ := hr.controlService (m := m) index start cb env
    exact ⟨[.controlService index start cb env'], held', h'⟩
  | data i msg => exact hrun _ _ (mute_dispatchData _ i msg) (step_refines hr.inv (.data i msg)).1
  | complete i ret nowMs =>
    exact hrun _ _ (mute_dispatchComplete _ i ret) (step_refines hr.inv (.complete i ret)).1
  | expire i time nowMs =>
    exact hrun _ _ (mute_dispatchTimeout _ i time) (step_refines hr.inv (.expire i time)).1

/-- A run of the stack is matched by a run of `Sys`. -/
theorem refines_after (m : Malloc σ) (cfg : List CStr) (client : σ) (es : List (Event σ)) :
    ∃ (es' : List (Sys.Event σ)) (held : List (Held σ)),
      Refines (after m cfg client es).hal held (after m cfg client es)
        (Sys.after cfg client es' : Sys σ ω) := by
  have hrun : ∀ (es : List (Event σ)) (s : Stack σ) (es₀ : List (Sys.Event σ)) (held : List (Held σ)),
      Refines s.hal held s (Sys.after cfg client es₀ : Sys σ ω) →
      ∃ (es' : List (Sys.Event σ)) (held' : List (Held σ)),
        Refines (Runs.run (step m cfg) s es).hal held' (Runs.run (step m cfg) s es)
          (Sys.after cfg client es' : Sys σ ω) := by
    intro es
    induction es with
    | nil => exact fun s es₀ held hr => ⟨es₀, held, hr⟩
    | cons e es ih =>
      intro s es₀ held hr
      obtain ⟨es₁, held₁, h₁⟩ := hr.step m cfg e
      rw [← Runs.run_append] at h₁
      exact ih _ _ _ h₁
  exact hrun es _ [] [] (refines_initial client)

end Stack

end NanoHat
