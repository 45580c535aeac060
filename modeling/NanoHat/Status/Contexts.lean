import NanoHat.Status.StackRefines

/-!
# Service requests in the program

What the relation of `StackRefines` says of the program. `simulated_after` carries every result
about `sys_status.c` over an arbitrary HAL to the real one. `contextsOk_after` is the memory safety
of the request contexts: none is used after its release or released twice, and the allocated ones
are those of the waiting slots, and those that `real_cleanup` dropped, which nobody releases.
`pendingSlots_after` finds behind every pending service a slot whose timer will end the wait.
-/

namespace NanoHat.Stack

open UbusHal UbusReal Runs

variable {σ ω : Type*}

/-! ## The real HAL as a HAL -/

/-- A state of `Sys` that agrees with the stack. -/
structure Simulates (t : Sys σ ω) (s : Stack σ) : Prop where
  status : t.status = s.status
  next : t.nextRequestId = s.nextRequestId
  client : t.client = s.client
  calls : t.calls = s.hal.calls
  /-- The outstanding requests are the calls that are accepted and not called back. -/
  outstanding : ∀ id, id ∈ t.outstanding.map HalRequest.call ↔ Open s.hal id

/-- **The real HAL is a HAL.** Whatever libubus, uloop, `malloc` and the clocks do, the program
reaches the states that `sys_status.c` reaches over some HAL that keeps the contract. -/
theorem simulated_after (m : Malloc σ) (cfg : List CStr) (client : σ) (es : List (Event σ)) :
    ∃ es' : List (Sys.Event σ),
      Simulates (Sys.after cfg client es' : Sys σ ω) (after m cfg client es) := by
  obtain ⟨es', held, hr⟩ := refines_after (ω := ω) m cfg client es
  refine ⟨es', hr.status, hr.next, hr.client, hr.calls, fun id => ?_⟩
  rw [hr.outstanding, List.map_map]
  exact hr.open_iff id

/-! ## Contexts -/

section

variable {held : List (Held σ)} {s : Stack σ} {t : Sys σ ω}

/-- The request of an open call. -/
theorem Refines.held_of_open (hr : Refines s.hal held s t) {id : ℕ} (hid : Open s.hal id) :
    ∃ h ∈ held, h.call = id := List.mem_map.1 ((hr.open_iff id).2 hid)

theorem Refines.open_of_held (hr : Refines s.hal held s t) {h : Held σ} (hh : h ∈ held) :
    Open s.hal h.call := (hr.open_iff h.call).1 (List.mem_map_of_mem hh)

/-- The block of a held request. -/
theorem Refines.allocated (hr : Refines s.hal held s t) {h : Held σ} (hh : h ∈ held) :
    s.heap h.ptr = some h.ctx :=
  (hr.heap.mem_iff _ _).2 (List.mem_map_of_mem (f := Held.block) hh)

/-- Every block belongs to a held request. -/
theorem Refines.held_of_allocated (hr : Refines s.hal held s t) {p : Ptr} {ctx : RequestCtx σ}
    (hp : s.heap p = some ctx) : ∃ h ∈ held, h.ptr = p ∧ h.ctx = ctx := by
  obtain ⟨h, hh, hblock⟩ := List.mem_map.1 ((hr.heap.mem_iff p ctx).1 hp)
  exact ⟨h, hh, (Prod.mk.inj hblock).1, (Prod.mk.inj hblock).2⟩

/-- Two held requests have different blocks. -/
theorem Refines.ptr_inj (hr : Refines s.hal held s t) {h h' : Held σ} (hh : h ∈ held)
    (hh' : h' ∈ held) (heq : h.ptr = h'.ptr) : h = h' := by
  have hnodup := hr.heap.nodup
  rw [List.map_map] at hnodup
  exact List.inj_on_of_nodup_map hnodup hh hh' heq

/-- A waiting slot has what its request says. -/
theorem Refines.slot_eq (hr : Refines s.hal held s t) {k : Slot} (hw : (s.hal.pending k).Waiting) :
    ∃ h ∈ held, h.call = (s.hal.pending k).call ∧ h.ctx.type = (s.hal.pending k).type ∧
      h.service = (s.hal.pending k).service ∧ h.ptr = (s.hal.pending k).priv := by
  obtain ⟨hret, hid, -⟩ := (hr.inv.clientPromise.waiting _).2 ⟨k, hw, rfl⟩
  obtain ⟨h, hh, hcall⟩ := hr.held_of_open ⟨hret, hid⟩
  obtain ⟨name, hcalled, hservice⟩ := hr.inv.mid.filled k hw.1
  have hrecord := hr.recorded h hh
  rw [Held.record, hcall] at hrecord
  obtain ⟨htype, hname, -, hptr⟩ := hr.calledOnce.unique hrecord hcalled
  have hshort : strncpy 32 h.service = h.service :=
    List.take_of_length_le (Nat.le_of_lt_succ (hr.serviceShort h hh))
  obtain rfl := Option.some.inj hname
  exact ⟨h, hh, hcall, htype, by rw [hservice, hshort], hptr⟩

/-- A call that `real_cleanup` dropped is never called back. -/
theorem open_of_abandoned {hal : Hal} (h : Inv hal) {id : ℕ} (hid : .abandoned id ∈ hal.trace) :
    Open hal id := by
  have hclosed := mem_closed_abandoned.2 hid
  have hlt : id < hal.calls :=
    (h.sound.cover id).2 (Or.inr (List.mem_map_of_mem (f := Prod.fst) hclosed))
  refine ⟨(h.returned_iff id).2 ⟨hlt, fun hrefused => ?_⟩, fun hcalled => ?_⟩
  · exact absurd (h.sound.fate_unique hclosed (mem_closed_refused.2 hrefused)) (by decide)
  · exact absurd (h.sound.fate_unique hclosed (mem_closed_answered.2 hcalled)) (by decide)

/-- An open call waits in a slot, unless it was dropped. -/
theorem Refines.waits (hr : Refines s.hal held s t) {id : ℕ} (hid : Open s.hal id) :
    (∃ k, (s.hal.pending k).Waiting ∧ (s.hal.pending k).call = id) ∨
      .abandoned id ∈ s.hal.trace := by
  by_cases ha : .abandoned id ∈ s.hal.trace
  · exact Or.inr ha
  · exact Or.inl ((hr.inv.clientPromise.waiting id).1 ⟨hid.1, hid.2, ha⟩)

end

/-- The state of the contexts. -/
structure ContextsOk (s : Stack σ) : Prop where
  /-- No callback used a released context or took one for another kind, and no context was
  released twice. -/
  fault : s.fault = false
  /-- The context of an accepted call is allocated until the call is called back. -/
  kept : ∀ id type name cb priv, Open s.hal id → .called id type name cb priv ∈ s.hal.trace →
    ∃ ctx, s.heap priv = some ctx ∧ ctx.type = type
  /-- An allocated context belongs to one such call. -/
  owned : ∀ p, s.heap p ≠ none →
    ∃! id, Open s.hal id ∧ ∃ type name cb, .called id type name cb p ∈ s.hal.trace
  /-- The allocated contexts are those of the waiting slots and of the calls that `real_cleanup`
  dropped. -/
  allocated_iff : ∀ p, s.heap p ≠ none ↔
    (∃ k, (s.hal.pending k).Waiting ∧ (s.hal.pending k).priv = p) ∨
      ∃ id type name cb, .abandoned id ∈ s.hal.trace ∧ .called id type name cb p ∈ s.hal.trace

theorem Refines.contextsOk {held : List (Held σ)} {s : Stack σ} {t : Sys σ ω}
    (hr : Refines s.hal held s t) : ContextsOk s where
  fault := hr.fault
  kept id type name cb priv hid hcalled := by
    obtain ⟨h, hh, rfl⟩ := hr.held_of_open hid
    obtain ⟨rfl, -, -, rfl⟩ := hr.calledOnce.unique hcalled (hr.recorded h hh)
    exact ⟨h.ctx, hr.allocated hh, rfl⟩
  owned p hp := by
    obtain ⟨ctx, hctx⟩ := Option.ne_none_iff_exists'.1 hp
    obtain ⟨h, hh, rfl, -⟩ := hr.held_of_allocated hctx
    refine ⟨h.call, ⟨hr.open_of_held hh, _, _, _, hr.recorded h hh⟩, ?_⟩
    rintro id ⟨hid, type, name, cb, hcalled⟩
    obtain ⟨h', hh', rfl⟩ := hr.held_of_open hid
    obtain ⟨-, -, -, hptr⟩ := hr.calledOnce.unique hcalled (hr.recorded h' hh')
    rw [hr.ptr_inj hh' hh hptr.symm]
  allocated_iff p := by
    constructor
    · intro hp
      obtain ⟨ctx, hctx⟩ := Option.ne_none_iff_exists'.1 hp
      obtain ⟨h, hh, rfl, -⟩ := hr.held_of_allocated hctx
      rcases hr.waits (hr.open_of_held hh) with ⟨k, hw, hcall⟩ | ha
      · obtain ⟨h', hh', hcall', -, -, hptr⟩ := hr.slot_eq hw
        obtain rfl := List.inj_on_of_nodup_map hr.nodup hh' hh (hcall'.trans hcall)
        exact Or.inl ⟨k, hw, hptr.symm⟩
      · exact Or.inr ⟨h.call, _, _, _, ha, hr.recorded h hh⟩
    · rintro (⟨k, hw, rfl⟩ | ⟨id, type, name, cb, ha, hcalled⟩)
      · obtain ⟨h, hh, -, -, -, hptr⟩ := hr.slot_eq hw
        rw [← hptr, hr.allocated hh]
        exact Option.some_ne_none _
      · obtain ⟨h, hh, rfl⟩ := hr.held_of_open (open_of_abandoned hr.inv ha)
        obtain ⟨-, -, -, rfl⟩ := hr.calledOnce.unique hcalled (hr.recorded h hh)
        rw [hr.allocated hh]
        exact Option.some_ne_none _

/-- **Memory safety of the contexts**, in every run. -/
theorem contextsOk_after (m : Malloc σ) (cfg : List CStr) (client : σ) (es : List (Event σ)) :
    ContextsOk (after m cfg client es) := by
  obtain ⟨_, held, hr⟩ := refines_after (ω := Unit) m cfg client es
  exact hr.contextsOk

/-! ## Pending services -/

/-- Call `id` is an open query for entry `i`. -/
def OpenQuery (s : Stack σ) (i id : ℕ) : Prop :=
  Open s.hal id ∧
    ∃ cb priv, .called id .query (some (s.status.services i).name) cb priv ∈ s.hal.trace

/-- Slot `k` waits for the answer to a query for entry `i`. -/
def AsksFor (s : Stack σ) (k : Slot) (i : ℕ) : Prop :=
  (s.hal.pending k).Waiting ∧ (s.hal.pending k).type = .query ∧
    (s.hal.pending k).service = (s.status.services i).name

/-- `real_cleanup` dropped a query for entry `i`. -/
def Dropped (s : Stack σ) (i : ℕ) : Prop :=
  ∃ id cb priv, .abandoned id ∈ s.hal.trace ∧
    .called id .query (some (s.status.services i).name) cb priv ∈ s.hal.trace

section

variable {held : List (Held σ)} {s : Stack σ} {t : Sys σ ω}

/-- An open query is a request that `Sys` counts. -/
theorem Refines.openQuery_iff (hr : Refines s.hal held s t) (hq : Sys.QInv none t) {i : ℕ}
    (hi : i < s.status.serviceCount) (id : ℕ) :
    OpenQuery s i id ↔ ∃ r ∈ t.outstanding, Sys.isQueryFor i r = true ∧ r.call = id := by
  constructor
  · rintro ⟨hid, cb, priv, hcalled⟩
    obtain ⟨h, hh, rfl⟩ := hr.held_of_open hid
    obtain ⟨htype, hservice, -, -⟩ := hr.calledOnce.unique hcalled (hr.recorded h hh)
    have hmem : h.request ∈ t.outstanding := hr.outstanding ▸ List.mem_map_of_mem hh
    refine ⟨h.request, hmem, ?_, rfl⟩
    cases hctx : h.ctx with
    | query requestId k =>
      obtain ⟨hk, hname, -⟩ := hq.fits _ hmem requestId k hctx
      have heq : (t.status.services k).name = (t.status.services i).name := by
        rw [← hname, hr.status]
        exact (Option.some.inj hservice).symm
      rw [Sys.isQueryFor_query hctx, decide_eq_true_eq]
      exact hq.distinct k i hk (hr.status ▸ hi) heq
    | control index start cb =>
      rw [hctx] at htype
      cases htype
  · rintro ⟨r, hrm, hquery, rfl⟩
    obtain ⟨h, hh, rfl⟩ := List.mem_map.1 (hr.outstanding ▸ hrm)
    cases hctx : h.ctx with
    | query requestId k =>
      rw [Sys.isQueryFor_query hctx, decide_eq_true_eq] at hquery
      subst hquery
      obtain ⟨-, hname, -⟩ := hq.fits _ hrm requestId k hctx
      refine ⟨hr.open_of_held hh, h.ctx.cbPtr, h.ptr, ?_⟩
      rw [← hr.status, ← hname]
      have hrecord := hr.recorded h hh
      rw [Held.record, hctx] at hrecord
      rw [hctx]
      exact hrecord
    | control index start cb => simp [Sys.isQueryFor, Held.request, hctx] at hquery

/-- **An entry is pending** as long as one query for it is open; there is never more than one. -/
theorem Refines.pending_iff (hr : Refines s.hal held s t) (hq : Sys.QInv none t) {i : ℕ}
    (hi : i < s.status.serviceCount) :
    ((s.status.services i).queryPending = true ↔ ∃ id, OpenQuery s i id) ∧
      ∀ id id', OpenQuery s i id → OpenQuery s i id' → id = id' := by
  have hcount := hq.pending i (by simp) (hr.status ▸ hi)
  rw [Sys.queriesFor, hr.status] at hcount
  have hle := Bool.toNat_le (s.status.services i).queryPending
  refine ⟨?_, fun id id' h h' => ?_⟩
  · have hpos : (s.status.services i).queryPending = true ↔
        0 < t.outstanding.countP (Sys.isQueryFor i) := by
      rw [hcount]
      cases (s.status.services i).queryPending <;> simp
    rw [hpos, List.countP_pos_iff]
    constructor
    · rintro ⟨r, hrm, hquery⟩
      exact ⟨r.call, (hr.openQuery_iff hq hi _).2 ⟨r, hrm, hquery, rfl⟩⟩
    · rintro ⟨id, h⟩
      obtain ⟨r, hrm, hquery, -⟩ := (hr.openQuery_iff hq hi id).1 h
      exact ⟨r, hrm, hquery⟩
  · obtain ⟨r, hrm, hquery, rfl⟩ := (hr.openQuery_iff hq hi id).1 h
    obtain ⟨r', hrm', hquery', rfl⟩ := (hr.openQuery_iff hq hi id').1 h'
    rw [List.countP_eq_length_filter] at hcount
    have hone : (t.outstanding.filter (Sys.isQueryFor i)).length ≤ 1 := by omega
    have hmem := List.mem_filter.2 ⟨hrm, hquery⟩
    have hmem' := List.mem_filter.2 ⟨hrm', hquery'⟩
    generalize t.outstanding.filter (Sys.isQueryFor i) = l at hone hmem hmem'
    cases l with
    | nil => cases hmem
    | cons x l =>
      obtain rfl : l = [] := List.length_eq_zero_iff.1 (Nat.le_zero.1 (Nat.le_of_succ_le_succ hone))
      rw [List.mem_singleton.1 hmem, List.mem_singleton.1 hmem']

/-- A waiting slot that asks for an entry is an open query for it. -/
theorem Refines.openQuery_of_asksFor (hr : Refines s.hal held s t) {k : Slot} {i : ℕ}
    (h : AsksFor s k i) : OpenQuery s i (s.hal.pending k).call := by
  obtain ⟨hw, htype, hservice⟩ := h
  obtain ⟨h, hh, hcall, htype', hservice', -⟩ := hr.slot_eq hw
  refine ⟨hcall ▸ hr.open_of_held hh, h.ctx.cbPtr, h.ptr, ?_⟩
  rw [← hservice, ← hservice', ← htype, ← htype', ← hcall]
  exact hr.recorded h hh

theorem Refines.exists_openQuery_iff (hr : Refines s.hal held s t) (i : ℕ) :
    (∃ id, OpenQuery s i id) ↔ (∃ k, AsksFor s k i) ∨ Dropped s i := by
  constructor
  · rintro ⟨id, hid, cb, priv, hcalled⟩
    rcases hr.waits hid with ⟨k, hw, rfl⟩ | ha
    · obtain ⟨h, hh, hcall, htype, hservice, -⟩ := hr.slot_eq hw
      rw [← hcall] at hcalled
      obtain ⟨htype', hservice', -, -⟩ := hr.calledOnce.unique hcalled (hr.recorded h hh)
      exact Or.inl ⟨k, hw, by rw [← htype, ← htype'], by
        rw [← hservice, ← Option.some.inj hservice']⟩
    · exact Or.inr ⟨id, cb, priv, ha, hcalled⟩
  · rintro (⟨k, hk⟩ | ⟨id, cb, priv, ha, hcalled⟩)
    · exact ⟨_, hr.openQuery_of_asksFor hk⟩
    · exact ⟨id, open_of_abandoned hr.inv ha, cb, priv, hcalled⟩

/-- Without calls, no query is opened. -/
theorem openQuery_of_mute {s s' : Stack σ} (hm : Mute s.hal s'.hal) {i id : ℕ}
    (hname : (s'.status.services i).name = (s.status.services i).name) (h : OpenQuery s' i id) :
    OpenQuery s i id := by
  obtain ⟨⟨hret, hid⟩, cb, priv, hcalled⟩ := h
  rw [hname] at hcalled
  refine ⟨⟨(hm.returned_iff id 0).1 hret, fun hold => hid ?_⟩, cb, priv, ?_⟩
  · obtain ⟨os, ht, -⟩ := hm
    rw [ht, callbackIds_append]
    exact List.mem_append_right _ hold
  · obtain ⟨os, ht, ho⟩ := hm
    rw [ht, List.mem_append] at hcalled
    exact hcalled.resolve_left fun hos => nomatch ho _ hos

/-- The timer of a slot that asks for an entry ends the wait. -/
theorem Refines.expired (hr : Refines s.hal held s t) (hq : Sys.QInv none t) {i : ℕ}
    (hi : i < s.status.serviceCount) {k : Slot} (hk : AsksFor s k i) (time : ℤ)
    (nowMs : ℕ → UInt64) :
    ((s.runHal (s.hal.dispatchTimeout k time) nowMs).status.services i).queryPending = false := by
  have hm := mute_dispatchTimeout s.hal k time
  obtain ⟨completions, held', hr'⟩ :=
    hr.runHal hm (step_refines hr.inv (.expire k time)).1 nowMs
  have hsame := Sys.same_deliverAll t completions
  have hhal := hal_runHal s (s.hal.dispatchTimeout k time) nowMs
  set s' := s.runHal (s.hal.dispatchTimeout k time) nowMs
  rw [← hhal] at hr' hm
  have hi' : i < s'.status.serviceCount := by
    rw [← hr'.status, hsame.count, hr.status]
    exact hi
  have hname : (s'.status.services i).name = (s.status.services i).name := by
    rw [← hr'.status, hsame.name, hr.status]
  by_contra hpending
  obtain ⟨id, hid⟩ := (hr'.pending_iff (hq.deliverAll completions) hi').1.1 (by simpa using hpending)
  have hcall : id = (s.hal.pending k).call := (hr.pending_iff hq hi).2 _ _
    (openQuery_of_mute hm hname hid) (hr.openQuery_of_asksFor hk)
  refine hid.1.2 ?_
  rw [hhal, hcall]
  exact mem_callbackIds_dispatchTimeout hr.inv hk.1 time

end

/-- What stands behind the pending services. -/
structure PendingSlots (m : Malloc σ) (cfg : List CStr) (s : Stack σ) : Prop where
  /-- A service is pending if and only if a slot of the HAL waits for its answer, or `real_cleanup`
  dropped its query. -/
  pending_iff : ∀ i < s.status.serviceCount,
    (s.status.services i).queryPending = true ↔ (∃ k, AsksFor s k i) ∨ Dropped s i
  /-- It is one slot. -/
  one : ∀ i < s.status.serviceCount, ∀ k l, AsksFor s k i → AsksFor s l i → k = l
  /-- The timer of the slot is armed, and its expiry ends the wait. -/
  timer : ∀ i < s.status.serviceCount, ∀ k, AsksFor s k i →
    (s.hal.pending k).timeoutArmed = true ∧ ∀ time nowMs,
      ((step m cfg s (.expire k time nowMs)).status.services i).queryPending = false

/-- **No service is pending without a slot and its timer**, for every list of services without
repeated names. -/
theorem pendingSlots_after {servicesStr : CStr} (h : (serviceConfigInit servicesStr).Nodup)
    (m : Malloc σ) (client : σ) (es : List (Event σ)) :
    PendingSlots m (serviceConfigInit servicesStr)
      (after m (serviceConfigInit servicesStr) client es) := by
  obtain ⟨es', held, hr⟩ := refines_after (ω := Unit) m (serviceConfigInit servicesStr) client es
  have hq := Sys.qInv_after (ω := Unit) h
    (fun _ hm => ((ServiceConfig.valid_serviceConfigInit servicesStr).name _ hm).2) client es'
  refine ⟨fun i hi => ?_, fun i hi k l hk hl => ?_, fun i hi k hk => ⟨?_, fun time nowMs => ?_⟩⟩
  · rw [(hr.pending_iff hq hi).1, hr.exists_openQuery_iff]
  · exact hr.inv.clientPromise.oneSlot k l hk.1 hl.1
      ((hr.pending_iff hq hi).2 _ _ (hr.openQuery_of_asksFor hk) (hr.openQuery_of_asksFor hl))
  · exact (hr.inv.clientPromise.armed k hk.1).1
  · exact hr.expired hq hi hk time nowMs

/-- Two services, both asked for. -/
def twoQueries : List (Event Unit) :=
  [.init {}, .updateLocal,
    .queryServices 10000 fun i => { seed := i + 1, conn := { lookup := [.rcId 1] } }]

theorem pendingSlots_two :
    AsksFor (after (Malloc.atSeed Unit) (serviceConfigInit ['a', ',', 'b']) () twoQueries) 1 1 ∧
      PendingSlots (Malloc.atSeed Unit) (serviceConfigInit ['a', ',', 'b'])
        (after (Malloc.atSeed Unit) (serviceConfigInit ['a', ',', 'b']) () twoQueries) := by
  refine ⟨?_, pendingSlots_after (by decide) (Malloc.atSeed Unit) () twoQueries⟩
  rw [show serviceConfigInit ['a', ',', 'b'] = [['a'], ['b']] by decide]
  exact ⟨⟨by rfl, by rfl⟩, by rfl, by rfl⟩

end NanoHat.Stack
