import NanoHat.Hal.UbusRealSlots

/-!
# Calls of the real ubus HAL

The entry points of `ubus_hal_real.c` over the states of `UbusRealSlots`: a call is refused, or
accepted and then answered at once, or left in an armed slot. `Inv` is the invariant at every
return to the event loop, `step_refines` says that every event keeps it and amounts to steps of
the ledger of one-shot obligations, and `callbacks_after` reads off what a client of the HAL is
promised.
-/

namespace NanoHat.UbusReal

open UbusHal Runs PendingRequest

/-! ## Slots at rest -/

/-- Writing a resting slot over a resting slot. -/
theorem Mid.rest {s : Hal} {extra : Set ℕ} (h : Mid none extra s) {i : Slot}
    (hi : ¬(s.pending i).Armed) {p : PendingRequest} (hp : p.Idle) :
    Mid none extra (s.setSlot i p) ∧ ledger extra (s.setSlot i p) = ledger extra s := by
  have harmed : ∀ j, ((s.setSlot i p).pending j).Armed ↔ (s.pending j).Armed := fun j => by
    by_cases hji : j = i
    · subst hji
      rw [setSlot_self]
      exact ⟨fun ha => absurd ha hp.not_armed, fun ha => absurd ha hi⟩
    · rw [setSlot_ne _ _ hji]
  have hcall : ∀ j, (s.pending j).Armed →
      ((s.setSlot i p).pending j).call = (s.pending j).call := fun j hj => by
    have hji : j ≠ i := fun he => hi (he ▸ hj)
    rw [setSlot_ne _ _ hji]
  refine ⟨⟨fun j _ => ?_, fun j hj => by simp at hj, fun j hj => h.ctx j ((harmed j).1 hj),
    fun j k hj hk he => ?_, fun j hj => ?_, fun j hj => ?_, h.answers⟩, ?_⟩
  · by_cases hji : j = i
    · subst hji; rw [setSlot_self]; exact Or.inl hp
    · rw [setSlot_ne _ _ hji]; exact h.slots j (by simp)
  · rw [harmed] at hj hk
    rw [hcall j hj, hcall k hk] at he
    exact h.inj j k hj hk he
  · rw [harmed] at hj
    rw [hcall j hj]; exact h.fresh j hj
  · by_cases hji : j = i
    · subst hji; rw [setSlot_self, hp.1] at hj; simp at hj
    · rw [setSlot_ne _ _ hji] at hj ⊢; exact h.filled j hj
  · refine Ledger.ext rfl ?_ rfl
    ext k
    simp only [ledger, openCalls, Set.mem_ofPred_eq]
    constructor
    · rintro (hk | ⟨j, hj, rfl⟩)
      · exact Or.inl hk
      · exact Or.inr ⟨j, (harmed j).1 hj, (hcall j ((harmed j).1 hj)).symm⟩
    · rintro (hk | ⟨j, hj, rfl⟩)
      · exact Or.inl hk
      · exact Or.inr ⟨j, (harmed j).2 hj, hcall j hj⟩

/-- Handing the call in hand over to a slot, armed for it. -/
theorem Mid.arm {s : Hal} {k : ℕ} (h : Mid none {k} s) {i : Slot} (hi : ¬(s.pending i).Armed)
    {p : PendingRequest} (hp : p.Armed) (hk : p.call = k) (hf : FilledFrom p s.trace)
    (hctx : s.ctx = true) :
    Mid none ∅ (s.setSlot i p) ∧ ledger ∅ (s.setSlot i p) = ledger {k} s := by
  have harmed : ∀ j, j ≠ i → (((s.setSlot i p).pending j).Armed ↔ (s.pending j).Armed) :=
    fun j hji => by rw [setSlot_ne _ _ hji]
  have hcall : ∀ j, j ≠ i → ((s.setSlot i p).pending j).call = (s.pending j).call :=
    fun j hji => by rw [setSlot_ne _ _ hji]
  refine ⟨⟨fun j _ => ?_, fun j hj => by simp at hj, fun j _ => hctx, fun j l hj hl he => ?_,
    fun j _ => id, fun j hj => ?_, h.answers⟩, ?_⟩
  · by_cases hji : j = i
    · subst hji; rw [setSlot_self]; exact Or.inr hp
    · rw [setSlot_ne _ _ hji]; exact h.slots j (by simp)
  · by_cases hji : j = i
    · by_cases hli : l = i
      · rw [hji, hli]
      · subst hji
        rw [setSlot_self, hcall l hli, hk] at he
        exact absurd he.symm (h.fresh l ((harmed l hli).1 hl))
    · by_cases hli : l = i
      · subst hli
        rw [setSlot_self, hcall j hji, hk] at he
        exact absurd he (h.fresh j ((harmed j hji).1 hj))
      · rw [hcall j hji, hcall l hli] at he
        exact h.inj j l ((harmed j hji).1 hj) ((harmed l hli).1 hl) he
  · by_cases hji : j = i
    · subst hji; rw [setSlot_self]; exact hf
    · rw [setSlot_ne _ _ hji] at hj ⊢; exact h.filled j hj
  · refine Ledger.ext rfl ?_ rfl
    ext l
    simp only [ledger, openCalls, Set.mem_ofPred_eq, Set.mem_empty_iff_false, false_or,
      Set.mem_singleton_iff]
    constructor
    · rintro ⟨j, hj, rfl⟩
      by_cases hji : j = i
      · subst hji; rw [setSlot_self]; exact Or.inl hk
      · exact Or.inr ⟨j, (harmed j hji).1 hj, (hcall j hji).symm⟩
    · rintro (rfl | ⟨j, hj, rfl⟩)
      · exact ⟨i, by rwa [setSlot_self], by rw [setSlot_self, hk]⟩
      · have hji : j ≠ i := fun he => hi (he ▸ hj)
        exact ⟨j, (harmed j hji).2 hj, hcall j hji⟩

/-- Answering the call in hand at once. -/
theorem Mid.answer {s : Hal} {k : ℕ} (h : Mid none {k} s) {cb priv : Ptr} {c : Callback}
    (ha : Answers (.callback k cb priv c) s.trace) :
    let s' := s.log [.returned k 0, .callback k cb priv c]
    Mid none ∅ s' ∧ ledger ∅ s' = (ledger {k} s).close k .answered := by
  intro s'
  refine ⟨⟨h.slots, fun j hj => by simp at hj, h.ctx, h.inj, fun j _ => id,
    fun j hj => (h.filled j hj).mono _, ⟨trivial, ha, h.answers⟩⟩, Ledger.ext rfl ?_ rfl⟩
  ext l
  simp only [ledger, Ledger.close, openCalls, Set.mem_ofPred_eq, Set.mem_empty_iff_false, false_or,
    Set.mem_sdiff, Set.mem_singleton_iff]
  constructor
  · rintro ⟨j, hj, rfl⟩
    exact ⟨Or.inr ⟨j, hj, rfl⟩, fun he => h.fresh j hj he⟩
  · rintro ⟨rfl | hj, hl⟩
    · exact absurd rfl hl
    · exact hj

/-! ## The invariant -/

/-- The invariant at a return to the event loop. -/
structure Inv (s : Hal) : Prop where
  mid : Mid none ∅ s
  sound : (ledger ∅ s).Sound
  uninit : s.initialized = false → ∀ i, ¬(s.pending i).Armed
  returned : (s.trace.filterMap returnOf).map Prod.fst = (List.range s.calls).reverse
  codes : ∀ r ∈ s.trace.filterMap returnOf, r.2 = 0 ∨ r.2 = -1

theorem inv_initial : Inv {} where
  mid := ⟨fun _ _ => Or.inl idle_default, fun _ h => by simp at h,
    fun _ h => absurd h idle_default.not_armed, fun _ _ h => absurd h idle_default.not_armed,
    fun _ _ => id, fun _ h => by simp at h, trivial⟩
  sound := by
    have hempty : ledger ∅ ({} : Hal) = Ledger.empty := by
      refine Ledger.ext rfl (Set.eq_empty_iff_forall_notMem.2 fun k => ?_) rfl
      rintro (hk | ⟨i, hi, -⟩)
      · exact hk
      · exact idle_default.not_armed hi
    rw [hempty]; exact Ledger.sound_empty
  uninit _ _ := idle_default.not_armed
  returned := rfl
  codes _ h := by simp at h

/-- What neither returns nor changes `g_initialized` keeps the invariant. -/
theorem Inv.of_progress {s s' : Hal} (h : Inv s) (hm : Mid none ∅ s') (hp : Progress ∅ s s')
    (hu : s.initialized = false → ∀ i, ¬(s'.pending i).Armed) : Inv s' where
  mid := hm
  sound := h.sound.steps hp.steps
  uninit hi := hu (hp.initialized ▸ hi)
  returned := by rw [hp.returns, hp.calls]; exact h.returned
  codes := by rw [hp.returns]; exact h.codes

/-- **A call.** What a call amounts to at the return to the event loop: its number is given out,
its return code recorded, and the ledger makes steps. -/
structure CallSpec (s s' : Hal) (r : ℤ) : Prop where
  mid : Mid none ∅ s'
  steps : Ledger.Steps (ledger ∅ s) (ledger ∅ s')
  calls : s'.calls = s.calls + 1
  initialized : s'.initialized = s.initialized
  returns : s'.trace.filterMap returnOf = (s.calls, r) :: s.trace.filterMap returnOf
  code : r = 0 ∨ r = -1
  uninit : s.initialized = false → s'.pending = s.pending

theorem CallSpec.inv {s s' : Hal} {r : ℤ} (h : Inv s) (hc : CallSpec s s' r) : Inv s' where
  mid := hc.mid
  sound := h.sound.steps hc.steps
  uninit hi i := by
    rw [hc.initialized] at hi
    rw [hc.uninit hi]; exact h.uninit hi i
  returned := by
    rw [hc.returns, hc.calls, List.range_succ, List.reverse_append, List.map_cons, h.returned]
    rfl
  codes := by
    rw [hc.returns]
    rintro r (_ | ⟨_, hr⟩)
    · exact hc.code
    · exact h.codes _ hr

/-- The state in which a call starts to work: the call is in hand. -/
theorem Inv.called {s : Hal} (h : Inv s) (type : RequestType) (name : Option CStr)
    (cb priv : Ptr) :
    let s₀ := { s with calls := s.calls + 1 }.log [.called s.calls type name cb priv]
    Mid none {s.calls} s₀ ∧ ledger {s.calls} s₀ = (ledger ∅ s).accept := by
  intro s₀
  refine ⟨⟨h.mid.slots, fun i hi => by simp at hi, h.mid.ctx, h.mid.inj, fun i hi he => ?_,
    fun i hi => (h.mid.filled i hi).mono _, ⟨trivial, h.mid.answers⟩⟩, Ledger.ext rfl ?_ rfl⟩
  · have hlt := h.sound.lt_of_pending (k := (s.pending i).call) (Or.inr ⟨i, hi, rfl⟩)
    exact absurd he (Nat.ne_of_lt hlt)
  · ext k
    simp only [ledger, Ledger.accept, openCalls, Set.mem_ofPred_eq, Set.mem_insert_iff,
      Set.mem_singleton_iff, Set.mem_empty_iff_false, false_or]
    exact Iff.rfl

/-- A refused call. -/
theorem Inv.refused {s : Hal} (h : Inv s) (type : RequestType) (name : Option CStr)
    (cb priv : Ptr) :
    CallSpec s (({ s with calls := s.calls + 1 }.log [.called s.calls type name cb priv]).log
      [.returned s.calls (-1)]) (-1) where
  mid := ⟨h.mid.slots, fun i hi => by simp at hi, h.mid.ctx, h.mid.inj, fun _ _ => id,
    fun i hi => ((h.mid.filled i hi).mono [_]).mono [_], ⟨trivial, trivial, h.mid.answers⟩⟩
  steps := by
    have hr : ledger ∅ (({ s with calls := s.calls + 1 }.log
        [.called s.calls type name cb priv]).log [.returned s.calls (-1)]) =
        (ledger ∅ s).refuse := Ledger.ext rfl rfl rfl
    rw [hr]; exact .single .refuse
  calls := rfl
  initialized := rfl
  returns := rfl
  code := Or.inr rfl
  uninit _ := rfl

/-- `ensure_rc_id` succeeds only with a connection. -/
theorem ctx_of_ensureContext {s : Hal} {env : ConnEnv} (h : ¬(s.ensureContext env).1 < 0) :
    (s.ensureContext env).2.ctx = true := by
  simp only [Hal.ensureContext] at h ⊢
  split
  · assumption
  · rename_i hctx
    rw [if_neg hctx] at h
    split
    · rename_i hback
      rw [if_pos hback] at h
      exact absurd (show (-1 : ℤ) < 0 by decide) h
    · rename_i hback
      rw [if_neg hback] at h
      split
      · rfl
      · rename_i hok
        rw [if_neg hok] at h
        exact absurd (show (-1 : ℤ) < 0 by decide) h

theorem ctx_queryCompleteCb (s : Hal) (i : Slot) (ret : UbusStatus) :
    (s.queryCompleteCb i ret).ctx = s.ctx := by
  simp only [Hal.queryCompleteCb]
  split
  · rfl
  · cases ret <;> rfl

theorem ctx_lookupStep (s : Hal) (e : LookupEvent) : (s.lookupStep e).ctx = s.ctx := by
  cases e with
  | data i msg =>
    simp only [Hal.lookupStep, Hal.dispatchData]
    split
    · cases msg with
      | none => rfl
      | some attrs => simp only [Hal.queryDataCb]; split <;> rfl
    · rfl
  | complete i ret =>
    simp only [Hal.lookupStep, Hal.dispatchComplete]
    split
    · rw [ctx_queryCompleteCb]; rfl
    · rfl
  | rcId id => rfl

theorem ctx_of_ensureRcId {s : Hal} {env : ConnEnv} (h : ¬(s.ensureRcId env).1 < 0) :
    (s.ensureRcId env).2.ctx = true := by
  simp only [Hal.ensureRcId] at h ⊢
  split
  · rename_i hneg; rw [if_pos hneg] at h; exact absurd (show (-1 : ℤ) < 0 by decide) h
  rename_i hneg
  have hctx := ctx_of_ensureContext hneg
  rw [if_neg hneg] at h
  split
  · exact hctx
  rename_i hrc
  rw [if_neg hrc] at h
  split
  · rename_i hret; rw [if_pos hret] at h; exact absurd (show (-1 : ℤ) < 0 by decide) h
  · have hfold : ∀ (l : List LookupEvent) (s : Hal),
        (l.foldl Hal.lookupStep s).ctx = s.ctx := fun l => by
      induction l with
      | nil => exact fun _ => rfl
      | cons e l ih => exact fun s => (ih _).trans (ctx_lookupStep s e)
    exact (hfold _ _).trans hctx

/-! ## The two operations -/

/-- What `serviceAsync` is told about a kind of request: `fill` touches the answer fields only, and
`fail` addresses the caller. -/
structure CallShape (type : RequestType) (fill : PendingRequest → PendingRequest)
    (fail : CStr → ℤ → Callback) : Prop where
  fill : ∀ p, ∃ installed running startOp, fill p =
    { p with installed := installed, running := running, startOp := startOp }
  failType : ∀ name status, (fail name status).type = type
  failService : ∀ name status, (fail name status).service = name

/-- A call that is in hand in state `s₁`, since state `s`: it is neither refused nor answered, and
no slot has it. -/
structure InHand (s : Hal) (type : RequestType) (name : CStr) (cb priv : Ptr) (s₁ : Hal) : Prop where
  mid : Mid none {s.calls} s₁
  accepted : Ledger.Steps (ledger ∅ s) (ledger {s.calls} s₁)
  called : .called s.calls type (some name) cb priv ∈ s₁.trace
  calls : s₁.calls = s.calls + 1
  initialized : s₁.initialized = s.initialized
  returns : s₁.trace.filterMap returnOf = s.trace.filterMap returnOf
  init : s.initialized = true

section

variable {s s₁ : Hal} {type : RequestType} {name : CStr} {cb priv : Ptr}

/-- The call is in hand when `ensure_rc_id` returns. -/
theorem Inv.inHand (h : Inv s) (hinit : s.initialized = true) (type : RequestType) (name : CStr)
    (cb priv : Ptr) (env : ConnEnv) :
    InHand s type name cb priv (({ s with calls := s.calls + 1 }.log
      [.called s.calls type (some name) cb priv]).ensureRcId env).2 := by
  obtain ⟨h₀, hl₀⟩ := h.called type (some name) cb priv
  obtain ⟨h₁, p₁⟩ := keeps_ensureRcId env _ h₀
  exact
    { mid := h₁
      accepted := Relation.ReflTransGen.trans (.single (hl₀ ▸ .accept)) p₁.steps
      called := p₁.grows.subset List.mem_cons_self
      calls := p₁.calls
      initialized := p₁.initialized
      returns := p₁.returns
      init := hinit }

/-- A failure is reported at once. -/
theorem InHand.failed (h : InHand s type name cb priv s₁) {c : Callback} (htype : c.type = type)
    (hservice : c.service = name) :
    CallSpec s (s₁.log [.returned s.calls 0, .callback s.calls cb priv c]) 0 := by
  have hans : Answers (.callback s.calls cb priv c) s₁.trace :=
    ⟨name, by rw [htype]; exact h.called, Or.inl hservice⟩
  obtain ⟨hmid, hl⟩ := h.mid.answer hans
  refine ⟨hmid, ?_, h.calls, h.initialized, ?_, Or.inl rfl, fun hf => ?_⟩
  · rw [hl]
    exact h.accepted.tail (.close .answered (Or.inl rfl))
  · rw [← h.returns]
    exact congrArg _ (List.filterMap_cons_none rfl)
  · rw [h.init] at hf
    cases hf

/-- The slot is taken and released within the call. -/
theorem InHand.released (h : InHand s type name cb priv s₁) {i : Slot}
    (hi : ¬(s₁.pending i).Armed) {p : PendingRequest} (hp : p.Idle) :
    InHand s type name cb priv (s₁.setSlot i p) := by
  obtain ⟨hmid, hl⟩ := h.mid.rest hi hp
  exact ⟨hmid, hl ▸ h.accepted, h.called, h.calls, h.initialized, h.returns, h.init⟩

/-- The slot keeps the call until it is answered. -/
theorem InHand.armed (h : InHand s type name cb priv s₁) (hctx : s₁.ctx = true) {i : Slot}
    (hi : ¬(s₁.pending i).Armed) {p : PendingRequest} (hp : p.Armed) (hcall : p.call = s.calls)
    (hfilled : FilledFrom p s₁.trace) :
    CallSpec s ((s₁.setSlot i p).log [.returned s.calls 0]) 0 := by
  obtain ⟨hmid, hl⟩ := h.mid.arm hi hp hcall hfilled hctx
  refine ⟨hmid.log trivial, ?_, h.calls, h.initialized, ?_, Or.inl rfl, fun hf => ?_⟩
  · have hsteps := h.accepted
    rw [← hl] at hsteps
    exact hsteps
  · rw [← h.returns]
    rfl
  · rw [h.init] at hf
    cases hf

end

theorem Inv.serviceAsync {s : Hal} (h : Inv s) {type : RequestType}
    {fill : PendingRequest → PendingRequest} {fail : CStr → ℤ → Callback}
    (hshape : CallShape type fill fail) (name : Option CStr) (cb priv : Ptr) (env : ConnEnv) :
    CallSpec s (s.serviceAsync type name cb priv fill fail env).2
      (s.serviceAsync type name cb priv fill fail env).1 := by
  cases name with
  | none => exact h.refused type none cb priv
  | some name =>
  simp only [Hal.serviceAsync]
  by_cases hargs : (!s.initialized || decide (cb = 0)) = true
  · rw [if_pos (by simpa [Hal.log] using hargs)]
    exact h.refused type (some name) cb priv
  rw [if_neg (by simpa [Hal.log] using hargs)]
  obtain ⟨hinit, hcb⟩ : s.initialized = true ∧ cb ≠ 0 := by simpa using hargs
  have h₁ := h.inHand hinit type name cb priv env
  set s₁ := (({ s with calls := s.calls + 1 }.log
    [.called s.calls type (some name) cb priv]).ensureRcId env).2
  split
  · exact h₁.failed (hshape.failType ..) (hshape.failService ..)
  rename_i hr
  have hctx : s₁.ctx = true := ctx_of_ensureRcId hr
  split
  · exact h₁.failed (hshape.failType ..) (hshape.failService ..)
  rename_i i s₂ halloc
  obtain ⟨hfree, rfl⟩ := Hal.allocRequest_eq_some halloc
  have hidle : ¬(s₁.pending i).Armed := fun ha => by simp [ha.1] at hfree
  simp only [setSlot_self, setSlot_setSlot, Hal.releaseRequest]
  obtain ⟨installed, running, startOp, hfill⟩ := hshape.fill
    { inUse := true, completed := false, service := strncpy 32 name, type := type, cb := cb,
      priv := priv, call := s.calls }
  rw [hfill]
  split
  · exact (h₁.released hidle ⟨rfl, rfl, rfl⟩).failed (hshape.failType ..) (hshape.failService ..)
  · exact h₁.armed hctx hidle ⟨rfl, rfl, rfl, rfl, hcb⟩ rfl ⟨name, h₁.called, rfl⟩

theorem queryShape : CallShape .query
    (fun p => { p with installed := false, running := false })
    (fun name status => .query name false false status) where
  fill p := ⟨false, false, p.startOp, rfl⟩
  failType _ _ := rfl
  failService _ _ := rfl

theorem controlShape (start : Bool) : CallShape .control (fun p => { p with startOp := start })
    (fun name status => .control name false status) where
  fill p := ⟨p.installed, p.running, start, rfl⟩
  failType _ _ := rfl
  failService _ _ := rfl

/-! ## Start and shutdown -/

theorem Inv.realInit {s : Hal} (h : Inv s) (env : ConnEnv) :
    Inv (s.realInit env) ∧ Ledger.Steps (ledger ∅ s) (ledger ∅ (s.realInit env)) := by
  simp only [Hal.realInit]
  split
  · exact ⟨h, .refl⟩
  rename_i hinit
  have hnone := h.uninit (by simpa using hinit)
  set s₁ : Hal := { s with pending := fun _ => {} } with hs₁
  have hnone₁ : ∀ i, ¬(s₁.pending i).Armed := fun _ => idle_default.not_armed
  have hm₁ : Mid none ∅ s₁ := ⟨fun _ _ => Or.inl idle_default, fun i hi => by simp at hi,
    fun i hi => absurd hi (hnone₁ i), fun i _ hi => absurd hi (hnone₁ i), fun _ _ => id,
    fun i hi => by simp [hs₁] at hi, h.mid.answers⟩
  have hl₁ : ledger ∅ s₁ = ledger ∅ s := by
    refine Ledger.ext rfl ?_ rfl
    ext k
    simp [ledger, openCalls, hnone, hnone₁]
  obtain ⟨hm₂, p₂⟩ := keeps_ensureContext env s₁ hm₁
  have hst : Ledger.Steps (ledger ∅ s) (ledger ∅ (s₁.ensureContext env).2) := hl₁ ▸ p₂.steps
  have hm₃ : Mid none ∅ { (s₁.ensureContext env).2 with initialized := true } :=
    hm₂.congr rfl rfl fun _ _ => rfl
  refine ⟨⟨hm₃, h.sound.steps hst, fun hf => by simp at hf, ?_, ?_⟩, hst⟩
  · exact (congrArg (List.map Prod.fst) p₂.returns).trans
      (h.returned.trans (by rw [p₂.calls]))
  · exact fun r hr => h.codes r (p₂.returns ▸ hr)

/-- One turn of the shutdown loop abandons the request of the slot. -/
theorem keeps_cleanupSlot (i : Slot) : Keeps none ∅ fun s => s.cleanupSlot i := fun s h => by
  by_cases hu : (s.pending i).inUse = true
  · have harmed : (s.pending i).Armed := by
      rcases h.slots i (by simp) with hidle | harmed
      · simp [hidle.1] at hu
      · exact harmed
    have hout : s.cleanupSlot i = (s.log [.abandoned (s.pending i).call]).setSlot i
        { s.pending i with
          completed := true, timeoutArmed := false, reqActive := false, inUse := false } := by
      simp [Hal.cleanupSlot, hu, harmed.2.1, h.ctx i harmed]
    exact h.close harmed ⟨rfl, rfl, rfl⟩ (o := .abandoned (s.pending i).call) (f := .abandoned)
      rfl rfl trivial hout
  · have hsame : s.cleanupSlot i = s := by simp [Hal.cleanupSlot, hu]
    simp only [hsame]
    exact ⟨h, .refl s⟩

theorem not_inUse_foldl_cleanupSlot (l : List Slot) {s : Hal} {j : Slot}
    (h : ((l.foldl Hal.cleanupSlot s).pending j).inUse = true) :
    j ∉ l ∧ (s.pending j).inUse = true := by
  induction l generalizing s with
  | nil => exact ⟨List.not_mem_nil, h⟩
  | cons i l ih =>
    obtain ⟨hl, h'⟩ := ih h
    by_cases hu : (s.pending i).inUse = true
    · by_cases hji : j = i
      · subst hji; simp [Hal.cleanupSlot, hu] at h'
      · refine ⟨by simp [hji, hl], ?_⟩
        simpa [Hal.cleanupSlot, hu, setSlot_ne _ _ hji, Hal.log] using h'
    · have hsame : s.cleanupSlot i = s := by simp [Hal.cleanupSlot, hu]
      rw [hsame] at h'
      have hji : j ≠ i := fun he => hu (he ▸ h')
      exact ⟨by simp [hji, hl], h'⟩

theorem Inv.realCleanup {s : Hal} (h : Inv s) :
    Inv s.realCleanup ∧ Ledger.Steps (ledger ∅ s) (ledger ∅ s.realCleanup) := by
  simp only [Hal.realCleanup]
  split
  · exact ⟨h, .refl⟩
  obtain ⟨h₁, p₁⟩ := Keeps.foldl keeps_cleanupSlot (List.finRange maxPendingRequests) s h.mid
  have hnone : ∀ i, ¬(((List.finRange maxPendingRequests).foldl Hal.cleanupSlot s).pending i).Armed :=
    fun i hi => (not_inUse_foldl_cleanupSlot _ hi.1).1 (List.mem_finRange i)
  exact ⟨⟨h₁.congr rfl rfl fun i hi => absurd hi (hnone i), h.sound.steps p₁.steps,
    fun _ => hnone, by
      exact (congrArg (List.map Prod.fst) p₁.returns).trans (h.returned.trans (by rw [p₁.calls])),
    fun r hr => h.codes r (p₁.returns ▸ hr)⟩, p₁.steps⟩

/-! ## Runs -/

theorem dispatchData_uninit {s : Hal} (h : Inv s) (hu : s.initialized = false) (i : Slot)
    (msg : Option (List BlobAttr)) : s.dispatchData i msg = s := by
  have hact : (s.pending i).reqActive = false := by
    by_contra hact
    exact h.uninit hu i (h.mid.armed_of_active (by simpa using hact)).1
  simp [Hal.dispatchData, hact]

theorem dispatchComplete_uninit {s : Hal} (h : Inv s) (hu : s.initialized = false) (i : Slot)
    (ret : UbusStatus) : s.dispatchComplete i ret = s := by
  have hact : (s.pending i).reqActive = false := by
    by_contra hact
    exact h.uninit hu i (h.mid.armed_of_active (by simpa using hact)).1
  simp [Hal.dispatchComplete, hact]

theorem dispatchTimeout_uninit {s : Hal} (h : Inv s) (hu : s.initialized = false) (i : Slot)
    (time : ℤ) : s.dispatchTimeout i time = s := by
  have harm : (s.pending i).timeoutArmed = false := by
    by_contra harm
    exact h.uninit hu i (h.mid.armed_of_timeoutArmed (by simpa using harm)).1
  simp [Hal.dispatchTimeout, harm]

/-- **The HAL refines the ledger.** Every event keeps the invariant and amounts to steps of the
ledger of one-shot obligations. -/
theorem step_refines {s : Hal} (h : Inv s) (e : Event) :
    Inv (step s e) ∧ Ledger.Steps (ledger ∅ s) (ledger ∅ (step s e)) := by
  cases e with
  | init env => exact h.realInit env
  | cleanup => exact h.realCleanup
  | query name cb priv env =>
    have hc := h.serviceAsync queryShape name cb priv env
    exact ⟨hc.inv h, hc.steps⟩
  | control name start cb priv env =>
    have hc := h.serviceAsync (controlShape start) name cb priv env
    exact ⟨hc.inv h, hc.steps⟩
  | data i msg =>
    obtain ⟨h', p⟩ := keeps_dispatchData i msg s h.mid
    exact ⟨h.of_progress h' p fun hu => by
      rw [step, dispatchData_uninit h hu]; exact h.uninit hu, p.steps⟩
  | complete i ret =>
    obtain ⟨h', p⟩ := keeps_dispatchComplete i ret s h.mid
    exact ⟨h.of_progress h' p fun hu => by
      rw [step, dispatchComplete_uninit h hu]; exact h.uninit hu, p.steps⟩
  | expire i time =>
    obtain ⟨h', p⟩ := h.mid.dispatchTimeout i time
    exact ⟨h.of_progress h' p fun hu => by
      rw [step, dispatchTimeout_uninit h hu]; exact h.uninit hu, p.steps⟩

/-- The invariant holds whenever the event loop is reached. -/
theorem inv_after (es : List Event) : Inv (after es) :=
  run_invariant (P := Inv) (fun _ e h => (step_refines h e).1) inv_initial es

/-! ## What a client is promised -/

/-- In use and not completed: the request is waiting for its answer. -/
def PendingRequest.Waiting (p : PendingRequest) : Prop := p.inUse = true ∧ p.completed = false

/-- The numbers of the calls whose callback was run, newest first. -/
def callbackIds (trace : List Obs) : List ℕ :=
  trace.filterMap fun
    | .callback id .. => some id
    | _ => none

/-- What a client of the HAL is promised about its calls, at a return to the event loop. -/
structure ClientPromise (s : Hal) : Prop where
  /-- No call has its callback run twice. -/
  atMostOnce : (callbackIds s.trace).Nodup
  /-- A callback belongs to a call that returned `0`, and gets the function, the kind, the `priv`
  and the service of that call. -/
  own : ∀ id cb priv c, .callback id cb priv c ∈ s.trace →
    .returned id 0 ∈ s.trace ∧ ∃ name, .called id c.type (some name) cb priv ∈ s.trace ∧
      (c.service = name ∨ c.service = strncpy 32 name)
  /-- A refused call is never called back. -/
  refused : ∀ id, .returned id (-1) ∈ s.trace → id ∉ callbackIds s.trace
  /-- The accepted calls not called back (and not dropped by `real_cleanup`) are those of the
  waiting slots. -/
  waiting : ∀ id, (.returned id 0 ∈ s.trace ∧ id ∉ callbackIds s.trace ∧
      .abandoned id ∉ s.trace) ↔ ∃ i, (s.pending i).Waiting ∧ (s.pending i).call = id
  /-- One slot for each of them. -/
  oneSlot : ∀ i j, (s.pending i).Waiting → (s.pending j).Waiting →
    (s.pending i).call = (s.pending j).call → i = j
  /-- A waiting slot has its timer armed and a connection. -/
  armed : ∀ i, (s.pending i).Waiting → (s.pending i).timeoutArmed = true ∧ s.ctx = true

theorem Mid.waiting_iff {s : Hal} (h : Mid none ∅ s) (i : Slot) :
    (s.pending i).Waiting ↔ (s.pending i).Armed :=
  ⟨fun hw => (h.armed_of_live hw.1 hw.2).1, fun ha => ⟨ha.1, ha.2.1⟩⟩

theorem mem_closed_answered {t : List Obs} {id : ℕ} :
    (id, Fate.answered) ∈ t.filterMap closedOf ↔ id ∈ callbackIds t := by
  simp only [callbackIds, List.mem_filterMap]
  constructor
  · rintro ⟨o, ho, hc⟩
    refine ⟨o, ho, ?_⟩
    cases o <;> simp_all [closedOf]
  · rintro ⟨o, ho, hc⟩
    refine ⟨o, ho, ?_⟩
    cases o <;> simp_all [closedOf]

theorem mem_closed_refused {t : List Obs} {id : ℕ} :
    (id, Fate.refused) ∈ t.filterMap closedOf ↔ .returned id (-1) ∈ t := by
  simp only [List.mem_filterMap]
  constructor
  · rintro ⟨o, ho, hc⟩
    cases o with
    | returned id' code =>
      simp only [closedOf] at hc
      split at hc
      · rename_i hcode
        obtain ⟨rfl, -⟩ := Prod.mk.inj (Option.some.inj hc)
        rwa [hcode] at ho
      · simp at hc
    | _ => simp [closedOf] at hc
  · exact fun ho => ⟨_, ho, by simp [closedOf]⟩

theorem mem_closed_abandoned {t : List Obs} {id : ℕ} :
    (id, Fate.abandoned) ∈ t.filterMap closedOf ↔ .abandoned id ∈ t := by
  simp only [List.mem_filterMap]
  constructor
  · rintro ⟨o, ho, hc⟩
    cases o <;> simp_all [closedOf]
  · exact fun ho => ⟨_, ho, rfl⟩

theorem callbackIds_sublist (t : List Obs) :
    (callbackIds t).Sublist ((t.filterMap closedOf).map Prod.fst) := by
  induction t with
  | nil => exact List.Sublist.refl _
  | cons o t ih =>
    cases o with
    | callback id cb priv c => exact ih.cons_cons id
    | abandoned id => exact ih.cons id
    | returned id code =>
      simp only [callbackIds, List.filterMap_cons, closedOf] at ih ⊢
      split
      · exact ih
      · rename_i b hb
        split at hb
        · obtain rfl := Option.some.inj hb
          exact ih.cons id
        · simp at hb
    | called => exact ih
    | connect => exact ih
    | reset => exact ih

/-- A call number has been returned from, with `0` or `-1` and not with both. -/
theorem Inv.returned_iff {s : Hal} (h : Inv s) (id : ℕ) :
    .returned id 0 ∈ s.trace ↔ id < s.calls ∧ .returned id (-1) ∉ s.trace := by
  have hmem : ∀ id' code, .returned id' code ∈ s.trace ↔
      (id', code) ∈ s.trace.filterMap returnOf := fun id' code => by
    simp only [List.mem_filterMap]
    constructor
    · exact fun hm => ⟨_, hm, rfl⟩
    · rintro ⟨o, ho, hr⟩
      cases o <;> simp_all [returnOf]
  have hlt : id < s.calls ↔ ∃ code, (id, code) ∈ s.trace.filterMap returnOf := by
    have hr : id ∈ (s.trace.filterMap returnOf).map Prod.fst ↔ id < s.calls := by
      rw [h.returned]; simp
    rw [← hr]
    simp [List.mem_map, -List.mem_filterMap]
  have hnodup : ((s.trace.filterMap returnOf).map Prod.fst).Nodup := by
    rw [h.returned]; exact List.nodup_reverse.2 List.nodup_range
  rw [hmem, hmem]
  constructor
  · intro h0
    refine ⟨hlt.2 ⟨0, h0⟩, fun h1 => ?_⟩
    have := List.inj_on_of_nodup_map hnodup h0 h1 rfl
    simp at this
  · rintro ⟨hid, h1⟩
    obtain ⟨code, hcode⟩ := hlt.1 hid
    rcases h.codes _ hcode with hc | hc
    · exact (show code = 0 from hc) ▸ hcode
    · exact absurd ((show code = -1 from hc) ▸ hcode) h1

theorem Inv.clientPromise {s : Hal} (h : Inv s) : ClientPromise s where
  atMostOnce := h.sound.nodup.sublist (callbackIds_sublist s.trace)
  own id cb priv c hc := by
    have hid : id ∈ callbackIds s.trace := List.mem_filterMap.2 ⟨_, hc, rfl⟩
    have hcl := mem_closed_answered.2 hid
    have hlt : id < s.calls :=
      (h.sound.cover id).2 (Or.inr (List.mem_map_of_mem (f := Prod.fst) hcl))
    refine ⟨(h.returned_iff id).2 ⟨hlt, fun hr => ?_⟩, ?_⟩
    · exact absurd (h.sound.fate_unique hcl (mem_closed_refused.2 hr)) (by decide)
    · obtain ⟨post, past, hsplit⟩ := List.append_of_mem hc
      have hsuf : (Obs.callback id cb priv c :: past) <:+ s.trace := ⟨post, hsplit.symm⟩
      obtain ⟨name, hname, hservice⟩ := always_iff_suffix.1 h.mid.answers _ _ hsuf
      exact ⟨name, hsuf.subset (List.mem_cons_of_mem _ hname), hservice⟩
  refused id hr hid := absurd
    (h.sound.fate_unique (mem_closed_refused.2 hr) (mem_closed_answered.2 hid)) (by decide)
  waiting id := by
    have hopen : (∃ i, (s.pending i).Waiting ∧ (s.pending i).call = id) ↔
        id ∈ (ledger ∅ s).pending := by
      simp only [h.mid.waiting_iff]
      exact ⟨Or.inr, fun hp => hp.resolve_left (Set.notMem_empty id)⟩
    rw [hopen, h.returned_iff, ← mem_closed_answered, ← mem_closed_refused,
      ← mem_closed_abandoned]
    have hcover := h.sound.cover id
    constructor
    · rintro ⟨⟨hlt, hr⟩, ha, hb⟩
      refine (hcover.1 hlt).resolve_right fun hcl => ?_
      obtain ⟨⟨id', f⟩, hf, rfl⟩ := List.mem_map.1 hcl
      cases f with
      | answered => exact ha hf
      | refused => exact hr hf
      | abandoned => exact hb hf
    · intro hp
      have hnot : ∀ f, (id, f) ∉ s.trace.filterMap closedOf := fun f hf =>
        h.sound.disjoint id hp (List.mem_map_of_mem (f := Prod.fst) hf)
      exact ⟨⟨hcover.2 (Or.inl hp), hnot _⟩, hnot _, hnot _⟩
  oneSlot i j hi hj := h.mid.inj i j ((h.mid.waiting_iff i).1 hi) ((h.mid.waiting_iff j).1 hj)
  armed i hi := by
    have ha := (h.mid.waiting_iff i).1 hi
    exact ⟨ha.2.2.1, h.mid.ctx i ha⟩

end NanoHat.UbusReal
