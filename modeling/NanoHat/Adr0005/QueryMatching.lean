import NanoHat.Adr0005.ServiceQueries
import NanoHat.Foundations.Runs

/-!
# Queries and their results find each other

Under `Matched`, every service that waits has exactly one task or result in flight that carries its
id, and the last query accepted for a service is the one it waits for, so that its result is applied
when it is popped (`Applied`). A query that the task queue merges breaks this: the queued task gets
the new id, and the service does not remember it, as `TQ_RESULT_MERGED` is not `0`. As long as the
queues do not overflow, the runs in which the matching survives are exactly those in which no query
is merged and no id comes round while it is in flight (`matched_iff`).
-/

namespace NanoHat.Adr0005

open FirstMatch Runs

namespace Threads

/-- Service `i` waits for the result with this id. -/
def WaitsFor (t : Threads) (i : ℕ) (id : UInt32) : Prop :=
  ∃ svc, t.services[i]? = some svc ∧ svc.queryPending = true ∧ svc.requestId = id

/-- The property of the states. -/
structure Matched (t : Threads) : Prop where
  pending : ∀ i id, t.WaitsFor i id → t.inFlight.count id = 1
  latest : ∀ i id, t.outstanding i = some id → t.WaitsFor i id

/-- The result of the last query accepted for a service is applied to it when it is popped. -/
def Applied (t : Threads) : ThreadStep → Prop
  | .processTurn => ∀ nowMs count result, t.ui = .processing nowMs count →
      t.results.tryPop.1 = some result → ∀ i, t.outstanding i = some result.requestId →
        ∃ svc svc', t.services[i]? = some svc ∧ svc.accept result nowMs = some svc' ∧
          (t.processTurn nowMs count).services = t.services.set i svc'
  | _ => True

/-- No push overflows its queue. -/
def NoOverflow (t : Threads) : ThreadStep → Prop
  | .requestTurn => ∀ svc ∈ t.sending, (t.tasks.push (t.queryTask svc)).1 ≠ .dropped
  | .workerFinishes nowMs outcome => ∀ task ∈ t.worker,
      (t.results.push (processTask task nowMs outcome)).1 ≠ .dropped
  | _ => True

/-- The query that is sent is not merged into a waiting one, and its id is not in flight. -/
def Clean (t : Threads) : ThreadStep → Prop
  | .requestTurn => ∀ svc ∈ t.sending,
      (∀ task ∈ t.tasks.items, sameWork task (t.queryTask svc) = false) ∧
        t.nextRequestId ∉ t.inFlight
  | _ => True

instance (t : Threads) : ∀ e, Decidable (t.NoOverflow e)
  | .requestTurn => inferInstanceAs (Decidable (∀ svc ∈ t.sending, _))
  | .workerFinishes _ _ => inferInstanceAs (Decidable (∀ task ∈ t.worker, _))
  | .beginRequest _ => instDecidableTrue
  | .beginProcess _ => instDecidableTrue
  | .processTurn => instDecidableTrue
  | .workerTakes => instDecidableTrue

instance (t : Threads) : ∀ e, Decidable (t.Clean e)
  | .requestTurn => inferInstanceAs (Decidable (∀ svc ∈ t.sending, _))
  | .workerFinishes _ _ => instDecidableTrue
  | .beginRequest _ => instDecidableTrue
  | .beginProcess _ => instDecidableTrue
  | .processTurn => instDecidableTrue
  | .workerTakes => instDecidableTrue

/-- What the steps keep in a run that is `Clean`. -/
structure Sound (t : Threads) : Prop where
  tasks : t.tasks.Good
  results : t.results.Good
  distinct : ∀ i j id, t.WaitsFor i id → t.WaitsFor j id → i = j
  known : ∀ i id, t.outstanding i = some id → id ∈ t.inFlight

/-! ## What stays when tasks and results only move -/

variable {t t' : Threads}

theorem waitsFor_congr (hservices : t'.services = t.services) (i : ℕ) (id : UInt32) :
    t'.WaitsFor i id ↔ t.WaitsFor i id := by
  unfold WaitsFor
  rw [hservices]

/-- A step that moves requests on but neither starts nor ends one. -/
theorem keeps_move (h : t.Sound) (hm : t.Matched) (htasks : t'.tasks.Good)
    (hresults : t'.results.Good) (hwaits : ∀ i id, t'.WaitsFor i id ↔ t.WaitsFor i id)
    (houtstanding : t'.outstanding = t.outstanding) (hflight : t'.inFlight.Perm t.inFlight) :
    t'.Sound ∧ t'.Matched :=
  ⟨⟨htasks, hresults,
      fun i j id hi hj => h.distinct i j id ((hwaits i id).1 hi) ((hwaits j id).1 hj),
      fun i id ho => hflight.mem_iff.2 (h.known i id (houtstanding ▸ ho))⟩,
    ⟨fun i id hw => (hflight.count_eq id).trans (hm.pending i id ((hwaits i id).1 hw)),
      fun i id ho => (hwaits i id).2 (hm.latest i id (houtstanding ▸ ho))⟩⟩

/-! ## The worker -/

/-- The worker takes a task: it stays in flight. -/
theorem inFlight_workerTakes (h : t.Sound) :
    t.workerTakes.tasks.Good ∧ t.workerTakes.inFlight.Perm t.inFlight := by
  unfold workerTakes
  cases hworker : t.worker with
  | some task => exact ⟨h.tasks, .refl _⟩
  | none =>
    obtain ⟨hgood, hitems⟩ := h.tasks.tryPop
    refine ⟨hgood, ?_⟩
    unfold inFlight
    dsimp only
    rw [← hitems, hworker, List.map_append, Option.toList_none, List.map_nil, List.append_nil]
    exact List.perm_append_comm.append_right _

theorem workerTakes_keeps (h : t.Sound) (hm : t.Matched) :
    t.workerTakes.Sound ∧ t.workerTakes.Matched := by
  obtain ⟨htasks, hflight⟩ := inFlight_workerTakes h
  have hframe : t.workerTakes.services = t.services ∧ t.workerTakes.results = t.results ∧
      t.workerTakes.outstanding = t.outstanding := by
    unfold workerTakes
    cases t.worker with
    | none => exact ⟨rfl, rfl, rfl⟩
    | some task => exact ⟨rfl, rfl, rfl⟩
  obtain ⟨hservices, hresults, houtstanding⟩ := hframe
  exact keeps_move h hm htasks (hresults ▸ h.results) (waitsFor_congr hservices) houtstanding
    hflight

/-- The worker pushes its result: the task becomes a result with the same id. -/
theorem inFlight_workerFinishes (h : t.Sound) (nowMs : UInt64) (outcome : InvokeOutcome)
    (hroom : t.NoOverflow (.workerFinishes nowMs outcome)) :
    (t.workerFinishes nowMs outcome).results.Good ∧
      (t.workerFinishes nowMs outcome).inFlight.Perm t.inFlight := by
  unfold NoOverflow at hroom
  unfold workerFinishes
  cases hworker : t.worker with
  | none => exact ⟨h.results, .refl _⟩
  | some task =>
    obtain ⟨hgood, ⟨-, hitems⟩ | ⟨hdropped, -⟩⟩ := h.results.push (processTask task nowMs outcome)
    · refine ⟨hgood, ?_⟩
      unfold inFlight
      dsimp only
      rw [hitems, hworker, List.map_append, List.map_singleton, requestId_processTask,
        Option.toList_none, List.map_nil, List.append_nil, Option.toList_some, List.map_singleton,
        List.append_assoc]
      exact List.perm_append_comm.append_left _
    · exact absurd hdropped (hroom task hworker)

theorem workerFinishes_keeps (h : t.Sound) (hm : t.Matched) (nowMs : UInt64)
    (outcome : InvokeOutcome) (hroom : t.NoOverflow (.workerFinishes nowMs outcome)) :
    (t.workerFinishes nowMs outcome).Sound ∧ (t.workerFinishes nowMs outcome).Matched := by
  obtain ⟨hresults, hflight⟩ := inFlight_workerFinishes h nowMs outcome hroom
  have hframe : (t.workerFinishes nowMs outcome).services = t.services ∧
      (t.workerFinishes nowMs outcome).tasks = t.tasks ∧
      (t.workerFinishes nowMs outcome).outstanding = t.outstanding := by
    unfold workerFinishes
    cases t.worker with
    | none => exact ⟨rfl, rfl, rfl⟩
    | some task => exact ⟨rfl, rfl, rfl⟩
  obtain ⟨hservices, htasks, houtstanding⟩ := hframe
  exact keeps_move h hm (htasks ▸ h.tasks) hresults (waitsFor_congr hservices) houtstanding
    hflight

/-! ## Results -/

theorem accept_eq_some {svc svc' : ServiceStatus} {result : UbusResult} {nowMs : UInt64}
    (h : svc.accept result nowMs = some svc') :
    svc.requestId = result.requestId ∧ svc.queryPending = true ∧ svc'.queryPending = false := by
  unfold ServiceStatus.accept at h
  split at h
  · rename_i hwait
    obtain rfl := Option.some.inj h
    refine ⟨hwait.1, hwait.2, ?_⟩
    split <;> rfl
  · cases h

theorem accept_of_waiting {svc : ServiceStatus} {result : UbusResult} (nowMs : UInt64)
    (hid : svc.requestId = result.requestId) (hpending : svc.queryPending = true) :
    ∃ svc', svc.accept result nowMs = some svc' := by
  unfold ServiceStatus.accept
  rw [if_pos ⟨hid, hpending⟩]
  exact ⟨_, rfl⟩

/-- The two outcomes of a turn that pops `result`: it goes to a service that waits for it, or none
waits for it. -/
theorem services_processTurn (nowMs : UInt64) (count : ℕ) {result : UbusResult}
    (hpop : t.results.tryPop.1 = some result) :
    (∃ k svc svc', t.services[k]? = some svc ∧ svc.accept result nowMs = some svc' ∧
        (t.processTurn nowMs count).services = t.services.set k svc') ∨
      (∀ k, ¬t.WaitsFor k result.requestId) ∧
        (t.processTurn nowMs count).services = t.services := by
  unfold processTurn
  generalize t.results.tryPop = p at hpop
  obtain ⟨out, results⟩ := p
  dsimp only at hpop
  subst hpop
  dsimp only
  cases hupdate : updateFirst (ServiceStatus.accept result nowMs) t.services with
  | some services =>
    obtain ⟨k, svc, svc', hk, haccept, rfl⟩ := updateFirst_eq_set hupdate
    exact Or.inl ⟨k, svc, svc', hk, haccept, rfl⟩
  | none =>
    refine Or.inr ⟨?_, rfl⟩
    rintro k ⟨svc, hk, hpending, hid⟩
    obtain ⟨svc', haccept⟩ := accept_of_waiting nowMs hid hpending
    have hnone := updateFirst_eq_none.1 hupdate svc (List.mem_of_getElem? hk)
    rw [hnone] at haccept
    cases haccept

/-- The services that wait after a result was popped are those that waited for another one. -/
theorem waitsFor_processTurn (h : t.Sound) (nowMs : UInt64) (count : ℕ) {result : UbusResult}
    (hpop : t.results.tryPop.1 = some result) (i : ℕ) (id : UInt32) :
    (t.processTurn nowMs count).WaitsFor i id ↔ id ≠ result.requestId ∧ t.WaitsFor i id := by
  rcases services_processTurn nowMs count hpop with
    ⟨k, svc, svc', hk, haccept, hservices⟩ | ⟨hnone, hservices⟩
  · obtain ⟨hid, hpending, hdone⟩ := accept_eq_some haccept
    have hwaits : t.WaitsFor k result.requestId := ⟨svc, hk, hpending, hid⟩
    unfold WaitsFor
    rw [hservices]
    by_cases hik : i = k
    · subst hik
      constructor
      · rintro ⟨x, hx, hxp, -⟩
        rw [List.getElem?_set_self (List.getElem?_eq_some_iff.1 hk).1] at hx
        obtain rfl := Option.some.inj hx
        rw [hdone] at hxp
        cases hxp
      · rintro ⟨hne, x, hx, -, hxid⟩
        rw [hk] at hx
        obtain rfl := Option.some.inj hx
        exact absurd (hxid.symm.trans hid) hne
    · rw [List.getElem?_set_ne (fun h => hik h.symm)]
      refine ⟨fun hw => ⟨?_, hw⟩, fun hw => hw.2⟩
      rintro rfl
      exact hik (h.distinct i k _ hw hwaits)
  · rw [waitsFor_congr hservices]
    refine ⟨fun hw => ⟨?_, hw⟩, fun hw => hw.2⟩
    rintro rfl
    exact hnone i hw

theorem processTurn_none (h : t.Sound) (nowMs : UInt64) (count : ℕ)
    (hpop : t.results.tryPop.1 = none) :
    (t.processTurn nowMs count).services = t.services ∧
      (t.processTurn nowMs count).outstanding = t.outstanding ∧
      (t.processTurn nowMs count).tasks = t.tasks ∧ (t.processTurn nowMs count).results.Good ∧
      (t.processTurn nowMs count).inFlight = t.inFlight := by
  obtain ⟨hgood, hitems⟩ := h.results.tryPop
  unfold processTurn inFlight
  generalize t.results.tryPop = p at hpop hgood hitems
  obtain ⟨out, results⟩ := p
  dsimp only at hpop hgood hitems
  subst hpop
  dsimp only
  rw [← hitems]
  exact ⟨rfl, rfl, rfl, hgood, rfl⟩

theorem processTurn_some (h : t.Sound) (nowMs : UInt64) (count : ℕ) {result : UbusResult}
    (hpop : t.results.tryPop.1 = some result) :
    (t.processTurn nowMs count).tasks = t.tasks ∧ (t.processTurn nowMs count).results.Good ∧
      (∀ i, (t.processTurn nowMs count).outstanding i =
        if t.outstanding i = some result.requestId then none else t.outstanding i) ∧
      t.inFlight.Perm (result.requestId :: (t.processTurn nowMs count).inFlight) := by
  obtain ⟨hgood, hitems⟩ := h.results.tryPop
  have hflight : t.inFlight.Perm (result.requestId :: (t.tasks.items.map (·.requestId) ++
      t.worker.toList.map (·.requestId) ++ t.results.tryPop.2.items.map (·.requestId))) := by
    unfold inFlight
    rw [← hitems, hpop, Option.toList_some, List.singleton_append, List.map_cons]
    exact List.perm_middle
  unfold processTurn
  generalize t.results.tryPop = p at hpop hgood hflight
  obtain ⟨out, results⟩ := p
  dsimp only at hpop hgood hflight
  subst hpop
  dsimp only
  cases updateFirst (ServiceStatus.accept result nowMs) t.services with
  | some services => exact ⟨rfl, hgood, fun i => rfl, hflight⟩
  | none => exact ⟨rfl, hgood, fun i => rfl, hflight⟩

/-- A turn of `sys_status_process_results` keeps everything. -/
theorem processTurn_keeps (h : t.Sound) (hm : t.Matched) (nowMs : UInt64) (count : ℕ) :
    (t.processTurn nowMs count).Sound ∧ (t.processTurn nowMs count).Matched := by
  cases hpop : t.results.tryPop.1 with
  | none =>
    obtain ⟨hservices, houtstanding, htasks, hresults, hflight⟩ :=
      processTurn_none h nowMs count hpop
    exact keeps_move h hm (htasks ▸ h.tasks) hresults (waitsFor_congr hservices) houtstanding
      (.of_eq hflight)
  | some result =>
    obtain ⟨htasks, hresults, houtstanding, hflight⟩ :=
      processTurn_some h nowMs count hpop
    have hwaits := waitsFor_processTurn h nowMs count hpop
    have hlast : ∀ i id, (t.processTurn nowMs count).outstanding i = some id →
        id ≠ result.requestId ∧ t.outstanding i = some id := by
      intro i id ho
      rw [houtstanding] at ho
      split at ho
      · cases ho
      · rename_i hne
        exact ⟨fun heq => hne (heq ▸ ho), ho⟩
    constructor
    · refine ⟨htasks ▸ h.tasks, hresults, fun i j id hi hj => ?_, fun i id ho => ?_⟩
      · exact h.distinct i j id ((hwaits i id).1 hi).2 ((hwaits j id).1 hj).2
      · obtain ⟨hne, ho⟩ := hlast i id ho
        exact (List.mem_cons.1 (hflight.mem_iff.1 (h.known i id ho))).resolve_left hne
    · refine ⟨fun i id hw => ?_, fun i id ho => ?_⟩
      · obtain ⟨hne, hw⟩ := (hwaits i id).1 hw
        have hcount := (hflight.count_eq id).symm.trans (hm.pending i id hw)
        rwa [List.count_cons_of_ne hne.symm] at hcount
      · obtain ⟨hne, ho⟩ := hlast i id ho
        exact (hwaits i id).2 ⟨hne, hm.latest i id ho⟩

/-- The result of the last query of a service is applied to it. -/
theorem applied_of_matched (h : t.Sound) (hm : t.Matched) (e : ThreadStep) : t.Applied e := by
  cases e with
  | beginRequest nowMs => trivial
  | requestTurn => trivial
  | beginProcess nowMs => trivial
  | workerTakes => trivial
  | workerFinishes nowMs outcome => trivial
  | processTurn =>
    intro nowMs count result _ hpop i ho
    have hwaits := hm.latest i _ ho
    rcases services_processTurn nowMs count hpop with
      ⟨k, svc, svc', hk, haccept, hservices⟩ | ⟨hnone, -⟩
    · obtain ⟨hid, hpending, -⟩ := accept_eq_some haccept
      obtain rfl : i = k := h.distinct i k _ hwaits ⟨svc, hk, hpending, hid⟩
      exact ⟨svc, svc', hk, haccept, hservices⟩
    · exact absurd hwaits (hnone i)

/-! ## Queries -/

theorem clearTimeout_queryPending (svc : ServiceStatus) :
    svc.clearTimeout.queryPending = false ∧ svc.clearTimeout.name = svc.name := by
  unfold ServiceStatus.clearTimeout
  split
  · exact ⟨rfl, rfl⟩
  · rename_i hidle
    exact ⟨Bool.eq_false_iff.2 hidle, rfl⟩

theorem queryTask_clearTimeout (svc : ServiceStatus) :
    t.queryTask svc.clearTimeout = t.queryTask svc := by
  unfold queryTask
  rw [(clearTimeout_queryPending svc).2]

/-- A new query for service `i`: it is in flight, the service waits for it, and the others wait for
what they waited for. -/
structure Queued (t t' : Threads) (i : ℕ) : Prop where
  tasks : t'.tasks.Good
  results : t'.results = t.results
  outstanding : t'.outstanding = Function.update t.outstanding i (some t.nextRequestId)
  flight : t'.inFlight.Perm (t.nextRequestId :: t.inFlight)
  self : ∀ id, t'.WaitsFor i id ↔ id = t.nextRequestId
  others : ∀ j ≠ i, ∀ id, t'.WaitsFor j id ↔ t.WaitsFor j id

variable {i : ℕ}

/-- Who waits then: the service itself for the new id, another one for an id that is in flight, and
so not the new one. -/
theorem Queued.waitsFor (hq : Queued t t' i) (hm : t.Matched) (hnew : t.nextRequestId ∉ t.inFlight)
    {j : ℕ} {id : UInt32} (hw : t'.WaitsFor j id) :
    j = i ∧ id = t.nextRequestId ∨ id ≠ t.nextRequestId ∧ t.WaitsFor j id := by
  by_cases hji : j = i
  · subst hji
    exact Or.inl ⟨rfl, (hq.self id).1 hw⟩
  · have hw := (hq.others j hji id).1 hw
    refine Or.inr ⟨?_, hw⟩
    rintro rfl
    exact hnew (List.count_pos_iff.1 (by rw [hm.pending j _ hw]; exact Nat.one_pos))

theorem Queued.outstanding_eq (hq : Queued t t' i) {j : ℕ} {id : UInt32}
    (ho : t'.outstanding j = some id) :
    j = i ∧ id = t.nextRequestId ∨ j ≠ i ∧ t.outstanding j = some id := by
  rw [hq.outstanding] at ho
  by_cases hji : j = i
  · rw [hji, Function.update_self] at ho
    exact Or.inl ⟨hji, (Option.some.inj ho).symm⟩
  · rw [Function.update_of_ne hji] at ho
    exact Or.inr ⟨hji, ho⟩

theorem Queued.sound (hq : Queued t t' i) (h : t.Sound) (hm : t.Matched)
    (hnew : t.nextRequestId ∉ t.inFlight) : t'.Sound where
  tasks := hq.tasks
  results := hq.results ▸ h.results
  distinct j k id hj hk := by
    rcases hq.waitsFor hm hnew hj with ⟨rfl, rfl⟩ | ⟨hne, hj⟩
    · rcases hq.waitsFor hm hnew hk with ⟨rfl, -⟩ | ⟨hne, -⟩
      · rfl
      · exact absurd rfl hne
    · rcases hq.waitsFor hm hnew hk with ⟨-, rfl⟩ | ⟨-, hk⟩
      · exact absurd rfl hne
      · exact h.distinct j k id hj hk
  known j id ho := by
    rw [hq.flight.mem_iff]
    rcases hq.outstanding_eq ho with ⟨-, rfl⟩ | ⟨-, ho⟩
    · exact List.mem_cons_self
    · exact List.mem_cons_of_mem _ (h.known j id ho)

theorem Queued.matched (hq : Queued t t' i) (hm : t.Matched)
    (hnew : t.nextRequestId ∉ t.inFlight) : t'.Matched where
  pending j id hw := by
    rw [hq.flight.count_eq]
    rcases hq.waitsFor hm hnew hw with ⟨-, rfl⟩ | ⟨hne, hw⟩
    · rw [List.count_cons_self, List.count_eq_zero.2 hnew]
    · rw [List.count_cons_of_ne hne.symm]
      exact hm.pending j id hw
  latest j id ho := by
    rcases hq.outstanding_eq ho with ⟨rfl, rfl⟩ | ⟨hji, ho⟩
    · exact (hq.self _).2 rfl
    · exact (hq.others j hji id).2 (hm.latest j id ho)

/-- The id of a query that is in flight once was not in flight before. -/
theorem Queued.new (hq : Queued t t' i) (hm' : t'.Matched) : t.nextRequestId ∉ t.inFlight := by
  intro hold
  have hcount := hm'.pending i _ ((hq.self _).2 rfl)
  rw [hq.flight.count_eq, List.count_cons_self] at hcount
  have hpos := List.count_pos_iff.2 hold
  omega

/-- A query that is appended. -/
theorem sendQuery_appended (h : t.Sound) {svc : ServiceStatus} (hi : t.services[i]? = some svc)
    (nowMs : UInt64) (hpushed : (t.tasks.push (t.queryTask svc)).1 = .ok)
    (hitems : (t.tasks.push (t.queryTask svc)).2.items = t.tasks.items ++ [t.queryTask svc]) :
    Queued t (t.sendQuery i nowMs svc) i := by
  have hlt : i < t.services.length := (List.getElem?_eq_some_iff.1 hi).1
  have hgood := (h.tasks.push (t.queryTask svc)).1
  unfold sendQuery
  dsimp only
  rw [queryTask_clearTimeout, hpushed, if_pos (show TaskQueueResult.ok.code = 0 from rfl), if_pos (Or.inl rfl)]
  refine ⟨hgood, rfl, rfl, ?_, fun id => ?_, fun j hj id => ?_⟩
  · unfold inFlight
    dsimp only
    rw [hitems, List.map_append, List.map_singleton, List.append_assoc, List.append_assoc,
      List.append_assoc]
    exact List.perm_middle
  · unfold WaitsFor
    dsimp only
    rw [List.getElem?_set_self hlt]
    constructor
    · rintro ⟨x, hx, -, rfl⟩
      obtain rfl := Option.some.inj hx
      rfl
    · rintro rfl
      exact ⟨_, rfl, rfl, rfl⟩
  · unfold WaitsFor
    dsimp only
    rw [List.getElem?_set_ne (fun h => hj h.symm)]

/-- A query that is merged: its id is outstanding, and its service does not wait. -/
theorem sendQuery_merged {svc : ServiceStatus} (hi : t.services[i]? = some svc)
    (nowMs : UInt64) (hpushed : (t.tasks.push (t.queryTask svc)).1 = .merged) :
    (t.sendQuery i nowMs svc).outstanding i = some t.nextRequestId ∧
      ∀ id, ¬(t.sendQuery i nowMs svc).WaitsFor i id := by
  have hlt : i < t.services.length := (List.getElem?_eq_some_iff.1 hi).1
  unfold sendQuery
  dsimp only
  rw [queryTask_clearTimeout, hpushed, if_neg (show ¬TaskQueueResult.merged.code = 0 by decide), if_pos (Or.inr rfl)]
  refine ⟨Function.update_self .., ?_⟩
  rintro id ⟨x, hx, hpending, -⟩
  dsimp only at hx
  rw [List.getElem?_set_self hlt] at hx
  obtain rfl := Option.some.inj hx
  rw [(clearTimeout_queryPending svc).1] at hpending
  cases hpending

/-- **Sending a query** keeps the matching precisely when it is not merged and its id is new. -/
theorem sendQuery_matched (h : t.Sound) (hm : t.Matched) {svc : ServiceStatus}
    (hi : t.services[i]? = some svc) (nowMs : UInt64)
    (hroom : (t.tasks.push (t.queryTask svc)).1 ≠ .dropped) :
    let clean := (∀ task ∈ t.tasks.items, sameWork task (t.queryTask svc) = false) ∧
      t.nextRequestId ∉ t.inFlight
    (clean → (t.sendQuery i nowMs svc).Sound) ∧ ((t.sendQuery i nowMs svc).Matched ↔ clean) := by
  dsimp only
  obtain ⟨-, -, hpushed⟩ := h.tasks.push (t.queryTask svc)
  generalize hresult : (t.tasks.push (t.queryTask svc)).1 = result at hpushed
  generalize hitems : (t.tasks.push (t.queryTask svc)).2.items = items at hpushed
  cases hpushed with
  | @merged pre post existing hq hsame =>
    obtain ⟨hout, hidle⟩ := sendQuery_merged hi nowMs hresult
    have hdirty : ¬∀ task ∈ t.tasks.items, sameWork task (t.queryTask svc) = false := by
      intro hnone
      rw [hnone existing (hq ▸ List.mem_append_right pre List.mem_cons_self)] at hsame
      cases hsame
    refine ⟨fun hclean => absurd hclean.1 hdirty, fun hm' => ?_, fun hclean => absurd hclean.1 hdirty⟩
    exact absurd (hm'.latest i _ hout) (hidle _)
  | dropped => exact absurd hresult hroom
  | appended hnone =>
    have hq := sendQuery_appended h hi nowMs hresult hitems
    have hiff : (∀ task ∈ t.tasks.items, sameWork task (t.queryTask svc) = false) ∧
        t.nextRequestId ∉ t.inFlight ↔ t.nextRequestId ∉ t.inFlight := and_iff_right hnone
    rw [hiff]
    exact ⟨hq.sound h hm, hq.new, hq.matched hm⟩

/-! ## Steps -/

/-- Setting up the services makes none of them wait. -/
theorem waitsFor_beginRequest (cfg : List CStr) (t : Threads) (nowMs : UInt64) (i : ℕ)
    (id : UInt32) : (beginRequest cfg t nowMs).WaitsFor i id ↔ t.WaitsFor i id := by
  unfold beginRequest
  dsimp only
  split
  · rename_i hempty
    have hnone : t.services = [] := List.length_eq_zero_iff.1 hempty.1
    constructor
    · rintro ⟨svc, hsvc, hpending, -⟩
      dsimp only at hsvc
      rw [List.getElem?_map] at hsvc
      obtain ⟨name, -, rfl⟩ := Option.map_eq_some_iff.1 hsvc
      cases hpending
    · rintro ⟨svc, hsvc, -⟩
      rw [hnone] at hsvc
      cases hsvc
  · exact Iff.rfl

theorem beginRequest_frame (cfg : List CStr) (t : Threads) (nowMs : UInt64) :
    (beginRequest cfg t nowMs).tasks = t.tasks ∧ (beginRequest cfg t nowMs).results = t.results ∧
      (beginRequest cfg t nowMs).outstanding = t.outstanding ∧
      (beginRequest cfg t nowMs).inFlight = t.inFlight := by
  unfold beginRequest
  dsimp only
  split
  · exact ⟨rfl, rfl, rfl, rfl⟩
  · exact ⟨rfl, rfl, rfl, rfl⟩

/-- A step that only moves the UI thread on. -/
theorem keeps_ui (h : t.Sound) (hm : t.Matched) (ui : UiPhase) :
    { t with ui := ui }.Sound ∧ { t with ui := ui }.Matched :=
  keeps_move h hm h.tasks h.results (fun _ _ => Iff.rfl) rfl (.refl _)

/-- The turn of the loop of `sys_status_request_services`. -/
theorem requestTurn_matched (h : t.Sound) (hm : t.Matched) {i : ℕ} {nowMs : UInt64}
    (hui : t.ui = .requesting i nowMs) (hroom : t.NoOverflow .requestTurn) :
    (t.Clean .requestTurn → (t.requestTurn i nowMs).Sound) ∧
      ((t.requestTurn i nowMs).Matched ↔ t.Clean .requestTurn) := by
  unfold NoOverflow sending at hroom
  unfold Clean requestTurn sending
  rw [hui] at hroom ⊢
  dsimp only at hroom ⊢
  have hskip : ∀ ui, (({ t with ui := ui } : Threads).Sound) ∧ ({ t with ui := ui } : Threads).Matched :=
    keeps_ui h hm
  cases hi : t.services[i]? with
  | none => exact ⟨fun _ => (hskip _).1, fun _ => nofun, fun _ => (hskip _).2⟩
  | some svc =>
    rw [hi] at hroom
    dsimp only at hroom ⊢
    by_cases hwait : svc.stillWaiting nowMs = true
    · rw [if_pos hwait, if_pos hwait]
      exact ⟨fun _ => (hskip _).1, fun _ => nofun, fun _ => (hskip _).2⟩
    · rw [if_neg hwait] at hroom
      rw [if_neg hwait, if_neg hwait]
      obtain ⟨hsound, hmatched⟩ := (hskip (.requesting (i + 1) nowMs))
      obtain ⟨hkeeps, hiff⟩ := sendQuery_matched hsound hmatched hi nowMs (hroom svc rfl)
      refine ⟨fun hclean => hkeeps (hclean svc rfl), hiff.trans ⟨fun hclean x hx => ?_, fun hclean =>
        hclean svc rfl⟩⟩
      obtain rfl := Option.some.inj hx
      exact hclean

/-- Outside the loop nothing is sent. -/
theorem clean_requestTurn (hui : ∀ i nowMs, t.ui ≠ .requesting i nowMs) :
    t.Clean .requestTurn := by
  unfold Clean sending
  cases hphase : t.ui with
  | requesting i nowMs => exact absurd hphase (hui i nowMs)
  | idle => exact nofun
  | processing now count => exact nofun

/-- **One step** of either thread keeps the matching precisely when it is clean. -/
theorem step_matched (cfg : List CStr) (h : t.Sound) (hm : t.Matched) (e : ThreadStep)
    (hroom : t.NoOverflow e) :
    (t.Clean e → (t.step cfg e).Sound) ∧ ((t.step cfg e).Matched ↔ t.Clean e) := by
  have hkeeps : ∀ {t' : Threads}, t'.Sound ∧ t'.Matched → (True → t'.Sound) ∧ (t'.Matched ↔ True) :=
    fun h' => ⟨fun _ => h'.1, iff_true_intro h'.2⟩
  cases e with
  | beginRequest nowMs =>
    unfold Threads.step
    cases hui : t.ui with
    | idle =>
      obtain ⟨htasks, hresults, houtstanding, hflight⟩ := beginRequest_frame cfg t nowMs
      exact hkeeps (keeps_move h hm (htasks ▸ h.tasks) (hresults ▸ h.results)
        (waitsFor_beginRequest cfg t nowMs) houtstanding (.of_eq hflight))
    | requesting i now => exact hkeeps ⟨h, hm⟩
    | processing now count => exact hkeeps ⟨h, hm⟩
  | requestTurn =>
    unfold Threads.step
    cases hui : t.ui with
    | requesting i nowMs =>
      obtain ⟨hkeeps, hiff⟩ := requestTurn_matched h hm hui hroom
      exact ⟨hkeeps, hiff⟩
    | idle => exact ⟨fun _ => h, fun _ => clean_requestTurn (by rw [hui]; exact nofun), fun _ => hm⟩
    | processing now count =>
      exact ⟨fun _ => h, fun _ => clean_requestTurn (by rw [hui]; exact nofun), fun _ => hm⟩
  | beginProcess nowMs =>
    unfold Threads.step
    cases hui : t.ui with
    | idle => exact hkeeps (keeps_ui h hm _)
    | requesting i now => exact hkeeps ⟨h, hm⟩
    | processing now count => exact hkeeps ⟨h, hm⟩
  | processTurn =>
    unfold Threads.step
    cases hui : t.ui with
    | idle => exact hkeeps ⟨h, hm⟩
    | requesting i now => exact hkeeps ⟨h, hm⟩
    | processing nowMs count => exact hkeeps (processTurn_keeps h hm nowMs count)
  | workerTakes => exact hkeeps (workerTakes_keeps h hm)
  | workerFinishes nowMs outcome => exact hkeeps (workerFinishes_keeps h hm nowMs outcome hroom)

/-! ## Runs -/

/-- **The matching survives** a run without overflow precisely when no query of the run is merged
into a waiting one, and none gets an id that is in flight. -/
theorem matched_iff {taskMalloc : Option (ℕ → UbusTask)} {resultMalloc : Option (ℕ → UbusResult)}
    {taskCapacity resultCapacity : ℕ} {tasks : TaskQueue} {results : ResultQueue}
    (htasks : taskQueueInit taskMalloc taskCapacity = some tasks)
    (hresults : resultQueueInit resultMalloc resultCapacity = some results) (cfg : List CStr)
    (es : List ThreadStep)
    (hroom : Along (step cfg) NoOverflow { tasks := tasks, results := results } es) :
    (Throughout (step cfg) Matched { tasks := tasks, results := results } es ∧
        Along (step cfg) Applied { tasks := tasks, results := results } es) ↔
      Along (step cfg) Clean { tasks := tasks, results := results } es := by
  have hsound : Sound { tasks := tasks, results := results } := by
    refine ⟨(TaskQueue.good_init htasks).1, (ResultQueue.good_init hresults).1, ?_, nofun⟩
    rintro i j id ⟨svc, hsvc, -⟩
    cases hsvc
  have hmatched : Matched { tasks := tasks, results := results } := by
    refine ⟨?_, nofun⟩
    rintro i id ⟨svc, hsvc, -⟩
    cases hsvc
  have hiff := throughout_iff_along_good (I := Sound) (P := Matched)
    (fun _ e h hc hm hg => (step_matched cfg h hm e hc).1 hg)
    (fun _ e h hc hm => (step_matched cfg h hm e hc).2) hsound hmatched hroom
  refine ⟨fun h => hiff.1 h.1, fun hclean => ⟨hiff.2 hclean, ?_⟩⟩
  exact along_of_good (I := Sound) (P := Matched) (fun _ e h hc hm hg => (step_matched cfg h hm e hc).1 hg)
    (fun _ e h hc hm hg => (step_matched cfg h hm e hc).2.2 hg)
    (fun _ e h hm => applied_of_matched h hm e) hsound hmatched hroom hclean

/-- One query, answered. -/
theorem matched_iff_answered : ∃ tasks results,
    taskQueueInit (some fun _ => { serviceName := [], action := .start, requestId := 0 }) 2 =
        some tasks ∧
      resultQueueInit (some fun _ => { serviceName := [], action := .start, requestId := 0 }) 2 =
        some results ∧
      Throughout (step [['a']]) Matched { tasks := tasks, results := results }
        [.beginRequest 10000, .requestTurn, .requestTurn, .workerTakes,
          .workerFinishes 1000 ⟨true, 0, true, true⟩, .beginProcess 11000, .processTurn,
          .processTurn] := by
  have htasks : taskQueueInit
      (some fun _ => { serviceName := [], action := .start, requestId := 0 }) 2 = some _ := rfl
  have hresults : resultQueueInit
      (some fun _ => { serviceName := [], action := .start, requestId := 0 }) 2 = some _ := rfl
  refine ⟨_, _, htasks, hresults, ((matched_iff htasks hresults [['a']] _ ?_).2 ?_).1⟩
  · decide +kernel
  · decide +kernel

/-- The clock is set while the first query of a service waits, so that it times out; the second is
merged into it, and its result, which says that the service runs, is discarded. -/
theorem merged_query_discarded : ∃ tasks results,
    taskQueueInit (some fun _ => { serviceName := [], action := .start, requestId := 0 }) 2 =
        some tasks ∧
      resultQueueInit (some fun _ => { serviceName := [], action := .start, requestId := 0 }) 2 =
        some results ∧
      Along (step [['a']]) NoOverflow { tasks := tasks, results := results }
        [.beginRequest 1000, .requestTurn, .requestTurn, .beginRequest 1700000000000, .requestTurn,
          .requestTurn, .workerTakes, .workerFinishes 1900 ⟨true, 0, true, true⟩,
          .beginProcess 1700000001000, .processTurn, .processTurn] ∧
      ¬Along (step [['a']]) Applied { tasks := tasks, results := results }
        [.beginRequest 1000, .requestTurn, .requestTurn, .beginRequest 1700000000000, .requestTurn,
          .requestTurn, .workerTakes, .workerFinishes 1900 ⟨true, 0, true, true⟩,
          .beginProcess 1700000001000, .processTurn, .processTurn] ∧
      (run (step [['a']]) { tasks := tasks, results := results }
        [.beginRequest 1000, .requestTurn, .requestTurn, .beginRequest 1700000000000, .requestTurn,
          .requestTurn, .workerTakes, .workerFinishes 1900 ⟨true, 0, true, true⟩,
          .beginProcess 1700000001000, .processTurn, .processTurn]).services =
        [{ name := ['a'], requestId := 1, requestTimeMs := 1000 }] := by
  refine ⟨_, _, rfl, rfl, by decide +kernel, fun h => ?_, by decide +kernel⟩
  obtain ⟨-, -, -, -, -, -, -, -, -, hpop, -⟩ := h
  -- the result of the second query is popped, and no service takes it
  obtain ⟨svc, svc', hsvc, haccept, -⟩ := hpop 1700000001000 0
    { serviceName := ['a'], action := .query, success := true, requestId := 2, installed := true,
      running := true } (by decide +kernel) (by decide +kernel) 0 (by decide +kernel)
  obtain ⟨-, hpending, -⟩ := accept_eq_some haccept
  have hwaits := congrArg (Option.map ServiceStatus.queryPending) hsvc
  rw [Option.map_some, hpending] at hwaits
  exact absurd hwaits (by decide +kernel)

end Threads

end NanoHat.Adr0005
