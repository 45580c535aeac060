import NanoHat.Ui.UiSteps

/-!
# The end of a transition

A confirmed request puts its service into a transition, which blinks until a render sees the running
flag that was asked for, or until the request fails. That is too late when the flag has already
changed back: the transition then stays for ever. `cleared_iff` says exactly when this does not
happen: every render of the services page that finds a transition although its operation is over and
its service has been queried since also finds the flag that was asked for.
-/

namespace NanoHat.UiSys

open Sys Runs UbusHal

/-! ## The record -/

/-- The queries of service `i` issued after the last completion of a control operation of it. -/
def asksSince (i : ℕ) : List (Obs UiObs) → List ℕ
  | [] => []
  | .queryCalled call j :: past => if j = i then call :: asksSince i past else asksSince i past
  | .controlDone _ j _ _ :: past => if j = i then [] else asksSince i past
  | _ :: past => asksSince i past

/-- One of these queries has completed with status OK. -/
def answeredSince (i : ℕ) : List (Obs UiObs) → Bool
  | [] => false
  | .queryDone call _ _ a :: past =>
    a.status = statusOk && (asksSince i past).contains call || answeredSince i past
  | .controlDone _ j _ _ :: past => j ≠ i && answeredSince i past
  | _ :: past => answeredSince i past

/-- The services page has been rendered after that. -/
def shownSince (i : ℕ) : List (Obs UiObs) → Bool
  | [] => false
  | .client (.frame drawn) :: past => drawn ≠ [] && answeredSince i past || shownSince i past
  | .controlDone _ j _ _ :: past => j ≠ i && shownSince i past
  | _ :: past => shownSince i past

/-- A request is a control request of service `i`. -/
def isControlOf (i : ℕ) (r : HalRequest Ui) : Bool :=
  match r.ctx with
  | .query .. => false
  | .control index _ _ => index = i

/-- A control operation of service `i` is outstanding. -/
def controlling (s : UiSys) (i : ℕ) : Bool := s.outstanding.any (isControlOf i)

theorem answeredSince_of_shownSince {i : ℕ} {log : List (Obs UiObs)}
    (h : shownSince i log = true) : answeredSince i log = true := by
  induction log with
  | nil => cases h
  | cons o past ih =>
    cases o with
    | client o =>
      cases o with
      | frame drawn =>
        simp only [shownSince, Bool.or_eq_true, Bool.and_eq_true] at h
        exact h.elim (fun hd => hd.2) ih
      | failed index => exact ih h
    | controlDone call j success queries =>
      simp only [shownSince, answeredSince, Bool.and_eq_true] at h ⊢
      exact ⟨h.1, ih h.2⟩
    | queryDone call k written a =>
      simp only [answeredSince, Bool.or_eq_true]
      exact Or.inr (ih h)
    | queryCalled call j => exact ih h
    | queryRefused call => exact ih h
    | controlCalled call j start => exact ih h
    | controlRefused call => exact ih h

/-! ## Transitions -/

/-- The service is in no transition. -/
def Rests (u : SvcUiState) : Prop := u ≠ .starting ∧ u ≠ .stopping

theorem icon_of_rests {u : SvcUiState} (h : Rests u) (st : ServicesState) (svc : ServiceStatus)
    (nowMs : UInt64) (i : ℕ) :
    st.getServiceIcon svc u nowMs i = ServicesState.steadyIcon svc :=
  if_neg fun hc => hc.elim h.1 h.2

/-- What a render finds is what was asked for. -/
def Agreeing (u : SvcUiState) (svc : ServiceStatus) : Prop :=
  (u = .starting → svc.running = true) ∧ (u = .stopping → svc.running = false)

/-- **A render** ends a transition precisely when it finds what was asked for. -/
theorem rests_syncState (svc : ServiceStatus) (u : SvcUiState) :
    Rests (ServicesState.syncState svc u) ↔ Agreeing u svc := by
  unfold ServicesState.syncState Rests Agreeing
  cases hr : svc.running <;> cases u <;> cases hv : svc.statusValid <;> simp

/-- Once the operations of service `i` are over, it has been queried and the page has been rendered,
the service is in no transition, and its icon is the steady one. -/
def Clear (s : UiSys) (i : ℕ) : Prop :=
  s.controlling i = false → shownSince i s.log = true →
    Rests (s.client.services.uiStates i) ∧ ∀ nowMs,
      s.client.services.getServiceIcon (s.status.services i) (s.client.services.uiStates i) nowMs i =
        ServicesState.steadyIcon (s.status.services i)

variable {n : ℕ} {s s' : UiSys} {i : ℕ}

theorem clear_of (h : s.controlling i = false → shownSince i s.log = true →
    Rests (s.client.services.uiStates i)) : Clear s i := fun hc hs =>
  ⟨h hc hs, fun nowMs => icon_of_rests (h hc hs) _ _ nowMs i⟩

theorem Clear.congr (h : Clear s i) (hc : s'.controlling i = s.controlling i)
    (hlog : shownSince i s'.log = shownSince i s.log)
    (hu : s'.client.services.uiStates i = s.client.services.uiStates i) : Clear s' i :=
  clear_of fun hc' hs' => by
    rw [hu]
    exact (h (hc ▸ hc') (hlog ▸ hs')).1

theorem controlling_append (l : List (HalRequest Ui)) (r : HalRequest Ui) :
    (l ++ [r]).any (isControlOf i) = (l.any (isControlOf i) || isControlOf i r) := by
  rw [List.any_append, List.any_cons, List.any_nil, Bool.or_false]

theorem Clear.quiet (h : Clear s i) (hq : Quiet s s') : Clear s' i := by
  refine h.congr ?_ ?_ (by rw [hq.client])
  · unfold controlling
    rcases hq.outstanding with heq | ⟨service, requestId, k, -, heq⟩
    · rw [heq]
    · rw [heq, controlling_append]
      exact Bool.or_false _
  · rcases hq.log with heq | ⟨o, ho, heq⟩
    · rw [heq]
    · rw [heq]
      cases o
      all_goals first | rfl | exact ho.elim

theorem Clear.called {a : Answer} (h : Clear s i) (hc : Called n s a s') : Clear s' i := by
  cases hc with
  | nothing => exact h
  | query written hout hstatus hlt =>
    refine h.congr ?_ rfl rfl
    unfold controlling
    rw [hout, List.any_append, List.any_append, List.any_cons]
    rfl
  | control hout hlt =>
    rename_i call j start service l₁ l₂ queries
    by_cases hij : i = j
    · subst hij
      refine clear_of fun _ hs => ?_
      simp only [shownSince, ne_eq, not_true_eq_false, decide_false, Bool.false_and] at hs
      cases hs
    · refine h.congr ?_ ?_ ?_
      · unfold controlling
        rw [hout, List.any_append, List.any_append, List.any_cons]
        have hother : isControlOf i ⟨call, service, .control (Nat.cast j) start
            (some (Ui.uiServicesControlCb call))⟩ = false := by
          simp only [isControlOf, decide_eq_false_iff_not]
          exact fun heq => hij (by exact_mod_cast heq.symm)
        rw [hother, Bool.false_or]
      · simp only [shownSince, ne_eq, Ne.symm hij, not_false_eq_true, decide_true, Bool.true_and]
      · exact (congrFun (uiStates_notify _ _) i).trans (noticed_ne hij _)

theorem controlling_requested (s : UiSys) (i j : ℕ) (start : Bool) (env : CallEnv) :
    (s.requested j start env).controlling i =
      (s.controlling i || (!env.refused && decide (j = i))) := by
  change (if env.refused then s.outstanding else s.outstanding ++ [_]).any (isControlOf i) = _
  cases env.refused with
  | true => exact (Bool.or_false _).symm
  | false =>
    rw [if_neg Bool.false_ne_true, controlling_append]
    simp only [isControlOf, Nat.cast_inj]
    rfl

/-- **Between renders** a service stays clear. -/
theorem kept_clear {i : ℕ} (hi : i < maxMonitoredServices) : Kept n i (Clear · i) where
  quiet h hq := h.quiet hq
  called h hc := h.called hc
  congr h hlog hout hu := h.congr (by rw [controlling, hout]; rfl) (by rw [hlog]) hu
  refused call h := h.congr rfl rfl rfl
  other hij h start env := by
    refine h.congr ?_ rfl rfl
    rw [controlling_requested, decide_eq_false hij.symm, Bool.and_false, Bool.or_false]
  otherFailed hij h call :=
    h.congr rfl rfl ((congrFun (uiStates_notify _ _) i).trans (noticed_ne hij false))
  failed s call := clear_of fun _ _ => by
    have herror : (s.notifyFailed call i).client.services.uiStates i = .error :=
      (congrFun (uiStates_notify s.client ⟨call, i, false⟩) i).trans (noticed_self hi)
    rw [herror]
    exact ⟨SvcUiState.noConfusion, SvcUiState.noConfusion⟩
  accepted s start env href := clear_of fun hc => by
    rw [controlling_requested, href, decide_eq_true rfl, Bool.not_false, Bool.and_true,
      Bool.or_true] at hc
    cases hc

/-- What holds of all services. -/
def AllClear (s : UiSys) : Prop := ∀ i < s.status.serviceCount, Clear s i

theorem allClear_handleButton (hready : Ready n s) (hn : n ≤ maxMonitoredServices)
    (h : AllClear s) (key : UInt8) (longPress : Bool) (nowMs : UInt64) (env : CallEnv) :
    AllClear (s.handleButton key longPress nowMs env) := by
  intro i hi
  rw [(hready.handleButton hn key longPress nowMs env).count] at hi
  exact (kept_clear (hi.trans_le hn)).handleButton hready hn (h i (by rw [hready.count]; exact hi))
    key longPress nowMs env

theorem allClear_tick (hready : Ready n s) (hn : n ≤ maxMonitoredServices) (h : AllClear s)
    {cfg : List CStr} (hcfg : cfg.length = n) (nowMs queryNowMs : UInt64) (env : ℕ → CallEnv) :
    AllClear (s.tick cfg nowMs queryNowMs env) := by
  intro i hi
  rw [(hready.tick hcfg nowMs queryNowMs env).count] at hi
  exact (kept_clear (hi.trans_le hn)).tick hready (h i (by rw [hready.count]; exact hi)) hcfg nowMs
    queryNowMs env

/-! ## Renders -/

/-- The render to come shows the services page. -/
def Draws (s : UiSys) : Prop :=
  s.client.needsRender = true ∧ s.client.powerOn = true ∧ s.client.pageCtrl.Shows

/-- **The condition.** If the services page is about to be rendered, every service whose control
operations are over and that has been queried since is seen to do what its transition asks for. -/
def Agreed (s : UiSys) : Prop :=
  s.Draws → ∀ i < s.status.serviceCount, s.controlling i = false → answeredSince i s.log = true →
    Agreeing (s.client.services.uiStates i) (s.status.services i)

/-- The condition on an event of a run. -/
def AgreedAt (cfg : List CStr) (s : UiSys) : Event → Prop
  | .button key longPress nowMs env => Agreed (s.handleButton key longPress nowMs env)
  | .timer nowMs queryNowMs env => Agreed (s.tick cfg nowMs queryNowMs env)
  | .complete _ _ => True

theorem uiStates_sync {st : ServicesState} {status : SysStatus} (hi : i < status.serviceCount)
    (hn : status.serviceCount ≤ maxMonitoredServices) :
    (st.sync status).uiStates i = ServicesState.syncState (status.services i) (st.uiStates i) :=
  if_pos ⟨hi, by omega⟩

theorem allClear_render (hready : Ready n s) (hn : n ≤ maxMonitoredServices) (h : AllClear s)
    (nowMs : UInt64) : AllClear (s.render nowMs) ↔ Agreed s := by
  have hr := hready.rendered nowMs
  generalize s.render nowMs = s' at hr ⊢
  cases hr with
  | skipped hskip =>
    refine iff_of_true (fun i hi => (h i hi).congr rfl rfl rfl) fun hdraws => ?_
    rw [hdraws.1, hdraws.2.1] at hskip
    exact absurd hskip (by decide)
  | other hneeds hpower hshows hpc hscreen hserv =>
    refine iff_of_true (fun i hi => (h i hi).congr rfl ?_ ?_) fun hdraws => ?_
    · simp only [sent, shownSince, ne_eq, not_true_eq_false, decide_false, Bool.false_and,
        Bool.false_or]
    · exact congrFun (congrArg ServicesState.uiStates hserv) i
    · exact absurd hdraws.2.2 hshows
  | services hneeds hpower hshows hpc hscreen hserv =>
    rename_i pc
    have hcount := hready.count
    have hstate : ∀ i < s.status.serviceCount, pc.services.uiStates i =
        ServicesState.syncState (s.status.services i) (s.client.services.uiStates i) := by
      intro i hi
      rw [hserv]
      exact uiStates_sync hi (by omega)
    have hshown : ∀ i drawn, shownSince i (.client (.frame [drawn]) :: s.log) =
        (answeredSince i s.log || shownSince i s.log) := fun i drawn => by
      simp only [shownSince, ne_eq, List.cons_ne_nil, not_false_eq_true, decide_true,
        Bool.true_and]
    constructor
    · intro hall _ i hi hc ha
      have hrest := (hall i hi hc ((hshown i _).trans (by rw [ha]; rfl))).1
      change Rests (pc.services.uiStates i) at hrest
      rw [hstate i hi] at hrest
      exact (rests_syncState _ _).1 hrest
    · intro hagreed i hi
      refine clear_of fun hc hs => ?_
      change Rests (pc.services.uiStates i)
      rw [hstate i hi]
      refine (rests_syncState _ _).2 (hagreed ⟨hneeds, hpower, hshows⟩ i hi hc ?_)
      rcases Bool.or_eq_true_iff.1 ((hshown i _).symm.trans hs) with ha | hs
      · exact ha
      · exact answeredSince_of_shownSince hs

/-! ## Runs -/

theorem allClear_step (hready : Ready n s) (hn : n ≤ maxMonitoredServices) (h : AllClear s)
    {cfg : List CStr} (hcfg : cfg.length = n) (e : Event) :
    AllClear (step cfg s e) ↔ AgreedAt cfg s e := by
  cases e with
  | button key longPress nowMs env =>
    exact allClear_render (hready.handleButton hn key longPress nowMs env) hn
      (allClear_handleButton hready hn h key longPress nowMs env) nowMs
  | timer nowMs queryNowMs env =>
    exact allClear_render (hready.tick hcfg nowMs queryNowMs env) hn
      (allClear_tick hready hn h hcfg nowMs queryNowMs env) nowMs
  | complete call a =>
    refine iff_of_true (fun i hi => ?_) trivial
    have hcount := (hready.deliver call a).count.trans hready.count.symm
    exact (h i (hcount ▸ hi)).called (hready.called call a)

/-- **Transitions end.** For every value of `MONITORED_SERVICES` and every run: in all its states
every service is clear, precisely if every render of the services page that finds a transition
whose operation is over, after the service has been queried, finds the flag that was asked for. -/
theorem cleared_iff (servicesStr : CStr) (es : List Event) :
    let cfg := serviceConfigInit servicesStr
    Throughout (step cfg) AllClear (uiControllerInit cfg true true) es ↔
      Along (step cfg) (AgreedAt cfg) (uiControllerInit cfg true true) es := by
  intro cfg
  have hn : cfg.length ≤ maxMonitoredServices :=
    (ServiceConfig.valid_serviceConfigInit servicesStr).length
  refine throughout_iff_along (I := Ready cfg.length) (fun s e h _ => h.step hn rfl e)
    (fun s e h hall => allClear_step h hn hall rfl e) (ready_init cfg) (fun i _ => ?_) es
  exact clear_of fun _ hs => by cases hs

/-- A start is confirmed and accepted while the user leaves the page; the service is found stopped
before he returns. -/
def stoppedAgain : List Event :=
  [.button keyK3 false 100 {}, .timer 400 400 fun _ => {},
    .complete 0 { installed := true, nowMs := 450 },
    .button keyK3 false 500 {}, .timer 800 800 fun _ => {},
    .button keyK2 true 900 {}, .timer 1200 1200 fun _ => {},
    .button keyK2 false 1300 {}, .button keyK1 false 1400 {}, .button keyK2 false 1500 {},
    .button keyK2 true 1600 {}, .timer 1900 1900 fun _ => {},
    .button keyK1 false 2000 {}, .timer 2300 2300 fun _ => {},
    .complete 1 { success := true },
    .timer 2400 2400 fun _ => {},
    .complete 2 { installed := true, nowMs := 2500 },
    .button keyK3 false 2600 {}]

theorem not_allClear (hover : 0 < s.status.serviceCount ∧ s.controlling 0 = false)
    (hstuck : shownSince 0 s.log = true ∧ s.client.services.uiStates 0 = .starting) :
    ¬AllClear s := fun hall => (hall 0 hover.1 hover.2 hstuck.1).1.1 hstuck.2

/-- The service has stopped, nothing is outstanding, and it still blinks as starting. -/
theorem starting_forever :
    ¬AllClear (after (serviceConfigInit ['c', 'r', 'o', 'n']) stoppedAgain) :=
  not_allClear (by decide +kernel) (by decide +kernel)

end NanoHat.UiSys
