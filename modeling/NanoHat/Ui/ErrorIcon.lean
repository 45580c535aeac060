import NanoHat.Ui.Transitions

/-!
# The error icon

A failed control operation is meant to show as `--` until the service has been queried again. The
page does mark the service, but the mark alone does not select an icon: `--` is drawn only for a
service whose last answer was not OK, and the mark is taken back by the next render if an earlier
answer was. `errorIcons_iff` says exactly when all frames of a run show what they are meant to show.
-/

namespace NanoHat.UiSys

open Sys Runs UbusHal

/-! ## The record -/

/-- What has become of the last failure of a control operation of a service. -/
inductive ErrorPhase
  /-- There is none, a new operation has been requested, or its end has been shown. -/
  | closed
  /-- It stands; `asks` are the queries of the service issued since. -/
  | failed (asks : List ℕ)
  /-- One of them has completed with status OK, and no frame has shown the service page since. -/
  | recovered
  deriving DecidableEq

namespace ErrorPhase

/-- The phase of service `i` after an entry of the record. -/
def next (i : ℕ) (p : ErrorPhase) : Obs UiObs → ErrorPhase
  | .controlCalled _ j _ => if j = i then .closed else p
  | .controlDone _ j success _ => if j = i ∧ success = false then .failed [] else p
  | .client (.failed index) => if index = i then .failed [] else p
  | .queryCalled call j =>
    match p with
    | .failed asks => if j = i then .failed (call :: asks) else p
    | _ => p
  | .queryDone call _ _ a =>
    match p with
    | .failed asks => if a.status = statusOk ∧ call ∈ asks then .recovered else p
    | _ => p
  | .client (.frame drawn) =>
    match p with
    | .recovered => if drawn = [] then p else .closed
    | _ => p
  | _ => p

end ErrorPhase

/-- The phase of service `i` after a history. -/
def errorPhase (i : ℕ) : List (Obs UiObs) → ErrorPhase
  | [] => .closed
  | o :: past => (errorPhase i past).next i o

/-- The queries of service `i` in flight. -/
def inFlight (i : ℕ) : List (Obs UiObs) → List ℕ
  | [] => []
  | .queryCalled call j :: past => if j = i then call :: inFlight i past else inFlight i past
  | .queryDone call _ _ _ :: past => (inFlight i past).filter (· ≠ call)
  | .queryRefused call :: past => (inFlight i past).filter (· ≠ call)
  | _ :: past => inFlight i past

/-- The icons of a service that runs or not. -/
def solidIcon (running : Bool) : Icon := if running then .running else .stopped

/-- The icons of a service that is being queried. -/
def hollowIcon (running : Bool) : Icon := if running then .pendingRun else .pendingStop

/-- What a line of a frame is meant to show, after the history `past`: the error while it stands, or
that the service is being queried, and what runs in the first frame after it has ended. -/
def LineOk (past : List (Obs UiObs)) (running : Bool) (line : ServiceLine) : Prop :=
  match errorPhase line.index past with
  | .closed => True
  | .failed _ =>
    line.icon = .unknown ∨ inFlight line.index past ≠ [] ∧ line.icon = hollowIcon running
  | .recovered => line.icon = solidIcon running

/-- A frame shows what it is meant to show. -/
def FrameOk : Obs UiObs → List (Obs UiObs) → Prop
  | .client (.frame drawn), past =>
    ∀ f ∈ drawn, ∀ line ∈ f.lines, LineOk past (f.running.getD line.index false) line
  | _, _ => True

/-- All frames have shown what they were meant to show. -/
def ErrorIcons (s : UiSys) : Prop := Always FrameOk s.log

variable {n : ℕ} {s s' : UiSys} {i : ℕ}

/-! ## Failures and transitions -/

theorem next_ne_closed {p : ErrorPhase} {o : Obs UiObs} (h : p.next i o ≠ .closed)
    (hdone : ∀ call queries, o ≠ .controlDone call i false queries)
    (hfailed : o ≠ .client (.failed i)) : p ≠ .closed := by
  rintro rfl
  refine h ?_
  cases o with
  | controlDone call j success queries =>
    refine if_neg fun hc => ?_
    obtain ⟨rfl, rfl⟩ := hc
    exact hdone call queries rfl
  | client o =>
    cases o with
    | frame drawn => rfl
    | failed index =>
      refine if_neg fun hc => ?_
      subst hc
      exact hfailed rfl
  | controlCalled call j start => exact ite_self _
  | queryCalled call j => rfl
  | queryDone call k written a => rfl
  | queryRefused call => rfl
  | controlRefused call => rfl

/-- A service whose failure is still open is in no transition. -/
def Settled (s : UiSys) (i : ℕ) : Prop :=
  errorPhase i s.log ≠ .closed → Rests (s.client.services.uiStates i)

theorem Settled.quiet (h : Settled s i) (hq : Quiet s s') : Settled s' i := by
  intro hphase
  rw [hq.client]
  rcases hq.log with heq | ⟨o, ho, heq⟩
  · rw [heq] at hphase
    exact h hphase
  · rw [heq] at hphase
    refine h (next_ne_closed hphase ?_ ?_)
    · rintro call queries rfl
      exact ho
    · rintro rfl
      exact ho

theorem Settled.called {a : Answer} (h : Settled s i) (hn : n ≤ maxMonitoredServices)
    (hc : Called n s a s') : Settled s' i := by
  cases hc with
  | nothing => exact h
  | query written hout hstatus hlt =>
    exact fun hphase => h (next_ne_closed hphase (fun _ _ heq => by cases heq) fun heq => by cases heq)
  | control hout hlt =>
    rename_i call j start service l₁ l₂ queries
    intro hphase
    change Rests ((s.client.notify ⟨some call, j, a.success⟩).services.uiStates i)
    rw [uiStates_notify]
    by_cases hij : i = j
    · subst hij
      unfold ServicesState.noticed
      dsimp only
      rw [if_neg (by omega)]
      split
      · rename_i hok
        refine h (next_ne_closed hphase ?_ fun heq => by cases heq)
        intro call' queries' heq
        injection heq with _ _ hfalse _
        rw [hok] at hfalse
        cases hfalse
      · rw [Int.toNat_natCast, Function.update_self]
        exact ⟨SvcUiState.noConfusion, SvcUiState.noConfusion⟩
    · rw [noticed_ne hij]
      refine h (next_ne_closed hphase ?_ fun heq => by cases heq)
      intro call' queries' heq
      injection heq with _ hj _ _
      exact hij hj.symm

theorem Settled.congr (h : Settled s i) (hphase : errorPhase i s'.log ≠ .closed →
    errorPhase i s.log ≠ .closed)
    (hu : s'.client.services.uiStates i = s.client.services.uiStates i) : Settled s' i := by
  intro hp
  rw [hu]
  exact h (hphase hp)

/-- **Between renders** a service stays settled. -/
theorem kept_settled (hn : n ≤ maxMonitoredServices) {i : ℕ} (hi : i < maxMonitoredServices) :
    Kept n i (Settled · i) where
  quiet h hq := h.quiet hq
  called h hc := h.called hn hc
  congr h hlog hout hu := h.congr (by rw [hlog]; exact id) hu
  refused call h := h.congr id rfl
  other hij h start env := h.congr (fun hp => next_ne_closed hp (fun _ _ heq => by cases heq)
    fun heq => by cases heq) rfl
  otherFailed hij h call := by
    refine h.congr (fun hp => next_ne_closed hp (fun _ _ heq => by cases heq) fun heq => ?_)
      ((congrFun (uiStates_notify _ _) i).trans (noticed_ne hij false))
    injection heq with heq
    injection heq with heq
    exact hij (by exact_mod_cast heq.symm)
  failed s call _ := by
    have herror : (s.notifyFailed call i).client.services.uiStates i = .error :=
      (congrFun (uiStates_notify s.client ⟨call, i, false⟩) i).trans (noticed_self hi)
    rw [herror]
    exact ⟨SvcUiState.noConfusion, SvcUiState.noConfusion⟩
  accepted s start env href hphase := by
    refine absurd ?_ hphase
    exact if_pos (Int.toNat_natCast i)

/-! ## Frames -/

/-- An entry that is no frame. -/
theorem frameOk_other {o : Obs UiObs} (h : ∀ drawn, o ≠ .client (.frame drawn))
    (past : List (Obs UiObs)) : FrameOk o past := by
  cases o with
  | client o =>
    cases o with
    | frame drawn => exact absurd rfl (h drawn)
    | failed index => trivial
  | controlDone call j success queries => trivial
  | controlCalled call j start => trivial
  | queryCalled call j => trivial
  | queryDone call k written a => trivial
  | queryRefused call => trivial
  | controlRefused call => trivial

/-- The entries that a frame shows. -/
def visible (st : ServicesState) (status : SysStatus) : List ℕ :=
  if status.serviceCount = 0 then []
  else
    ((List.range ServicesState.visibleLines).takeWhile
      fun i : ℕ => st.scrollOffset + i < status.serviceCount).map
        fun i : ℕ => (st.scrollOffset + i).toNat

/-- **The condition** for entry `i` when it is drawn. -/
def Telling (s : UiSys) (i : ℕ) : Prop :=
  let svc := s.status.services i
  match errorPhase i s.log with
  | .closed => True
  | .failed _ => if svc.queryPending then inFlight i s.log ≠ [] else svc.statusValid = false
  | .recovered => svc.queryPending = false ∧ svc.statusValid = true

theorem solidIcon_ne_hollowIcon (r r' : Bool) : solidIcon r ≠ hollowIcon r' := by
  cases r <;> cases r' <;> exact Icon.noConfusion

theorem steadyIcon_eq (svc : ServiceStatus) : ServicesState.steadyIcon svc =
    if svc.queryPending then hollowIcon svc.running
    else if svc.statusValid then solidIcon svc.running else .unknown := by
  unfold ServicesState.steadyIcon hollowIcon solidIcon
  cases svc.queryPending <;> cases svc.statusValid <;> rfl

/-- A line is as it should be precisely under the condition. -/
theorem lineOk_iff {line : ServiceLine} (hicon : errorPhase line.index s.log ≠ .closed →
    line.icon = ServicesState.steadyIcon (s.status.services line.index)) :
    LineOk s.log (s.status.services line.index).running line ↔ Telling s line.index := by
  unfold LineOk Telling
  generalize s.status.services line.index = svc at hicon ⊢
  have hne : ∀ r, solidIcon r ≠ .unknown := fun r => by cases r <;> exact Icon.noConfusion
  have hne' : ∀ r, hollowIcon r ≠ .unknown := fun r => by cases r <;> exact Icon.noConfusion
  cases hphase : errorPhase line.index s.log with
  | closed => exact Iff.rfl
  | failed asks =>
    rw [hphase] at hicon
    dsimp only
    rw [hicon ErrorPhase.noConfusion, steadyIcon_eq]
    cases svc.queryPending <;> cases svc.statusValid
    all_goals simp [hne, hne', solidIcon_ne_hollowIcon, (hne' _).symm]
  | recovered =>
    rw [hphase] at hicon
    dsimp only
    rw [hicon ErrorPhase.noConfusion, steadyIcon_eq]
    cases svc.queryPending <;> cases svc.statusValid
    all_goals simp [(hne _).symm, (solidIcon_ne_hollowIcon _ _).symm]

/-- The lines of a frame. -/
theorem lines_servicesRender (st : ServicesState) (status : SysStatus) (mode : PageMode)
    (nowMs : UInt64) :
    let f := (st.servicesRender status mode nowMs).1
    f.lines.map ServiceLine.index = visible st status ∧
      ∀ line ∈ f.lines, line.index < status.serviceCount ∧
        f.running.getD line.index false = (status.services line.index).running ∧
        line.icon = (st.sync status).getServiceIcon (status.services line.index)
          ((st.sync status).uiStates line.index) nowMs line.index := by
  unfold ServicesState.servicesRender visible
  split
  · exact ⟨rfl, fun line hline => nomatch hline⟩
  rename_i hpos
  refine ⟨?_, fun line hline => ?_⟩
  · unfold ServicesState.renderLines
    rw [List.map_map]
    rfl
  · obtain ⟨k, hk, rfl⟩ := List.mem_map.1 hline
    have hsync : (st.sync status).scrollOffset = st.scrollOffset := rfl
    rw [hsync] at hk
    have hlt : st.scrollOffset + k < status.serviceCount := by
      simpa using List.mem_takeWhile_imp hk
    have hindex : (st.scrollOffset + k).toNat < status.serviceCount := by omega
    refine ⟨hindex, ?_, rfl⟩
    change ((List.range status.serviceCount).map fun i => (status.services i).running).getD
      (st.scrollOffset + k).toNat false = _
    rw [List.getD_eq_getElem _ _ (by simpa using hindex), List.getElem_map, List.getElem_range]
    rfl

/-- A frame is as it should be precisely under the condition on the entries it shows. -/
theorem frameOk_iff (hready : Ready n s) (hn : n ≤ maxMonitoredServices)
    (hset : ∀ i < s.status.serviceCount, Settled s i) (nowMs : UInt64) :
    FrameOk (.client (.frame
        [(s.client.services.servicesRender s.status s.client.pageCtrl.pageMode nowMs).1])) s.log ↔
      ∀ i ∈ visible s.client.services s.status, Telling s i := by
  obtain ⟨hindex, hlines⟩ := lines_servicesRender s.client.services s.status
    s.client.pageCtrl.pageMode nowMs
  generalize (s.client.services.servicesRender s.status s.client.pageCtrl.pageMode nowMs).1 = f
    at hindex hlines ⊢
  have hline : ∀ line ∈ f.lines,
      LineOk s.log (f.running.getD line.index false) line ↔ Telling s line.index := by
    intro line hmem
    obtain ⟨hlt, hrun, hicon⟩ := hlines line hmem
    rw [hrun]
    refine lineOk_iff fun hphase => hicon.trans (icon_of_rests ?_ _ _ _ _)
    have hrest := hset _ hlt hphase
    rw [uiStates_sync hlt (by rw [hready.count]; exact hn)]
    exact (rests_syncState _ _).2 ⟨fun hc => absurd hc hrest.1, fun hc => absurd hc hrest.2⟩
  have hframe : FrameOk (.client (.frame [f])) s.log ↔
      ∀ line ∈ f.lines, LineOk s.log (f.running.getD line.index false) line :=
    List.forall_mem_singleton
  rw [hframe, ← hindex]
  constructor
  · intro hok i hi
    obtain ⟨line, hmem, rfl⟩ := List.mem_map.1 hi
    exact (hline line hmem).1 (hok line hmem)
  · intro htell line hmem
    exact (hline line hmem).2 (htell _ (List.mem_map_of_mem hmem))

/-! ## Runs -/

/-- The condition on a render to come. -/
def Told (s : UiSys) : Prop :=
  s.Draws → ∀ i ∈ visible s.client.services s.status, Telling s i

/-- The condition on an event of a run. -/
def ToldAt (cfg : List CStr) (s : UiSys) : Event → Prop
  | .button key longPress nowMs env => Told (s.handleButton key longPress nowMs env)
  | .timer nowMs queryNowMs env => Told (s.tick cfg nowMs queryNowMs env)
  | .complete _ _ => True

/-- What frames rely on. -/
structure Prepared (n : ℕ) (s : UiSys) : Prop where
  ready : Ready n s
  settled : ∀ i < n, Settled s i

theorem errorIcons_render (h : Prepared n s) (hn : n ≤ maxMonitoredServices) (hok : ErrorIcons s)
    (nowMs : UInt64) : (ErrorIcons (s.render nowMs) ↔ Told s) ∧ Prepared n (s.render nowMs) := by
  have hready := h.ready.render nowMs
  have hr := h.ready.rendered nowMs
  have hcount := h.ready.count
  have hnone : ∀ {p : Prop}, (s.client.needsRender = false ∨ s.client.powerOn = false) →
      s.Draws → p := by
    intro p hskip hdraws
    rw [hdraws.1, hdraws.2.1] at hskip
    exact absurd hskip (by decide)
  generalize s.render nowMs = s' at hr hready ⊢
  cases hr with
  | skipped hskip =>
    exact ⟨iff_of_true hok (hnone hskip), hready, fun i hi => (h.settled i hi).congr id rfl⟩
  | other hneeds hpower hshows hpc hscreen hserv =>
    rename_i pc
    have hframe : ErrorIcons (s.sent pc []) := ⟨(fun _ hf => nomatch hf), hok⟩
    refine ⟨iff_of_true hframe fun hdraws => absurd hdraws.2.2 hshows, hready, fun i hi =>
      (h.settled i hi).congr ?_ (congrFun (congrArg ServicesState.uiStates hserv) i)⟩
    exact fun hp => next_ne_closed hp (fun _ _ heq => by cases heq) fun heq => by cases heq
  | services hneeds hpower hshows hpc hscreen hserv =>
    rename_i pc
    have hframe := frameOk_iff h.ready hn (fun i hi => h.settled i (hcount ▸ hi)) nowMs
    refine ⟨?_, hready, fun i hi hphase => ?_⟩
    · unfold ErrorIcons
      rw [sent, always_cons, hframe]
      exact ⟨fun hall _ => hall.1, fun htold => ⟨htold ⟨hneeds, hpower, hshows⟩, hok⟩⟩
    · have hrest := h.settled i hi (next_ne_closed hphase (fun _ _ heq => by cases heq)
        fun heq => by cases heq)
      change Rests (pc.services.uiStates i)
      rw [hserv, uiStates_sync (by omega) (by omega)]
      exact (rests_syncState _ _).2 ⟨fun hc => absurd hc hrest.1, fun hc => absurd hc hrest.2⟩

/-- Between renders no frame is added. -/
theorem ErrorIcons.quiet (h : ErrorIcons s) (hq : Quiet s s') : ErrorIcons s' := by
  unfold ErrorIcons
  rcases hq.log with heq | ⟨o, ho, heq⟩
  · rw [heq]
    exact h
  · rw [heq]
    refine ⟨frameOk_other ?_ _, h⟩
    rintro drawn rfl
    exact ho

theorem ErrorIcons.called {a : Answer} (h : ErrorIcons s) (hc : Called n s a s') :
    ErrorIcons s' := by
  cases hc with
  | nothing => exact h
  | query => exact ⟨trivial, h⟩
  | control => exact ⟨trivial, h⟩

theorem ErrorIcons.deliverAll (hready : Ready n s) (h : ErrorIcons s)
    (completions : List (ℕ × Answer)) : ErrorIcons (s.deliverAll completions) :=
  hready.deliverAll_keeps ErrorIcons.called h completions

theorem ErrorIcons.handleButton (hready : Ready n s) (hn : n ≤ maxMonitoredServices)
    (h : ErrorIcons s) (key : UInt8) (longPress : Bool) (nowMs : UInt64) (env : CallEnv) :
    ErrorIcons (s.handleButton key longPress nowMs env) := by
  have hs := hready.handled hn key longPress nowMs env
  generalize s.handleButton key longPress nowMs env = s' at hs ⊢
  cases hs with
  | other hnot hpc hstill hview hscreen => exact h
  | confirm hconf hi hlt hpc hon hserv =>
    rename_i pc i
    have hpaged : ErrorIcons (s.paged pc) := h
    have hasked : ∀ start, ErrorIcons ((s.paged pc).requested i start env) := fun _ => ⟨trivial, h⟩
    have hsub := (hready.paged hpc).submitted hlt (!s.client.services.cachedRunning i) env
    have hall := (hasked (!s.client.services.cachedRunning i)).deliverAll
      ((hready.paged hpc).requested hlt _ env) env.completions
    generalize (s.paged pc).submit (Nat.cast i) (!s.client.services.cachedRunning i) env = s₁
      at hsub ⊢
    cases hsub with
    | noMemory => exact ⟨trivial, h⟩
    | refused => exact ⟨trivial, trivial, hall⟩
    | accepted => exact hall

theorem ErrorIcons.tick (hready : Ready n s) (h : ErrorIcons s) {cfg : List CStr}
    (hcfg : cfg.length = n) (nowMs queryNowMs : UInt64) (env : ℕ → CallEnv) :
    ErrorIcons (s.tick cfg nowMs queryNowMs env) := by
  have hticked : ErrorIcons (s.ticked nowMs) := h
  obtain ⟨s₁, changed, h₁, heq, -⟩ :=
    hready.tick_keeps ErrorIcons.quiet ErrorIcons.called hcfg nowMs queryNowMs env hticked
  rw [heq]
  exact h₁

theorem Prepared.handleButton (h : Prepared n s) (hn : n ≤ maxMonitoredServices) (key : UInt8)
    (longPress : Bool) (nowMs : UInt64) (env : CallEnv) :
    Prepared n (s.handleButton key longPress nowMs env) :=
  ⟨h.ready.handleButton hn key longPress nowMs env, fun i hi =>
    (kept_settled hn (hi.trans_le hn)).handleButton h.ready hn (h.settled i hi) key longPress nowMs
      env⟩

theorem Prepared.tick (h : Prepared n s) (hn : n ≤ maxMonitoredServices) {cfg : List CStr}
    (hcfg : cfg.length = n) (nowMs queryNowMs : UInt64) (env : ℕ → CallEnv) :
    Prepared n (s.tick cfg nowMs queryNowMs env) :=
  ⟨h.ready.tick hcfg nowMs queryNowMs env, fun i hi =>
    (kept_settled hn (hi.trans_le hn)).tick h.ready (h.settled i hi) hcfg nowMs queryNowMs env⟩

theorem errorIcons_step (h : Prepared n s) (hn : n ≤ maxMonitoredServices) (hok : ErrorIcons s)
    {cfg : List CStr} (hcfg : cfg.length = n) (e : Event) :
    (ErrorIcons (step cfg s e) ↔ ToldAt cfg s e) ∧ Prepared n (step cfg s e) := by
  cases e with
  | button key longPress nowMs env =>
    exact errorIcons_render (h.handleButton hn key longPress nowMs env) hn
      (hok.handleButton h.ready hn key longPress nowMs env) nowMs
  | timer nowMs queryNowMs env =>
    exact errorIcons_render (h.tick hn hcfg nowMs queryNowMs env) hn
      (hok.tick h.ready hcfg nowMs queryNowMs env) nowMs
  | complete call a =>
    have hc := h.ready.called call a
    exact ⟨iff_of_true (hok.called hc) trivial, h.ready.deliver call a, fun i hi =>
      (h.settled i hi).called hn hc⟩

/-- **Errors are shown.** For every value of `MONITORED_SERVICES` and every run: all frames show
the error icon while a failure stands and what runs in the first frame after it has ended, precisely
if every render meets the condition for the entries that it shows. -/
theorem errorIcons_iff (servicesStr : CStr) (es : List Event) :
    let cfg := serviceConfigInit servicesStr
    Throughout (step cfg) ErrorIcons (uiControllerInit cfg true true) es ↔
      Along (step cfg) (ToldAt cfg) (uiControllerInit cfg true true) es := by
  intro cfg
  have hn : cfg.length ≤ maxMonitoredServices :=
    (ServiceConfig.valid_serviceConfigInit servicesStr).length
  exact throughout_iff_along (I := Prepared cfg.length)
    (fun s e h hok => (errorIcons_step h hn hok rfl e).2)
    (fun s e h hok => (errorIcons_step h hn hok rfl e).1)
    ⟨ready_init cfg, fun i _ hphase => absurd rfl hphase⟩ trivial es

/-- The newest frame shows a service as stopped although its failure stands. -/
def hidesError (s : UiSys) : Bool :=
  match s.log with
  | .client (.frame [f]) :: past =>
    f.lines.any fun line => errorPhase line.index past = .failed [] && line.icon = .stopped
  | _ => false

theorem not_errorIcons (h : s.hidesError = true) : ¬ErrorIcons s := by
  unfold hidesError at h
  unfold ErrorIcons
  split at h
  · rename_i f past hlog
    obtain ⟨line, hmem, hbad⟩ := List.any_eq_true.1 h
    obtain ⟨hphase, hicon⟩ := Bool.and_eq_true_iff.1 hbad
    rw [hlog]
    intro hall
    have hline := hall.1 f (List.mem_singleton_self f) line hmem
    unfold LineOk at hline
    rw [of_decide_eq_true hphase, of_decide_eq_true hicon] at hline
    rcases hline with hunknown | ⟨-, hhollow⟩
    · cases hunknown
    · cases hr : f.running.getD line.index false <;> rw [hr] at hhollow <;> cases hhollow
  · cases h

/-- The service has been queried, and then the HAL refuses to start it. -/
def refusedStart : List Event :=
  [.button keyK3 false 100 {}, .timer 400 400 fun _ => {},
    .complete 0 { installed := true, nowMs := 450 },
    .button keyK3 false 500 {}, .timer 800 800 fun _ => {},
    .button keyK2 true 900 {}, .timer 1200 1200 fun _ => {},
    .button keyK2 false 1300 {}, .button keyK1 false 1400 {},
    .button keyK2 false 1500 { refused := true }]

/-- The frame after the failure shows the service as stopped. -/
theorem error_hidden : ¬ErrorIcons (after (serviceConfigInit ['c', 'r', 'o', 'n']) refusedStart) :=
  not_errorIcons (by decide +kernel)

end NanoHat.UiSys
