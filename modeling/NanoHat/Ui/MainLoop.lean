import NanoHat.Hal.Gpio
import NanoHat.Ui.UiSteps

/-!
# The main loop

`main.c`: the callbacks that uloop runs, the power state sent to the panel and the one-shot timer of
the UI, which both callbacks re-arm by hand. The power state is kept in four places: the screen state
of the page controller, `power_on`, the flag to draw and the panel. Each time control returns to
uloop they agree, the timer of a lit screen is armed, and a dark screen costs neither a query nor a
look at `/proc` (`inStep_after`).
-/

namespace NanoHat

open Sys

/-! ## The program -/

namespace Ui

/-- The call of `set_power` in `ui_controller_render`, if it is made. -/
def setPower (ui : Ui) : Option Bool :=
  if !ui.needsRender then none
  else if !ui.powerOn then some false
  else if !ui.displayReady then none
  else some true

/-- `UI_TICK_ANIM_MS`. -/
abbrev uiTickAnimMs : ℤ := 20

/-- `UI_TICK_STATIC_MS`. -/
abbrev uiTickStaticMs : ℤ := 1000

/-- `UI_TICK_IDLE_MS`. -/
abbrev uiTickIdleMs : ℤ := 0

/-- `ui_controller_next_timeout_ms`. -/
def nextTimeoutMs (ui : Ui) : ℤ :=
  if !ui.pageCtrl.isScreenOn then uiTickIdleMs
  else if ui.pageCtrl.isAnimating then uiTickAnimMs
  else uiTickStaticMs

end Ui

/-- The static state of `main.c` at a moment when uloop runs: the UI, the power state last sent to
the panel, and the time for which `g_ui_timer` is armed. -/
structure MainLoop where
  ui : UiSys
  panel : Option Bool := none
  timer : Option ℤ := none

namespace MainLoop

/-- `ui_controller_render`, with its effect on the panel. -/
def render (m : MainLoop) (nowMs : UInt64) : MainLoop :=
  { m with ui := m.ui.render nowMs, panel := m.ui.client.setPower.or m.panel }

/-- `schedule_ui_timer`. -/
def scheduleUiTimer (m : MainLoop) : MainLoop :=
  let nextMs := m.ui.client.nextTimeoutMs
  if nextMs > 0 then { m with timer := some nextMs } else m

/-- The key and the long-press flag of an event type; no key is 0. -/
def buttonKey : Gpio.EventType → UInt8 × Bool
  | .btnK1Short => (keyK1, false)
  | .btnK2Short => (keyK2, false)
  | .btnK3Short => (keyK3, false)
  | .btnK1Long => (keyK1, true)
  | .btnK2Long => (keyK2, true)
  | .btnK3Long => (keyK3, true)
  | .none => (0, false)

/-- `handle_button_event`. -/
def handleButtonEvent (m : MainLoop) (event : Gpio.GpioEvent) (env : CallEnv) : MainLoop :=
  let nowMs := event.timestampNs / 1000000
  let (key, longPress) := buttonKey event.type
  if key ≠ 0 then
    (render { m with ui := m.ui.handleButton key longPress nowMs env } nowMs).scheduleUiTimer
  else m

/-- `gpio_fd_cb`, for the events that `read_event` returns until there are none. -/
def gpioFdCb (m : MainLoop) (events : List (Gpio.GpioEvent × CallEnv)) : MainLoop :=
  events.foldl (fun m e => m.handleButtonEvent e.1 e.2) m

/-- `ui_timer_cb`. -/
def uiTimerCb (cfg : List CStr) (m : MainLoop) (nowMs queryNowMs : UInt64)
    (env : ℕ → CallEnv) : MainLoop :=
  (render { m with ui := m.ui.tick cfg nowMs queryNowMs env } nowMs).scheduleUiTimer

/-- The state in which `main` enters uloop, with the status context and the display there. -/
def main (cfg : List CStr) (nowMs queryNowMs : UInt64) (env : ℕ → CallEnv) : MainLoop :=
  uiTimerCb cfg { ui := UiSys.uiControllerInit cfg true true } nowMs queryNowMs env

/-- What uloop calls. -/
inductive Event
  | gpio (events : List (Gpio.GpioEvent × CallEnv))
  /-- The UI timer expires. -/
  | timer (nowMs queryNowMs : UInt64) (env : ℕ → CallEnv)
  /-- The HAL calls back. -/
  | ubus (call : ℕ) (a : Answer)

/-- The state when control returns to uloop; a timer that is not armed does not expire. -/
def step (cfg : List CStr) (m : MainLoop) : Event → MainLoop
  | .gpio events => m.gpioFdCb events
  | .timer nowMs queryNowMs env =>
    if m.timer.isSome then uiTimerCb cfg { m with timer := none } nowMs queryNowMs env else m
  | .ubus call a => { m with ui := m.ui.deliver call a }

/-! ## The screen -/

/-- What the screen shows is left alone. -/
structure SameScreen (s s' : UiSys) : Prop where
  power : s'.client.powerOn = s.client.powerOn
  needs : s'.client.needsRender = s.client.needsRender
  screen : s'.client.pageCtrl.screenState = s.client.pageCtrl.screenState
  anim : s'.client.pageCtrl.anim = s.client.pageCtrl.anim

variable {n : ℕ} {s s' : UiSys}

theorem SameScreen.refl (s : UiSys) : SameScreen s s := ⟨rfl, rfl, rfl, rfl⟩

theorem SameScreen.of_client {s₀ : UiSys} (h : SameScreen s₀ s) (hclient : s'.client = s.client) :
    SameScreen s₀ s' := by
  refine ⟨?_, ?_, ?_, ?_⟩
  · rw [hclient, h.power]
  · rw [hclient, h.needs]
  · rw [hclient, h.screen]
  · rw [hclient, h.anim]

theorem SameScreen.notify {s₀ : UiSys} (h : SameScreen s₀ s) (m : Notice)
    (hclient : s'.client = s.client.notify m) : SameScreen s₀ s' := by
  refine ⟨?_, ?_, ?_, ?_⟩
  · rw [hclient]
    exact h.power
  · rw [hclient]
    exact h.needs
  · rw [hclient]
    exact h.screen
  · rw [hclient]
    exact h.anim

theorem SameScreen.called {s₀ : UiSys} {a : Answer} (h : SameScreen s₀ s)
    (hc : UiSys.Called n s a s') : SameScreen s₀ s' := by
  cases hc with
  | nothing => exact h
  | query => exact h.of_client rfl
  | control => exact h.notify _ rfl

/-- After a button event the panel is to be told, or the power state is as before. -/
theorem power_handleButton (h : UiSys.Ready n s) (hn : n ≤ maxMonitoredServices) (key : UInt8)
    (longPress : Bool) (nowMs : UInt64) (env : CallEnv) :
    (s.handleButton key longPress nowMs env).client.needsRender = true ∨
      (s.handleButton key longPress nowMs env).client.powerOn = s.client.powerOn := by
  have hs := h.handled hn key longPress nowMs env
  generalize s.handleButton key longPress nowMs env = s' at hs ⊢
  cases hs with
  | other hnot hpc hstill hview hscreen =>
    rename_i changed pc
    rcases hscreen with rfl | hscreen
    · exact Or.inl rfl
    · refine Or.inr ?_
      change pc.isScreenOn = _
      rw [h.power, PageController.isScreenOn, PageController.isScreenOn, hscreen]
  | confirm hconf hi hlt hpc hon hserv => exact Or.inl rfl

/-- After a tick the panel is to be told, or the power state is as before; a tick that leaves the
screen dark does nothing but move the page controller. -/
theorem power_tick (h : UiSys.Ready n s) {cfg : List CStr} (hcfg : cfg.length = n)
    (nowMs queryNowMs : UInt64) (env : ℕ → CallEnv) :
    let s' := s.tick cfg nowMs queryNowMs env
    (s'.client.needsRender = true ∨ s'.client.powerOn = s.client.powerOn) ∧
      (s.client.needsRender = true → s'.client.needsRender = true) ∧
      (s.client.powerOn = false → s'.client.powerOn = false) ∧
      (s'.client.powerOn = false →
        s'.status = s.status ∧ s'.samples = s.samples ∧ s'.calls = s.calls) := by
  have hscreen : ((s.client.pageCtrl.tick nowMs).1 = true ∧
        (s.ticked nowMs).client.powerOn = false) ∨
      (s.ticked nowMs).client.powerOn = s.client.powerOn := by
    rw [UiSys.powerOn_paged, h.power]
    unfold PageController.isScreenOn
    rcases PageController.tick_screen s.client.pageCtrl nowMs with ⟨hchanged, hoff⟩ | hsame
    · rw [hoff]
      exact Or.inl ⟨hchanged, rfl⟩
    · rw [hsame]
      exact Or.inr rfl
  have hdark : s.client.powerOn = false → (s.ticked nowMs).client.powerOn = false := fun hoff =>
    hscreen.elim And.right fun hsame => hsame.trans hoff
  have hlit : ∀ s' : UiSys, s'.client.powerOn = (s.ticked nowMs).client.powerOn →
      (s.ticked nowMs).client.powerOn = true →
      (s.client.powerOn = false → s'.client.powerOn = false) ∧
        (s'.client.powerOn = false →
          s'.status = s.status ∧ s'.samples = s.samples ∧ s'.calls = s.calls) := by
    intro s' hsame hon
    refine ⟨fun hoff => ?_, fun hoff => ?_⟩
    · rw [hdark hoff] at hon
      cases hon
    · rw [hsame, hon] at hoff
      cases hoff
  dsimp only
  rcases UiSys.tick_cases (h.count.trans hcfg.symm) nowMs queryNowMs env with
    ⟨hq, ⟨-, heq⟩ | heq⟩ | ⟨-, heq⟩
  · rw [heq]
    have hround : SameScreen (s.ticked nowMs).sampled
        ((s.ticked nowMs).sampled.queryServices queryNowMs env).2 :=
      ((h.ticked nowMs).quiet (quiet_sampled _)).queryServices_keeps
        (fun h hq => h.of_client hq.client) SameScreen.called (.refl _) queryNowMs env
    rw [UiSys.needsRender_flag, Bool.true_or]
    exact ⟨Or.inl rfl, fun _ => rfl, hlit _ hround.power hq.1⟩
  · rw [heq, UiSys.needsRender_flag, Bool.true_or]
    exact ⟨Or.inl rfl, fun _ => rfl, hlit _ (UiSys.powerOn_flag _ _) hq.1⟩
  · rw [heq, UiSys.needsRender_flag, UiSys.needsRender_paged, UiSys.powerOn_flag]
    refine ⟨?_, fun hneeds => Bool.or_eq_true_iff.2 (Or.inr hneeds), hdark,
      fun _ => ⟨rfl, rfl, rfl⟩⟩
    rcases hscreen with ⟨hchanged, -⟩ | hsame
    · rw [hchanged]
      exact Or.inl rfl
    · exact Or.inr hsame

/-! ## Control returns to uloop -/

/-- **What holds whenever uloop runs.** -/
structure InStep (m : MainLoop) : Prop where
  /-- The power state last sent to the panel is `power_on`, -/
  panel : m.panel = some m.ui.client.powerOn
  /-- and this is the screen state of the page controller. -/
  power : m.ui.client.powerOn = true ↔ m.ui.client.pageCtrl.screenState = .on
  /-- The timer of a lit screen is armed. -/
  timer : m.ui.client.pageCtrl.screenState = .on →
    m.timer = some (if m.ui.client.pageCtrl.anim.type ≠ .none then 20 else 1000)

theorem power_iff (h : UiSys.Ready n s) :
    s.client.powerOn = true ↔ s.client.pageCtrl.screenState = .on := by
  rw [h.power, PageController.isScreenOn, decide_eq_true_iff]

theorem powerOn_render (h : UiSys.Ready n s) (nowMs : UInt64) :
    (s.render nowMs).client.powerOn = s.client.powerOn := by
  have hr := h.rendered nowMs
  generalize s.render nowMs = s' at hr ⊢
  cases hr with
  | skipped => rfl
  | other => rfl
  | services => rfl

/-- A render tells the panel what is due. -/
theorem setPower_eq {ui : Ui} (hdisplay : ui.displayReady = true) :
    ui.setPower = if ui.needsRender then some ui.powerOn else none := by
  unfold Ui.setPower
  rw [hdisplay]
  cases ui.needsRender <;> cases ui.powerOn <;> rfl

@[simp] theorem ui_scheduleUiTimer (m : MainLoop) : m.scheduleUiTimer.ui = m.ui := by
  unfold scheduleUiTimer
  dsimp only
  split <;> rfl

@[simp] theorem panel_scheduleUiTimer (m : MainLoop) : m.scheduleUiTimer.panel = m.panel := by
  unfold scheduleUiTimer
  dsimp only
  split <;> rfl

@[simp] theorem ui_render (m : MainLoop) (nowMs : UInt64) :
    (m.render nowMs).ui = m.ui.render nowMs := rfl

@[simp] theorem panel_render (m : MainLoop) (nowMs : UInt64) :
    (m.render nowMs).panel = m.ui.client.setPower.or m.panel := rfl

@[simp] theorem ui_uiTimerCb (cfg : List CStr) (m : MainLoop) (nowMs queryNowMs : UInt64)
    (env : ℕ → CallEnv) :
    (uiTimerCb cfg m nowMs queryNowMs env).ui =
      (m.ui.tick cfg nowMs queryNowMs env).render nowMs := by
  unfold uiTimerCb
  rw [ui_scheduleUiTimer, ui_render]

/-- The timer of a lit screen is armed by hand. -/
theorem timer_scheduleUiTimer {m : MainLoop} (h : m.ui.client.pageCtrl.screenState = .on) :
    m.scheduleUiTimer.timer =
      some (if m.ui.client.pageCtrl.anim.type ≠ .none then 20 else 1000) := by
  have hnext : m.ui.client.nextTimeoutMs =
      if m.ui.client.pageCtrl.anim.type ≠ .none then 20 else 1000 := by
    unfold Ui.nextTimeoutMs PageController.isScreenOn PageController.isAnimating
    rw [h]
    by_cases hmoves : m.ui.client.pageCtrl.anim.type = .none
    · rw [hmoves]
      rfl
    · simp only [decide_true, Bool.not_true, Bool.false_eq_true, if_false, ne_eq, hmoves,
        not_false_eq_true, if_true]
  unfold scheduleUiTimer
  dsimp only
  rw [hnext, if_pos (by split <;> decide)]

/-- **A render** brings the panel into step, and then the timer is armed. -/
theorem inStep_render {m : MainLoop} (h : UiSys.Ready n m.ui) (nowMs : UInt64)
    (hpanel : m.ui.client.needsRender = true ∨ m.panel = some m.ui.client.powerOn) :
    InStep (m.render nowMs).scheduleUiTimer where
  panel := by
    rw [panel_scheduleUiTimer, ui_scheduleUiTimer, panel_render, ui_render, powerOn_render h,
      setPower_eq h.display]
    cases hneeds : m.ui.client.needsRender with
    | true => rfl
    | false =>
      rw [hneeds] at hpanel
      exact hpanel.resolve_left Bool.false_ne_true
  power := by
    rw [ui_scheduleUiTimer]
    exact power_iff (h.render nowMs)
  timer hon := by
    rw [ui_scheduleUiTimer] at hon ⊢
    exact timer_scheduleUiTimer hon

/-- What is kept from one callback to the next. -/
structure LoopInv (n : ℕ) (m : MainLoop) : Prop where
  ready : UiSys.Ready n m.ui
  inStep : InStep m

variable {m : MainLoop}

theorem LoopInv.handleButtonEvent (h : LoopInv n m) (hn : n ≤ maxMonitoredServices)
    (event : Gpio.GpioEvent) (env : CallEnv) : LoopInv n (m.handleButtonEvent event env) := by
  unfold MainLoop.handleButtonEvent
  dsimp only
  generalize buttonKey event.type = k
  generalize event.timestampNs / 1000000 = nowMs
  have hready := h.ready.handleButton hn k.1 k.2 nowMs env
  have hpower := power_handleButton h.ready hn k.1 k.2 nowMs env
  generalize m.ui.handleButton k.1 k.2 nowMs env = s' at hready hpower ⊢
  split
  · refine ⟨?_, inStep_render hready nowMs (hpower.imp_right fun hsame => ?_)⟩
    · rw [ui_scheduleUiTimer]
      exact hready.render nowMs
    · rw [hsame]
      exact h.inStep.panel
  · exact h

theorem LoopInv.gpioFdCb (h : LoopInv n m) (hn : n ≤ maxMonitoredServices)
    (events : List (Gpio.GpioEvent × CallEnv)) : LoopInv n (m.gpioFdCb events) := by
  unfold MainLoop.gpioFdCb
  induction events generalizing m with
  | nil => exact h
  | cons e events ih => exact ih (h.handleButtonEvent hn e.1 e.2)

/-- The timer callback; when it is called first, the panel has been told nothing. -/
theorem loopInv_uiTimerCb (m : MainLoop) (h : UiSys.Ready n m.ui) {cfg : List CStr}
    (hcfg : cfg.length = n)
    (hpanel : m.ui.client.needsRender = true ∨ m.panel = some m.ui.client.powerOn)
    (nowMs queryNowMs : UInt64) (env : ℕ → CallEnv) :
    LoopInv n (uiTimerCb cfg m nowMs queryNowMs env) := by
  have hready := h.tick hcfg nowMs queryNowMs env
  obtain ⟨hpower, hneeds, -⟩ := power_tick h hcfg nowMs queryNowMs env
  unfold uiTimerCb
  generalize m.ui.tick cfg nowMs queryNowMs env = s' at hready hpower hneeds ⊢
  refine ⟨?_, inStep_render hready nowMs ?_⟩
  · rw [ui_scheduleUiTimer]
    exact hready.render nowMs
  · rcases hpanel with hdue | hpanel
    · exact Or.inl (hneeds hdue)
    · refine hpower.imp_right fun hsame => ?_
      rw [hsame]
      exact hpanel

theorem LoopInv.step (h : LoopInv n m) (hn : n ≤ maxMonitoredServices) {cfg : List CStr}
    (hcfg : cfg.length = n) (e : Event) : LoopInv n (step cfg m e) := by
  cases e with
  | gpio events => exact h.gpioFdCb hn events
  | timer nowMs queryNowMs env =>
    unfold MainLoop.step
    dsimp only
    split
    · exact loopInv_uiTimerCb { m with timer := none } h.ready hcfg (Or.inr h.inStep.panel) nowMs
        queryNowMs env
    · exact h
  | ubus call a =>
    have hready := h.ready.deliver call a
    have hsame := (SameScreen.refl m.ui).called (h.ready.called call a)
    change LoopInv n { m with ui := m.ui.deliver call a }
    generalize m.ui.deliver call a = s' at hready hsame ⊢
    refine ⟨hready, ?_, power_iff hready, fun hon => ?_⟩
    · change m.panel = some s'.client.powerOn
      rw [hsame.power]
      exact h.inStep.panel
    · have htimer := h.inStep.timer (hsame.screen.symm.trans hon)
      rw [← hsame.anim] at htimer
      exact htimer

/-- A timer event that finds or leaves the screen dark neither touches the status nor samples it nor
calls the HAL. -/
theorem dark_timer (h : LoopInv n m) {cfg : List CStr} (hcfg : cfg.length = n)
    (nowMs queryNowMs : UInt64) (env : ℕ → CallEnv) :
    let m' := step cfg m (.timer nowMs queryNowMs env)
    (m.ui.client.pageCtrl.screenState = .off ∨ m'.ui.client.pageCtrl.screenState = .off) →
      m'.ui.status = m.ui.status ∧ m'.ui.samples = m.ui.samples ∧ m'.ui.calls = m.ui.calls := by
  dsimp only [MainLoop.step]
  split
  · rw [ui_uiTimerCb]
    obtain ⟨-, -, hdark, hquiet⟩ := power_tick h.ready hcfg nowMs queryNowMs env
    have hready := h.ready.tick hcfg nowMs queryNowMs env
    generalize m.ui.tick cfg nowMs queryNowMs env = s' at hdark hquiet hready ⊢
    have hoff : ∀ {s : UiSys}, UiSys.Ready n s → s.client.pageCtrl.screenState = .off →
        s.client.powerOn = false := fun hr hs => by
      rw [hr.power, PageController.isScreenOn, hs]
      rfl
    intro hscreen
    have hpower : s'.client.powerOn = false := by
      rcases hscreen with hs | hs
      · exact hdark (hoff h.ready hs)
      · rw [← powerOn_render hready nowMs]
        exact hoff (hready.render nowMs) hs
    obtain ⟨hstatus, hsamples, hcalls⟩ := hquiet hpower
    have hr := hready.rendered nowMs
    generalize s'.render nowMs = s'' at hr ⊢
    cases hr with
    | skipped => exact ⟨hstatus, hsamples, hcalls⟩
    | other => exact ⟨hstatus, hsamples, hcalls⟩
    | services => exact ⟨hstatus, hsamples, hcalls⟩
  · exact fun _ => ⟨rfl, rfl, rfl⟩

/-! ## Runs -/

/-- The state after the events `es`, for a program that has entered uloop at `nowMs`. -/
abbrev after (cfg : List CStr) (nowMs queryNowMs : UInt64) (env : ℕ → CallEnv)
    (es : List Event) : MainLoop :=
  Runs.run (step cfg) (main cfg nowMs queryNowMs env) es

/-- **The main loop.** For every value of `MONITORED_SERVICES` and every order of events: whenever
control returns to uloop, panel, screen state and power state agree and the timer of a lit screen is
armed; and no timer event calls `sys_status_update_local`, changes the status or sends a query for a
dark screen. -/
theorem inStep_after (servicesStr : CStr) (nowMs queryNowMs : UInt64) (env : ℕ → CallEnv)
    (es : List Event) :
    let cfg := serviceConfigInit servicesStr
    let m := after cfg nowMs queryNowMs env es
    InStep m ∧ ∀ nowMs queryNowMs env,
      let m' := step cfg m (.timer nowMs queryNowMs env)
      (m.ui.client.pageCtrl.screenState = .off ∨ m'.ui.client.pageCtrl.screenState = .off) →
        m'.ui.status = m.ui.status ∧ m'.ui.samples = m.ui.samples ∧
          m'.ui.calls = m.ui.calls := by
  intro cfg m
  have hn : cfg.length ≤ maxMonitoredServices :=
    (ServiceConfig.valid_serviceConfigInit servicesStr).length
  have hinv : LoopInv cfg.length m :=
    Runs.run_invariant (P := LoopInv cfg.length) (fun _ e h => h.step hn rfl e)
      (loopInv_uiTimerCb _ (UiSys.ready_init cfg) rfl (Or.inl rfl) nowMs queryNowMs env) es
  exact ⟨hinv.inStep, fun nowMs queryNowMs env => dark_timer hinv rfl nowMs queryNowMs env⟩

end MainLoop

end NanoHat
