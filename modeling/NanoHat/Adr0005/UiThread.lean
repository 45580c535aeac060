import Mathlib.Algebra.Group.Nat.Defs
import NanoHat.Adr0005.EventQueue
import NanoHat.Ui.PageController

/-!
# The UI thread of the threaded implementation

`page_controller.c`, `ui_controller.c` and `ui_thread_default_handle` of ADR 0005, without what is
drawn and without `sys_status`. The pages are given by their callbacks, over a page state `σ`. The
handler of an event asks the event loop for another tick at most once; `ui->loop` is not `NULL`.

The tick follows the screen (`ticks_run`): it stops when the screen goes off, runs at
`UI_ANIM_TICK_MS` while something is animated, and at `UI_IDLE_TICK_MS` when the countdown behind
the last animation is over. It also stops for `EVT_SHUTDOWN`, but not when `ui_thread_stop` ends the
thread.
-/

namespace NanoHat.Adr0005

open Runs

/-! ## The page controller -/

/-- The durations of `anim.h`. -/
def animDurations : AnimDurations where
  slideMs := 200
  shakeMs := 400
  modeMs := 250

/-- `anim_is_complete` -/
def animIsComplete (a : AnimState) (nowMs : UInt64) : Bool := a.isCompleteWith animDurations nowMs

/-- `page_t`, as far as the controller calls it for keys; a `NULL` callback is `none`. -/
structure Page (σ : Type*) where
  canEnter : Bool := false
  onKey : Option (UInt8 → Bool → PageMode → σ → Bool × σ) := none
  onEnter : Option (σ → σ) := none
  onExit : Option (σ → σ) := none

/-- `page_controller_t`, with the state of the callbacks. -/
structure PageController (σ : Type*) where
  screenState : ScreenState := .on
  lastActivityMs : UInt64 := 0
  currentPage : ℤ
  pageMode : PageMode := .view
  anim : AnimState := {}
  idleTimeoutMs : UInt32 := 30000
  pages : List (Option (Page σ))
  pageState : σ

namespace PageController

variable {σ : Type*}

/-- `page_controller_init` -/
def init (pages : List (Option (Page σ))) (pageState : σ) : PageController σ where
  currentPage := if 1 < pages.length then 1 else 0
  pages := pages
  pageState := pageState

/-- `start_animation` -/
def startAnimation (pc : PageController σ) (type : AnimType) (nowMs : UInt64) :
    PageController σ :=
  { pc with anim := { pc.anim with type := type, startMs := nowMs } }

/-- `switch_page` -/
def switchPage (pc : PageController σ) (direction : ℤ) (nowMs : UInt64) : PageController σ :=
  if pc.pages.length ≤ 1 then pc
  else if pc.anim.type ≠ .none then pc
  else
    let newPage := pc.currentPage + direction
    let newPage := if newPage < 0 then (pc.pages.length : ℤ) - 1 else newPage
    let newPage := if newPage ≥ (pc.pages.length : ℤ) then 0 else newPage
    let pc := { pc with anim := { pc.anim with fromPage := pc.currentPage, toPage := newPage } }
    pc.startAnimation (if direction > 0 then .slideLeft else .slideRight) nowMs

/-- `pc->pages[pc->current_page]` -/
def page (pc : PageController σ) : Option (Page σ) := (pc.pages[pc.currentPage.toNat]?).join

/-- A callback without arguments, if there is one. -/
def call (pc : PageController σ) (callback : Option (σ → σ)) : PageController σ :=
  { pc with pageState := callback.elim pc.pageState fun f => f pc.pageState }

/-- `try_enter_mode` -/
def tryEnterMode (pc : PageController σ) (nowMs : UInt64) : Bool × PageController σ :=
  if pc.pageMode = .enter then
    (true, ({ pc with pageMode := .view }.startAnimation .exitMode nowMs).call
      (pc.page.bind Page.onExit))
  else
    match pc.page with
    | none => (false, pc)
    | some page =>
      if page.canEnter then
        (true, ({ pc with pageMode := .enter }.startAnimation .enterMode nowMs).call page.onEnter)
      else (true, pc.startAnimation .titleShake nowMs)

/-- `page && page->on_key && page->on_key(key, long_press, pc->page_mode)` -/
def pageOnKey (pc : PageController σ) (key : UInt8) (longPress : Bool) :
    Bool × PageController σ :=
  match pc.page.bind Page.onKey with
  | none => (false, pc)
  | some onKey =>
    let (handled, pageState) := onKey key longPress pc.pageMode pc.pageState
    (handled, { pc with pageState := pageState })

/-- `page_controller_handle_key` in view mode. -/
def handleViewKey (pc : PageController σ) (key : UInt8) (longPress : Bool) (nowMs : UInt64) :
    Bool × PageController σ :=
  if key = keyK1 ∧ !longPress then (true, pc.switchPage (-1) nowMs)
  else if key = keyK3 ∧ !longPress then (true, pc.switchPage 1 nowMs)
  else if key = keyK2 ∧ longPress then pc.tryEnterMode nowMs
  else if key = keyK2 ∧ pc.currentPage = 0 then (true, { pc with screenState := .off })
  else pc.pageOnKey key longPress

/-- `page_controller_handle_key` in enter mode, where only a page with `on_key` takes keys. -/
def handleEnterKey (pc : PageController σ) (key : UInt8) (longPress : Bool) (nowMs : UInt64) :
    Bool × PageController σ :=
  match pc.page.bind Page.onKey with
  | none => (false, pc)
  | some _ => if key = keyK2 ∧ longPress then pc.tryEnterMode nowMs else pc.pageOnKey key longPress

/-- `page_controller_handle_key` -/
def handleKey (pc : PageController σ) (key : UInt8) (longPress : Bool) (nowMs : UInt64) :
    Bool × PageController σ :=
  let pc := { pc with lastActivityMs := nowMs }
  if pc.screenState = .off then (true, { pc with screenState := .on })
  else if pc.anim.type ≠ .none ∧ !animIsComplete pc.anim nowMs then (false, pc)
  else
    let pc := { pc with anim := { pc.anim with type := .none } }
    match pc.pageMode with
    | .enter => pc.handleEnterKey key longPress nowMs
    | .view => pc.handleViewKey key longPress nowMs

/-- The automatic screen-off of `page_controller_tick`. -/
def tickScreenOff (pc : PageController σ) (nowMs : UInt64) : Bool × PageController σ :=
  if pc.screenState = .on ∧ 0 < pc.idleTimeoutMs ∧
      pc.idleTimeoutMs.toUInt64 ≤ nowMs - pc.lastActivityMs then
    (true, { pc with screenState := .off })
  else (false, pc)

/-- The end of an animation in `page_controller_tick`. -/
def tickAnim (pc : PageController σ) (nowMs : UInt64) : Bool × PageController σ :=
  if pc.anim.type = .none then (false, pc)
  else if animIsComplete pc.anim nowMs then
    let current := if pc.anim.type.isSlide then pc.anim.toPage else pc.currentPage
    (true, { pc with currentPage := current, anim := { pc.anim with type := .none } })
  else (true, pc)

/-- `page_controller_tick` -/
def tick (pc : PageController σ) (nowMs : UInt64) : Bool × PageController σ :=
  let pc := if pc.lastActivityMs = 0 then { pc with lastActivityMs := nowMs } else pc
  let (r₁, pc) := pc.tickScreenOff nowMs
  let (r₂, pc) := pc.tickAnim nowMs
  (r₁ || r₂, pc)

/-- `page_controller_is_screen_on` -/
def isScreenOn (pc : PageController σ) : Bool := pc.screenState = .on

/-- `page_controller_is_animating` -/
def isAnimating (pc : PageController σ) : Bool := pc.anim.type ≠ .none

end PageController

/-! ## The UI controller -/

/-- What the display HAL is: whether it is there, whether it hands out a `u8g2` context, and whether
the panel is powered. -/
structure Display where
  attached : Bool
  hasU8g2 : Bool
  powered : Bool := false

/-- `ui_controller_t`, without `sys_status`. -/
structure UiController (σ : Type*) where
  powerOn : Bool := true
  lastEvent : AppEventType := .none
  tickCount : UInt64 := 0
  needsRender : Bool := true
  lastEventMs : UInt64 := 0
  pageCtrl : PageController σ

namespace AppEventType

/-- `is_button_event`, and `ui_thread_is_button_event` -/
def isButton : AppEventType → Bool
  | .btnK1Short | .btnK2Short | .btnK3Short | .btnK1Long | .btnK2Long | .btnK3Long => true
  | _ => false

/-- `event_to_key` -/
def toKey : AppEventType → UInt8
  | .btnK1Short | .btnK1Long => keyK1
  | .btnK2Short | .btnK2Long => keyK2
  | .btnK3Short | .btnK3Long => keyK3
  | _ => 0

/-- `is_long_press` -/
def isLongPress : AppEventType → Bool
  | .btnK1Long | .btnK2Long | .btnK3Long => true
  | _ => false

end AppEventType

/-- How many ticks an event stands for. -/
def AppEvent.step (event : AppEvent) : UInt32 := if event.data = 0 then 1 else event.data

namespace UiController

variable {σ : Type*}

/-- `ui_controller_init` -/
def init (pages : List (Option (Page σ))) (pageState : σ) : UiController σ where
  pageCtrl := .init pages pageState

/-- The page controller has answered whether there is something to render. -/
def synced (ui : UiController σ) (answer : Bool × PageController σ) : UiController σ :=
  { ui with
    pageCtrl := answer.2, needsRender := ui.needsRender || answer.1
    powerOn := answer.2.isScreenOn }

/-- `ui_controller_handle_event` -/
def handleEvent (ui : UiController σ) (event : AppEvent) : UiController σ :=
  let nowMs := event.timestampNs / 1000000
  let ui := { ui with lastEvent := event.type, lastEventMs := nowMs }
  let ui :=
    if event.type = .tick then
      { ui with tickCount := ui.tickCount + event.step.toUInt64 }.synced (ui.pageCtrl.tick nowMs)
    else if event.type = .shutdown then { ui with powerOn := false }
    else if event.type.isButton then
      ui.synced (ui.pageCtrl.handleKey event.type.toKey event.type.isLongPress nowMs)
    else ui
  if ui.powerOn then { ui with needsRender := true } else ui

/-- `ui_controller_render` -/
def render (ui : UiController σ) (display : Display) : UiController σ × Display :=
  if !ui.needsRender then (ui, display)
  else if !display.attached then ({ ui with needsRender := false }, display)
  else if !ui.powerOn then ({ ui with needsRender := false }, { display with powered := false })
  else if !display.hasU8g2 then ({ ui with needsRender := false }, display)
  else ({ ui with needsRender := false }, { display with powered := true })

end UiController

/-! ## The ticks -/

/-- `UI_ANIM_TICK_MS` -/
def uiAnimTickMs : ℤ := 50
/-- `UI_IDLE_TICK_MS` -/
def uiIdleTickMs : ℤ := 1000
/-- `UI_DEFAULT_ANIM_TICKS` -/
def uiDefaultAnimTicks : ℤ := 10

/-- Where the thread is in `ui_thread_main`: about to look at `running`, in `event_queue_wait`, or
behind the loop. -/
inductive UiPlace
  | test
  | wait
  | done
  deriving DecidableEq

/-- A step of `ui_thread_main`: the test of the loop, and what `event_queue_wait` returns. -/
inductive UiTurn
  | test
  | event (event : AppEvent)
  | noEvent

/-- `ui_thread_t`, the display and where the thread is. -/
structure UiThread (σ : Type*) where
  controller : UiController σ
  display : Display
  running : Bool := true
  tickMs : ℤ := 0
  animTicksLeft : ℤ := 0
  tickActive : Bool := false
  place : UiPlace := .test

namespace UiThread

variable {σ : Type*}

/-- `ui_thread_apply_tick`; what it asks of the event loop, if it does. -/
def applyTick (ui : UiThread σ) (tickMs : ℤ) : UiThread σ × Option ℤ :=
  if tickMs = ui.tickMs then (ui, none) else ({ ui with tickMs := tickMs }, some tickMs)

/-- `ui_thread_stop_tick` -/
def stopTick (ui : UiThread σ) : UiThread σ × Option ℤ :=
  if !ui.tickActive then (ui, none)
  else
    let (ui, request) := ui.applyTick 0
    ({ ui with tickActive := false, animTicksLeft := 0 }, request)

/-- `ui_thread_start_tick` -/
def startTick (ui : UiThread σ) : UiThread σ × Option ℤ :=
  { ui with tickActive := true, animTicksLeft := uiDefaultAnimTicks }.applyTick uiAnimTickMs

/-- `ui_thread_switch_idle_tick` -/
def switchIdleTick (ui : UiThread σ) : UiThread σ × Option ℤ :=
  { ui with tickActive := true, animTicksLeft := 0 }.applyTick uiIdleTickMs

/-- The ticks of a `EVT_TICK` in `ui_thread_default_handle`; `(int)step` is negative from `2 ^ 31`
on. -/
def countTick (ui : UiThread σ) (event : AppEvent) : UiThread σ × Option ℤ :=
  if ui.controller.pageCtrl.isAnimating then
    { ui with animTicksLeft := uiDefaultAnimTicks }.applyTick uiAnimTickMs
  else if 0 < ui.animTicksLeft then
    let step := event.step.toBitVec.toInt
    if ui.animTicksLeft ≤ step then ui.switchIdleTick
    else ({ ui with animTicksLeft := ui.animTicksLeft - step }, none)
  else (ui, none)

/-- `ui_thread_default_handle` -/
def defaultHandle (ui : UiThread σ) (event : AppEvent) : UiThread σ × Option ℤ :=
  let (controller, display) := (ui.controller.handleEvent event).render ui.display
  let ui := { ui with controller := controller, display := display }
  if event.type = .shutdown then ui.stopTick
  else if !ui.controller.powerOn then ui.stopTick
  else if event.type = .tick ∧ ui.tickActive then ui.countTick event
  else if event.type.isButton then ui.startTick
  else (ui, none)

/-- One step of `ui_thread_main`, if the thread is there. -/
def turn (ui : UiThread σ) (t : UiTurn) : UiThread σ × Option ℤ :=
  match ui.place, t with
  | .test, .test => ({ ui with place := if ui.running then .wait else .done }, none)
  | .wait, .event event =>
    let (ui, request) := ui.defaultHandle event
    ({ ui with place := if event.type = .shutdown then .done else .test }, request)
  | .wait, .noEvent => ({ ui with place := if ui.running then .test else .done }, none)
  | _, _ => (ui, none)

/-- `ui_thread_stop` up to the join, on another thread. -/
def stop (ui : UiThread σ) : UiThread σ := { ui with running := false }

/-- `ui_thread_start_default`, before the thread is launched. -/
def startDefault (pages : List (Option (Page σ))) (pageState : σ) (display : Display) :
    UiThread σ × Option ℤ :=
  let (controller, display) := (UiController.init pages pageState).render display
  { controller := controller, display := display : UiThread σ }.switchIdleTick

/-- What may happen to the thread. -/
inductive Event
  | turn (t : UiTurn)
  | stop

def step (ui : UiThread σ) : Event → UiThread σ
  | .turn t => (ui.turn t).1
  | .stop => ui.stop

/-- The thread has handled `EVT_SHUTDOWN`. -/
def ShutDown (ui : UiThread σ) : Prop := ui.controller.lastEvent = .shutdown

instance (ui : UiThread σ) : Decidable ui.ShutDown := inferInstanceAs (Decidable (_ = _))

end UiThread

/-! ## The screen -/

variable {σ : Type*}

namespace PageController

variable {pc : PageController σ}

theorem screenState_tryEnterMode (nowMs : UInt64) :
    (pc.tryEnterMode nowMs).2.screenState = pc.screenState := by
  unfold tryEnterMode
  repeat' split
  all_goals rfl

theorem screenState_pageOnKey (key : UInt8) (longPress : Bool) :
    (pc.pageOnKey key longPress).2.screenState = pc.screenState := by
  unfold pageOnKey
  split <;> rfl

/-- A key leaves the screen on, or asks for rendering. -/
theorem handleKey_screen (pc : PageController σ) (key : UInt8) (longPress : Bool) (nowMs : UInt64) :
    (pc.handleKey key longPress nowMs).2.screenState = .on ∨
      (pc.handleKey key longPress nowMs).1 = true := by
  unfold handleKey
  dsimp only
  split
  · exact Or.inl rfl
  · rename_i hscreen
    have hon : pc.screenState = .on := by
      cases h : pc.screenState with
      | on => rfl
      | off => exact absurd h hscreen
    split
    · exact Or.inl hon
    · split
      · unfold handleEnterKey
        split
        · exact Or.inl hon
        · split
          · exact Or.inl ((screenState_tryEnterMode nowMs).trans hon)
          · exact Or.inl ((screenState_pageOnKey key longPress).trans hon)
      · unfold handleViewKey
        split
        · exact Or.inr rfl
        split
        · exact Or.inr rfl
        split
        · exact Or.inl ((screenState_tryEnterMode nowMs).trans hon)
        split
        · exact Or.inr rfl
        · exact Or.inl ((screenState_pageOnKey key longPress).trans hon)

theorem screenState_tickAnim (nowMs : UInt64) :
    (pc.tickAnim nowMs).2.screenState = pc.screenState := by
  unfold tickAnim
  repeat' split
  all_goals rfl

/-- A tick leaves the screen as it is, or switches it off and asks for rendering. -/
theorem tick_screen (pc : PageController σ) (nowMs : UInt64) :
    (pc.tick nowMs).2.screenState = pc.screenState ∨
      (pc.tick nowMs).2.screenState = .off ∧ (pc.tick nowMs).1 = true := by
  unfold tick
  dsimp only
  rw [screenState_tickAnim]
  have hsame : (if pc.lastActivityMs = 0 then { pc with lastActivityMs := nowMs } else pc).screenState
      = pc.screenState := by split <;> rfl
  generalize (if pc.lastActivityMs = 0 then { pc with lastActivityMs := nowMs } else pc) = pc' at hsame
  unfold tickScreenOff
  split
  · exact Or.inr ⟨rfl, rfl⟩
  · exact Or.inl hsame

end PageController

namespace UiController

variable {ui : UiController σ}

/-- What the handler of an event does before it marks what is visible. -/
def handled (ui : UiController σ) (event : AppEvent) : UiController σ :=
  let nowMs := event.timestampNs / 1000000
  let ui := { ui with lastEvent := event.type, lastEventMs := nowMs }
  if event.type = .tick then
    { ui with tickCount := ui.tickCount + event.step.toUInt64 }.synced (ui.pageCtrl.tick nowMs)
  else if event.type = .shutdown then { ui with powerOn := false }
  else if event.type.isButton then
    ui.synced (ui.pageCtrl.handleKey event.type.toKey event.type.isLongPress nowMs)
  else ui

theorem handleEvent_eq (ui : UiController σ) (event : AppEvent) : ui.handleEvent event =
    if (ui.handled event).powerOn then { ui.handled event with needsRender := true }
    else ui.handled event := rfl

theorem powerOn_handleEvent (ui : UiController σ) (event : AppEvent) :
    (ui.handleEvent event).powerOn = (ui.handled event).powerOn := by
  rw [handleEvent_eq]
  split <;> rfl

theorem pageCtrl_handleEvent (ui : UiController σ) (event : AppEvent) :
    (ui.handleEvent event).pageCtrl = (ui.handled event).pageCtrl := by
  rw [handleEvent_eq]
  split <;> rfl

/-- The power is what the page controller says. -/
def Synced (ui : UiController σ) : Prop := ui.powerOn = ui.pageCtrl.isScreenOn

theorem Synced.handleEvent (h : ui.Synced) {event : AppEvent} (hevent : event.type ≠ .shutdown) :
    (ui.handleEvent event).Synced := by
  unfold Synced
  rw [powerOn_handleEvent, pageCtrl_handleEvent, handled, if_neg hevent]
  dsimp only
  split
  · rfl
  · split
    · rfl
    · exact h

/-- Only a button switches the screen on. -/
theorem Synced.wakes (h : ui.Synced) (hoff : ui.powerOn = false) {event : AppEvent}
    (hon : (ui.handleEvent event).powerOn = true) : event.type.isButton = true := by
  rw [powerOn_handleEvent, handled] at hon
  dsimp only at hon
  split at hon
  · have hscreen : ui.pageCtrl.screenState ≠ .on := by
      have hfalse : ui.pageCtrl.isScreenOn = false := h.symm.trans hoff
      simpa [PageController.isScreenOn] using hfalse
    have hticked := of_decide_eq_true hon
    rcases ui.pageCtrl.tick_screen (event.timestampNs / 1000000) with hsame | ⟨hto, -⟩
    · exact absurd (hsame.symm.trans hticked) hscreen
    · rw [hticked] at hto
      cases hto
  · split at hon
    · cases hon
    · split at hon
      · assumption
      · rw [hoff] at hon
        cases hon

/-- What changes is rendered. -/
theorem Synced.renders (h : ui.Synced) {event : AppEvent} (hevent : event.type ≠ .shutdown) :
    (ui.handleEvent event).needsRender = true ∨
      ui.powerOn = false ∧ (ui.handleEvent event).powerOn = false := by
  cases hpower : (ui.handleEvent event).powerOn with
  | true =>
    rw [powerOn_handleEvent] at hpower
    rw [handleEvent_eq, if_pos hpower]
    exact Or.inl rfl
  | false =>
    rw [powerOn_handleEvent] at hpower
    have hnot : ¬(ui.handled event).powerOn = true := by simp [hpower]
    rw [handleEvent_eq, if_neg hnot]
    rw [handled, if_neg hevent] at hpower ⊢
    dsimp only at hpower ⊢
    split
    · rename_i htick
      rw [if_pos htick] at hpower
      rcases ui.pageCtrl.tick_screen (event.timestampNs / 1000000) with hsame | ⟨-, hanswer⟩
      · refine Or.inr ⟨?_, rfl⟩
        rw [h, PageController.isScreenOn, ← hsame]
        exact hpower
      · exact Or.inl (by rw [synced, hanswer, Bool.or_true])
    · rename_i htick
      rw [if_neg htick] at hpower
      split
      · rename_i hbutton
        rw [if_pos hbutton] at hpower
        have hoff := of_decide_eq_false hpower
        have hanswer := (ui.pageCtrl.handleKey_screen event.type.toKey event.type.isLongPress
          (event.timestampNs / 1000000)).resolve_left hoff
        exact Or.inl (by rw [synced, hanswer, Bool.or_true])
      · rename_i hbutton
        rw [if_neg hbutton] at hpower
        exact Or.inr ⟨hpower, rfl⟩

/-- The handler notes the event. -/
theorem lastEvent_handleEvent (ui : UiController σ) (event : AppEvent) :
    (ui.handleEvent event).lastEvent = event.type := by
  have hhandled : (ui.handled event).lastEvent = event.type := by
    unfold handled synced
    dsimp only
    split_ifs <;> rfl
  rw [handleEvent_eq, ← hhandled]
  split <;> rfl

theorem lastEvent_render (ui : UiController σ) (display : Display) :
    (ui.render display).1.lastEvent = ui.lastEvent := by
  unfold render
  repeat' split
  all_goals rfl

/-- Rendering changes nothing but the display. -/
theorem render_controller (ui : UiController σ) (display : Display) :
    (ui.render display).1.powerOn = ui.powerOn ∧
      (ui.render display).1.pageCtrl = ui.pageCtrl ∧
      (ui.render display).2.attached = display.attached ∧
      (ui.render display).2.hasU8g2 = display.hasU8g2 := by
  unfold render
  repeat' split
  all_goals exact ⟨rfl, rfl, rfl, rfl⟩

/-- The display shows whether the power is on. -/
def Shown (ui : UiController σ) (display : Display) : Prop :=
  display.attached = true → display.hasU8g2 = true → display.powered = ui.powerOn

theorem render_shows (display : Display) (h : ui.needsRender = true) :
    (ui.render display).1.Shown (ui.render display).2 := by
  obtain ⟨hpower, -, hattached, hu8g2⟩ := ui.render_controller display
  unfold Shown
  rw [hpower, hattached, hu8g2]
  intro hattached hu8g2
  rw [render, h, hattached, hu8g2]
  cases ui.powerOn <;> rfl

/-- With nothing to render the display stays as it is. -/
theorem render_of_not_needsRender (display : Display) (h : ui.needsRender = false) :
    ui.render display = (ui, display) := by
  rw [render, h]
  rfl

/-- An event and the rendering behind it keep the display in step. -/
theorem Shown.handleEvent {display : Display} (h : ui.Shown display) (hsynced : ui.Synced)
    {event : AppEvent} (hevent : event.type ≠ .shutdown) :
    ((ui.handleEvent event).render display).1.Shown ((ui.handleEvent event).render display).2 := by
  cases hrender : (ui.handleEvent event).needsRender with
  | true => exact render_shows display hrender
  | false =>
    rw [render_of_not_needsRender display hrender]
    have hpower := (hsynced.renders hevent).resolve_left (by simp [hrender])
    intro hattached hu8g2
    rw [h hattached hu8g2, hpower.1, hpower.2]

end UiController

/-! ## The tick follows the screen -/

namespace UiThread

/-- What holds between two steps. -/
structure Ticking (ui : UiThread σ) : Prop where
  active : ui.tickActive = ui.controller.powerOn
  off : ui.controller.powerOn = false → ui.tickMs = 0 ∧ ui.animTicksLeft = 0
  on : ui.controller.powerOn = true →
    ui.tickMs = if 0 < ui.animTicksLeft then uiAnimTickMs else uiIdleTickMs
  left : 0 ≤ ui.animTicksLeft ∧ ui.animTicksLeft ≤ uiDefaultAnimTicks
  animated : ui.controller.powerOn = true → ui.controller.pageCtrl.isAnimating = true →
    0 < ui.animTicksLeft
  synced : ¬ui.ShutDown → ui.controller.Synced
  shown : ¬ui.ShutDown → ui.controller.Shown ui.display
  shutDown : ui.ShutDown → ui.controller.powerOn = false ∧ ui.place = .done

/-- A tick stands for fewer than `2 ^ 31` expirations of the timer. -/
def Counted (event : AppEvent) : Prop := event.type = .tick → event.data.toNat < 2 ^ 31

instance (event : AppEvent) : Decidable (Counted event) := inferInstanceAs (Decidable (_ → _))

variable {ui : UiThread σ}

theorem applyTick_fst (ui : UiThread σ) (tickMs : ℤ) :
    (ui.applyTick tickMs).1 = { ui with tickMs := tickMs } := by
  unfold applyTick
  split
  · rename_i h
    rw [h]
  · rfl

theorem startTick_fst (ui : UiThread σ) : ui.startTick.1 = { ui with
    tickActive := true, animTicksLeft := uiDefaultAnimTicks, tickMs := uiAnimTickMs } :=
  applyTick_fst ..

theorem switchIdleTick_fst (ui : UiThread σ) : ui.switchIdleTick.1 =
    { ui with tickActive := true, animTicksLeft := 0, tickMs := uiIdleTickMs } := applyTick_fst ..

theorem stopTick_fst (ui : UiThread σ) : ui.stopTick.1 =
    if ui.tickActive then { ui with tickMs := 0, tickActive := false, animTicksLeft := 0 } else ui
    := by
  unfold stopTick
  cases ui.tickActive with
  | true =>
    show ({ (ui.applyTick 0).1 with tickActive := false, animTicksLeft := 0 } : UiThread σ) = _
    rw [applyTick_fst]
    rfl
  | false => rfl

/-- The screen is off, or the thread was told to shut down. -/
theorem ticking_off (hpower : ui.controller.powerOn = false) (hactive : ui.tickActive = false)
    (htick : ui.tickMs = 0) (hleft : ui.animTicksLeft = 0)
    (hsynced : ¬ui.ShutDown → ui.controller.Synced)
    (hshown : ¬ui.ShutDown → ui.controller.Shown ui.display)
    (hdone : ui.ShutDown → ui.place = .done) : ui.Ticking where
  active := by rw [hactive, hpower]
  off _ := ⟨htick, hleft⟩
  on h := nomatch hpower.symm.trans h
  left := by rw [hleft]; decide
  animated h := nomatch hpower.symm.trans h
  synced := hsynced
  shown := hshown
  shutDown h := ⟨hpower, hdone h⟩

/-- The screen is on. -/
theorem ticking_on (hpower : ui.controller.powerOn = true) (hactive : ui.tickActive = true)
    (htick : ui.tickMs = if 0 < ui.animTicksLeft then uiAnimTickMs else uiIdleTickMs)
    (hleft : 0 ≤ ui.animTicksLeft ∧ ui.animTicksLeft ≤ uiDefaultAnimTicks)
    (hanim : ui.controller.pageCtrl.isAnimating = true → 0 < ui.animTicksLeft)
    (hgoes : ¬ui.ShutDown) (hsynced : ui.controller.Synced)
    (hshown : ui.controller.Shown ui.display) : ui.Ticking where
  active := by rw [hactive, hpower]
  off h := nomatch hpower.symm.trans h
  on _ := htick
  left := hleft
  animated _ := hanim
  synced _ := hsynced
  shown _ := hshown
  shutDown h := absurd h hgoes

theorem one_le_step {event : AppEvent} (hcounted : Counted event) (htick : event.type = .tick) :
    1 ≤ event.step.toBitVec.toInt := by
  have hlt := hcounted htick
  have hstep : event.step.toNat < 2 ^ 31 ∧ 1 ≤ event.step.toNat := by
    unfold AppEvent.step
    split
    · decide
    · rename_i hne
      refine ⟨hlt, Nat.one_le_iff_ne_zero.2 fun hzero => hne ?_⟩
      exact UInt32.toNat_inj.1 hzero
  rw [BitVec.toInt_eq_toNat_of_lt (by rw [UInt32.toNat_toBitVec]; omega), UInt32.toNat_toBitVec]
  omega

/-- The thread after it has handled and rendered an event, before it sees to the tick. -/
def shownAfter (ui : UiThread σ) (event : AppEvent) : UiThread σ :=
  { ui with
    controller := ((ui.controller.handleEvent event).render ui.display).1
    display := ((ui.controller.handleEvent event).render ui.display).2 }

theorem Ticking.stop (h : ui.Ticking) {ui' : UiThread σ}
    (hsame : ui'.tickActive = ui.tickActive ∧ ui'.tickMs = ui.tickMs ∧
      ui'.animTicksLeft = ui.animTicksLeft) (hpower : ui'.controller.powerOn = false)
    {place : UiPlace} (hsynced : ¬ui'.ShutDown → ui'.controller.Synced)
    (hshown : ¬ui'.ShutDown → ui'.controller.Shown ui'.display)
    (hdone : ui'.ShutDown → place = .done) :
    Ticking { ui'.stopTick.1 with place := place } := by
  obtain ⟨hactive, htick, hleft⟩ := hsame
  rw [stopTick_fst]
  cases hold : ui.tickActive with
  | true =>
    rw [hactive, hold, if_pos rfl]
    exact ticking_off hpower rfl rfl rfl hsynced hshown hdone
  | false =>
    rw [hactive, hold, if_neg Bool.false_ne_true]
    have hoff := h.off (h.active.symm.trans hold)
    exact ticking_off hpower (hactive.trans hold) (htick.trans hoff.1) (hleft.trans hoff.2)
      hsynced hshown hdone

/-- The countdown behind an animation. -/
theorem Ticking.countTick (h : ui.Ticking) {event : AppEvent} (hcounted : Counted event)
    (htype : event.type = .tick) (hwas : ui.controller.powerOn = true) {ui' : UiThread σ}
    (hsame : ui'.tickActive = ui.tickActive ∧ ui'.tickMs = ui.tickMs ∧
      ui'.animTicksLeft = ui.animTicksLeft) (hpower : ui'.controller.powerOn = true)
    (hgoes : ¬ui'.ShutDown) (hsynced : ui'.controller.Synced)
    (hshown : ui'.controller.Shown ui'.display) (place : UiPlace) :
    Ticking { (ui'.countTick event).1 with place := place } := by
  obtain ⟨hactive, htick, hleft⟩ := hsame
  have hactive := hactive.trans (h.active.trans hwas)
  have hold := h.on hwas
  have hrange := h.left
  rw [← htick, ← hleft] at hold
  rw [← hleft] at hrange
  unfold UiThread.countTick
  split
  · rw [applyTick_fst]
    have hten : 0 < uiDefaultAnimTicks := by decide
    exact ticking_on hpower hactive rfl ⟨hten.le, Int.le_refl _⟩ (fun _ => hten) hgoes hsynced
      hshown
  rename_i hstill
  split
  · rename_i hpos
    dsimp only
    split
    · rw [switchIdleTick_fst]
      have hten : 0 ≤ uiDefaultAnimTicks := by decide
      exact ticking_on hpower rfl rfl ⟨Int.le_refl 0, hten⟩ (fun hanim => absurd hanim hstill)
        hgoes hsynced hshown
    · rename_i hless
      have hstep := one_le_step hcounted htype
      rw [if_pos hpos] at hold
      have hrest : 0 < ui'.animTicksLeft - event.step.toBitVec.toInt := by omega
      refine ticking_on hpower hactive ?_ ?_ (fun _ => hrest) hgoes hsynced hshown
      · dsimp only
        rw [if_pos hrest]
        exact hold
      · dsimp only
        omega
  · exact ticking_on hpower hactive hold hrange (fun hanim => absurd hanim hstill) hgoes hsynced
      hshown

/-- An event that leaves the page controller and the tick alone. -/
theorem Ticking.rest (h : ui.Ticking) (hwas : ui.controller.powerOn = true) {ui' : UiThread σ}
    (hsame : ui'.tickActive = ui.tickActive ∧ ui'.tickMs = ui.tickMs ∧
      ui'.animTicksLeft = ui.animTicksLeft)
    (hctrl : ui'.controller.pageCtrl = ui.controller.pageCtrl)
    (hpower : ui'.controller.powerOn = true) (hgoes : ¬ui'.ShutDown)
    (hsynced : ui'.controller.Synced) (hshown : ui'.controller.Shown ui'.display)
    (place : UiPlace) : Ticking { ui' with place := place } := by
  obtain ⟨hactive, htick, hleft⟩ := hsame
  refine ticking_on hpower (hactive.trans (h.active.trans hwas)) ?_ ?_ ?_ hgoes hsynced hshown
  · dsimp only
    rw [htick, hleft]
    exact h.on hwas
  · dsimp only
    rw [hleft]
    exact h.left
  · dsimp only
    rw [hctrl, hleft]
    exact h.animated hwas

/-- `defaultHandle`, once the event has been handled and rendered. -/
theorem defaultHandle_eq (ui : UiThread σ) (event : AppEvent) : ui.defaultHandle event =
    if event.type = .shutdown then (ui.shownAfter event).stopTick
    else if !(ui.shownAfter event).controller.powerOn then (ui.shownAfter event).stopTick
    else if event.type = .tick ∧ (ui.shownAfter event).tickActive then
      (ui.shownAfter event).countTick event
    else if event.type.isButton then (ui.shownAfter event).startTick
    else (ui.shownAfter event, none) := rfl

/-- The thread moves on, before it was told to shut down. -/
theorem Ticking.move (h : ui.Ticking) (hgoes : ¬ui.ShutDown) (place : UiPlace) :
    Ticking { ui with place := place } :=
  ⟨h.active, h.off, h.on, h.left, h.animated, h.synced, h.shown, fun hs => absurd hs hgoes⟩

/-- **One event** keeps the tick in step with the screen. -/
theorem Ticking.handle (h : ui.Ticking) (hgoes : ¬ui.ShutDown) {event : AppEvent}
    (hcounted : Counted event) : Ticking { (ui.defaultHandle event).1 with
      place := if event.type = .shutdown then .done else .test } := by
  have hsynced := h.synced hgoes
  have hshown := h.shown hgoes
  obtain ⟨hpower, hctrl, -, -⟩ := (ui.controller.handleEvent event).render_controller ui.display
  have hsynced' : event.type ≠ .shutdown → (ui.shownAfter event).controller.Synced := by
    intro hevent
    rw [UiController.Synced, shownAfter]
    dsimp only
    rw [hpower, hctrl]
    exact hsynced.handleEvent hevent
  have hshown' : event.type ≠ .shutdown →
      (ui.shownAfter event).controller.Shown (ui.shownAfter event).display :=
    hshown.handleEvent hsynced
  have hlast : (ui.shownAfter event).ShutDown ↔ event.type = .shutdown := by
    unfold ShutDown shownAfter
    rw [UiController.lastEvent_render, UiController.lastEvent_handleEvent]
  -- the thread after rendering differs from the one before only in the controller and the display
  have hsame : (ui.shownAfter event).tickActive = ui.tickActive ∧
      (ui.shownAfter event).tickMs = ui.tickMs ∧
      (ui.shownAfter event).animTicksLeft = ui.animTicksLeft := ⟨rfl, rfl, rfl⟩
  rw [defaultHandle_eq]
  have hon : (ui.shownAfter event).controller.powerOn = (ui.controller.handleEvent event).powerOn :=
    hpower
  generalize hshownAfter : ui.shownAfter event = ui' at hsynced' hshown' hsame hon hlast ⊢
  split
  · rename_i hshutdown
    have hoff : ui'.controller.powerOn = false := by
      rw [hon, UiController.powerOn_handleEvent, UiController.handled, if_neg (by simp [hshutdown]),
        if_pos hshutdown]
    exact h.stop hsame hoff (fun hs => absurd (hlast.2 hshutdown) hs)
      (fun hs => absurd (hlast.2 hshutdown) hs) fun _ => rfl
  rename_i hevent
  have hgoes' : ¬ui'.ShutDown := fun hs => hevent (hlast.1 hs)
  split
  · rename_i hoff
    have hoff : ui'.controller.powerOn = false := by simpa using hoff
    exact h.stop hsame hoff (fun _ => hsynced' hevent) (fun _ => hshown' hevent)
      fun hs => absurd hs hgoes'
  rename_i hnotoff
  have hnow : ui'.controller.powerOn = true := by simpa using hnotoff
  split
  · rename_i htick
    exact h.countTick hcounted htick.1 (h.active.symm.trans (hsame.1.symm.trans htick.2)) hsame hnow
      hgoes' (hsynced' hevent) (hshown' hevent) _
  rename_i hnotick
  split
  · rw [startTick_fst]
    have hten : 0 < uiDefaultAnimTicks := by decide
    exact ticking_on hnow rfl rfl ⟨hten.le, Int.le_refl _⟩ (fun _ => hten) hgoes'
      (hsynced' hevent) (hshown' hevent)
  · rename_i hnobutton
    -- the screen was on before, and nothing has happened
    have hwas : ui.controller.powerOn = true := by
      by_contra hoff
      exact hnobutton (hsynced.wakes (by simpa using hoff) (hon.symm.trans hnow))
    have hnottick : event.type ≠ .tick := fun htick =>
      hnotick ⟨htick, hsame.1.trans (h.active.trans hwas)⟩
    have hsamectrl : ui'.controller.pageCtrl = ui.controller.pageCtrl := by
      rw [← hshownAfter, shownAfter]
      dsimp only
      rw [hctrl, UiController.pageCtrl_handleEvent, UiController.handled, if_neg hnottick,
        if_neg hevent, if_neg hnobutton]
    exact h.rest hwas hsame hsamectrl hnow hgoes' (hsynced' hevent) (hshown' hevent) _

/-- The event of a step, if it has one, is counted. -/
def UiTurn.Counted : UiTurn → Prop
  | .event event => UiThread.Counted event
  | _ => True

theorem Ticking.turn (h : ui.Ticking) {t : UiTurn} (hcounted : UiTurn.Counted t) :
    (ui.turn t).1.Ticking := by
  have hgoes (hplace : ui.place ≠ .done) : ¬ui.ShutDown := fun hs => hplace (h.shutDown hs).2
  unfold UiThread.turn
  split
  · rename_i hplace
    exact h.move (hgoes (by simp [hplace])) _
  · rename_i event hplace
    exact h.handle (hgoes (by simp [hplace])) hcounted
  · rename_i hplace
    exact h.move (hgoes (by simp [hplace])) _
  · exact h

theorem ticking_startDefault (pages : List (Option (Page σ))) (pageState : σ) (display : Display) :
    (startDefault pages pageState display).1.Ticking := by
  obtain ⟨hpower, hctrl, -, -⟩ := (UiController.init pages pageState).render_controller display
  have hshown : ((UiController.init pages pageState).render display).1.Shown
      ((UiController.init pages pageState).render display).2 :=
    UiController.render_shows display rfl
  have hdef : startDefault pages pageState display =
      { controller := ((UiController.init pages pageState).render display).1
        display := ((UiController.init pages pageState).render display).2 : UiThread σ
      }.switchIdleTick := rfl
  have hlast := (UiController.init pages pageState).lastEvent_render display
  rw [hdef, switchIdleTick_fst]
  generalize (UiController.init pages pageState).render display = p at hpower hctrl hshown hlast
  have hten : 0 ≤ uiDefaultAnimTicks := by decide
  refine ticking_on hpower rfl rfl ⟨Int.le_refl 0, hten⟩ (fun hanim => ?_) ?_ ?_ hshown
  · dsimp only at hanim
    rw [hctrl] at hanim
    cases hanim
  · unfold ShutDown
    dsimp only
    rw [hlast]
    nofun
  · rw [UiController.Synced]
    dsimp only
    rw [hpower, hctrl]
    rfl

theorem Ticking.step (h : ui.Ticking) {e : Event}
    (hcounted : ∀ event, e = .turn (.event event) → Counted event) : (ui.step e).Ticking := by
  cases e with
  | stop => exact ⟨h.active, h.off, h.on, h.left, h.animated, h.synced, h.shown, h.shutDown⟩
  | turn t =>
    refine h.turn ?_
    cases t with
    | test => trivial
    | event event => exact hcounted event rfl
    | noEvent => trivial

/-- The power, until the thread is told to shut down, is the screen. -/
theorem Ticking.power_iff (h : ui.Ticking) (hs : ¬ui.ShutDown) :
    ui.controller.powerOn = true ↔ ui.controller.pageCtrl.screenState = .on := by
  rw [h.synced hs]
  exact decide_eq_true_iff

theorem Ticking.tick_off (h : ui.Ticking)
    (hoff : ui.ShutDown ∨ ui.controller.pageCtrl.screenState = .off) : ui.tickMs = 0 := by
  have hpoweroff : ui.controller.powerOn = false := by
    by_cases hs : ui.ShutDown
    · exact (h.shutDown hs).1
    · have hoff := hoff.resolve_left hs
      by_contra hon
      have hscreen := (h.power_iff hs).1 (by simpa using hon)
      rw [hoff] at hscreen
      cases hscreen
  exact (h.off hpoweroff).1

theorem Ticking.tick_on (h : ui.Ticking) (hs : ¬ui.ShutDown)
    (hon : ui.controller.pageCtrl.screenState = .on) :
    (ui.tickMs = uiAnimTickMs ∨ ui.tickMs = uiIdleTickMs) ∧
      (ui.controller.pageCtrl.isAnimating = true → ui.tickMs = uiAnimTickMs) := by
  have hpower := (h.power_iff hs).2 hon
  have htick := h.on hpower
  refine ⟨?_, fun hanim => ?_⟩
  · rw [htick]
    split
    · exact Or.inl rfl
    · exact Or.inr rfl
  · rw [htick, if_pos (h.animated hpower hanim)]

/-- **The tick and the panel follow the screen** in every run of the UI thread, as long as no tick
stands for `2 ^ 31` expirations of the timer or more: while the screen is on the tick runs, at
`UI_ANIM_TICK_MS` if something is animated; when it goes off, or `EVT_SHUTDOWN` is handled, the tick
is stopped. An attached panel is powered precisely while the screen is on. All this also holds after
`ui_thread_stop`, which leaves the tick alone. -/
theorem ticks_run (pages : List (Option (Page σ))) (pageState : σ) (display : Display)
    {events : List Event}
    (hcounted : ∀ event, Event.turn (.event event) ∈ events → Counted event) {ui : UiThread σ}
    (hui : run step (startDefault pages pageState display).1 events = ui) :
    (ui.ShutDown ∨ ui.controller.pageCtrl.screenState = .off → ui.tickMs = 0) ∧
      (¬ui.ShutDown → ui.controller.pageCtrl.screenState = .on →
        (ui.tickMs = uiAnimTickMs ∨ ui.tickMs = uiIdleTickMs) ∧
          (ui.controller.pageCtrl.isAnimating = true → ui.tickMs = uiAnimTickMs)) ∧
      (¬ui.ShutDown → ui.display.attached = true → ui.display.hasU8g2 = true →
        (ui.display.powered = true ↔ ui.controller.pageCtrl.screenState = .on)) := by
  have hticking : ui.Ticking := by
    rw [← hui]
    refine run_invariant_along (G := fun _ e => ∀ event, e = .turn (.event event) → Counted event)
      (fun _ _ h hc => h.step hc) (ticking_startDefault pages pageState display)
      (along_of_forall fun e he event h => ?_)
    subst h
    exact hcounted event he
  refine ⟨hticking.tick_off, hticking.tick_on, fun hs hattached hu8g2 => ?_⟩
  rw [hticking.shown hs hattached hu8g2]
  exact hticking.power_iff hs

/-- Two pages, an attached panel, and K1 followed by a tick. -/
def slideRun : UiThread Unit :=
  run step (startDefault [some {}, some {}] () { attached := true, hasU8g2 := true }).1
    [.turn .test, .turn (.event { type := .btnK1Short, timestampNs := 1000000 }), .turn .test,
      .turn (.event { type := .tick, timestampNs := 51000000, data := 1 })]

/-- The pages slide at `UI_ANIM_TICK_MS`, on a powered panel. -/
theorem ticks_run_slide : slideRun.tickMs = uiAnimTickMs ∧ slideRun.display.powered = true := by
  obtain ⟨-, hon, hshown⟩ := ticks_run [some {}, some {}] ()
    { attached := true, hasU8g2 := true } (by simp [Counted]) (rfl : _ = slideRun)
  have hgoes : ¬slideRun.ShutDown := by decide
  exact ⟨(hon hgoes rfl).2 rfl, (hshown hgoes rfl rfl).2 rfl⟩

end UiThread

end NanoHat.Adr0005
