import NanoHat.Ui.Pages

/-!
# The UI controller

`ui_controller.c` over the page controller, the pages and the service status, and the events of
`main.c`: a button event, the UI timer, and the completions that the HAL delivers from the event
loop. A button event and a timer event end with a render, as in `main.c`.

The state is a `Sys` whose client is the UI. `notices` is a history of the calls of
`page_services_notify_control_result` from here, each with the number of the control call it is
about; the log of `Sys` gets an entry for every frame that is sent to the display and for every
request that fails at once.
-/

namespace NanoHat

/-- A call of `page_services_notify_control_result`; `call` is the number of the control call that
it is about, if there was one. -/
structure Notice where
  call : Option ℕ
  index : ℤ
  success : Bool
  deriving DecidableEq

/-- What the UI adds to the log. -/
inductive UiObs
  /-- A frame is sent, with what the services page has drawn in it. -/
  | frame (drawn : List ServicesFrame)
  /-- `sys_status_control_service` fails for the requested index. -/
  | failed (index : ℤ)
  deriving DecidableEq

/-- `ui_controller_t` without the status; `statusCtx` and `displayReady` say whether the status
context and the display are there. -/
structure Ui where
  pageCtrl : PageController PagesState
  statusCtx : Bool
  displayReady : Bool
  needsRender : Bool := true
  powerOn : Bool := true
  notices : List Notice := []

namespace Ui

/-- The state of the services page. -/
def services (ui : Ui) : ServicesState := ui.pageCtrl.globals.pageState.services

def modifyPageState (ui : Ui) (f : PagesState → PagesState) : Ui :=
  { ui with pageCtrl := { ui.pageCtrl with globals := { ui.pageCtrl.globals with
      pageState := f ui.pageCtrl.globals.pageState } } }

def modifyServices (ui : Ui) (f : ServicesState → ServicesState) : Ui :=
  ui.modifyPageState fun p => { p with services := f p.services }

/-- `page_services_notify_control_result`, called from here. -/
def notify (ui : Ui) (n : Notice) : Ui :=
  { ui.modifyServices (·.notifyControlResult n.index n.success) with
    notices := n :: ui.notices }

/-- `ui_services_control_cb`, for control call number `call`. -/
def uiServicesControlCb (call : ℕ) (index : ℤ) (success : Bool) (_status : ℤ) (ui : Ui) : Ui :=
  ui.notify ⟨some call, index, success⟩

/-- `page_services_take_control_request`. -/
def takeControlRequest (ui : Ui) (nowMs : UInt64) : Option (ℤ × Bool) × Ui :=
  let (request, st) := ui.services.takeControlRequest nowMs
  (request, ui.modifyServices fun _ => st)

/-- `ui_controller_render`: what the services page has drawn in the frame, if one is sent. -/
def render (ui : Ui) (status : SysStatus) (nowMs : UInt64) : Option (List ServicesFrame) × Ui :=
  if !ui.needsRender then (none, ui)
  else
    let ui := { ui with needsRender := false }
    if !ui.powerOn then (none, ui)
    else if !ui.displayReady then (none, ui)
    else
      let ui := ui.modifyPageState fun p => { p with buffer := [] }
      let ui := { ui with pageCtrl := ui.pageCtrl.render status nowMs }
      (some ui.pageCtrl.globals.pageState.buffer, ui)

end Ui

/-- The whole program behind `main.c`. -/
abbrev UiSys := Sys Ui UiObs

namespace UiSys

open Sys

/-- `page_services_notify_control_result(control_index, false)` after a failed request; `call` is
the number of the control call, if it was made. -/
def notifyFailed (s : UiSys) (call : Option ℕ) (index : ℤ) : UiSys :=
  ({ s with client := s.client.notify ⟨call, index, false⟩ } : UiSys).logs (.client (.failed index))

/-- The part of `ui_controller_handle_button` for a control request. -/
def submit (s : UiSys) (index : ℤ) (start : Bool) (env : CallEnv) : UiSys :=
  if !s.client.statusCtx then s.notifyFailed none index
  else
    let call := s.calls
    let (ret, s) := s.controlService index start (some (Ui.uiServicesControlCb call)) env
    if ret < 0 then notifyFailed s (if s.calls = call then none else some call) index else s

/-- `ui_controller_handle_button`. -/
def handleButton (s : UiSys) (key : UInt8) (longPress : Bool) (nowMs : UInt64) (env : CallEnv) :
    UiSys :=
  let (changed, pageCtrl) := s.client.pageCtrl.handleKey key longPress nowMs
  let ui := { s.client with pageCtrl := pageCtrl, powerOn := pageCtrl.isScreenOn }
  let (request, ui) := ui.takeControlRequest nowMs
  let s : UiSys := { s with client := ui }
  let s :=
    match request with
    | none => s
    | some (index, start) => s.submit index start env
  if changed then { s with client := { s.client with needsRender := true } } else s

/-- `ui_controller_tick`, with the clock reading of `sys_status_query_services`. -/
def tick (cfg : List CStr) (s : UiSys) (nowMs queryNowMs : UInt64) (env : ℕ → CallEnv) : UiSys :=
  let (needsRender, pageCtrl) := s.client.pageCtrl.tick nowMs
  let s : UiSys :=
    { s with client := { s.client with pageCtrl := pageCtrl, powerOn := pageCtrl.isScreenOn } }
  let (needsRender, s) :=
    if s.client.powerOn ∧ !s.client.pageCtrl.isAnimating ∧ s.client.statusCtx then
      let s := s.updateLocal cfg
      (true, if 0 < s.status.serviceCount then (s.queryServices queryNowMs env).2 else s)
    else (needsRender, s)
  if needsRender then { s with client := { s.client with needsRender := true } } else s

/-- `ui_controller_render`. -/
def render (s : UiSys) (nowMs : UInt64) : UiSys :=
  let (frame, ui) := s.client.render s.status nowMs
  let s : UiSys := { s with client := ui }
  match frame with
  | none => s
  | some drawn => s.logs (.client (.frame drawn))

/-- `ui_controller_init`. -/
def uiControllerInit (cfg : List CStr) (statusCtx displayReady : Bool) : UiSys :=
  let pageCtrl := (PageController.init (pagesGetList cfg.length) ⟨false, {}⟩).setIdleTimeout 30000
  let s : UiSys :=
    { client := { pageCtrl := pageCtrl, statusCtx := statusCtx, displayReady := displayReady } }
  if statusCtx then s.updateLocal cfg else s

/-! ## Runs -/

/-- The events of the loop of `main.c`. -/
inductive Event
  /-- `handle_button_event` -/
  | button (key : UInt8) (longPress : Bool) (nowMs : UInt64) (env : CallEnv)
  /-- `ui_timer_cb` -/
  | timer (nowMs queryNowMs : UInt64) (env : ℕ → CallEnv)
  /-- The HAL calls back. -/
  | complete (call : ℕ) (a : Answer)

def step (cfg : List CStr) (s : UiSys) : Event → UiSys
  | .button key longPress nowMs env => (s.handleButton key longPress nowMs env).render nowMs
  | .timer nowMs queryNowMs env => (s.tick cfg nowMs queryNowMs env).render nowMs
  | .complete call a => s.deliver call a

/-- The state after the events `es`, with the display initialised and the status context there. -/
abbrev after (cfg : List CStr) (es : List Event) : UiSys :=
  Runs.run (step cfg) (uiControllerInit cfg true true) es

end UiSys

end NanoHat
