import NanoHat.Ui.PageController

/-!
# The services page

The state and the callbacks of `page_services.c`. A render first copies the running flags and takes
back the transitions that they confirm (`syncState`), and then draws up to three lines and the
dialog; what it draws is a `ServicesFrame`. A confirmed dialog leaves an intent in the pending
fields, which the UI controller takes after every key press (`takeControlRequest`).

The index fields are the `int`s of the source; an array is read at their `toNat`.
-/

namespace NanoHat

/-- `svc_ui_state_t`. -/
inductive SvcUiState
  | stopped
  | running
  | starting
  | stopping
  | error
  deriving DecidableEq

/-- `dialog_state_t`. -/
inductive DialogState
  | none
  | confirm
  deriving DecidableEq

/-- The icons of the services page; a blank is the dark phase of a blinking icon. -/
inductive Icon
  | running
  | stopped
  | pendingRun
  | pendingStop
  | unknown
  | blank
  deriving DecidableEq

/-- The texts of the action in the title of the dialog. -/
inductive DialogAction
  | start
  | stop
  deriving DecidableEq

/-- What `render_dialog` draws, and the entry it draws it for. -/
structure DialogView where
  index : ℕ
  serviceName : CStr
  action : DialogAction
  /-- the highlighted button: 0 is No, 1 is Yes -/
  selection : ℤ
  deriving DecidableEq

/-- What `render_service_line` draws, and the entry it draws it for. -/
structure ServiceLine where
  index : ℕ
  name : CStr
  icon : Icon
  inverted : Bool
  deriving DecidableEq

/-- What one call of `services_render` draws; `running` are the flags that it has read. -/
structure ServicesFrame where
  running : List Bool := []
  lines : List ServiceLine := []
  dialog : Option DialogView := none
  deriving DecidableEq

/-- The static `state` of `page_services.c`. -/
structure ServicesState where
  selectedIndex : ℤ := 0
  scrollOffset : ℤ := 0
  uiStates : ℕ → SvcUiState := fun _ => .stopped
  stateChangeMs : ℕ → UInt64 := fun _ => 0
  cachedRunning : ℕ → Bool := fun _ => false
  dialog : DialogState := .none
  dialogSelection : ℤ := 0
  pendingControlIndex : ℤ := 0
  pendingControlStart : Bool := false

namespace ServicesState

/-- `VISIBLE_LINES`. -/
abbrev visibleLines : ℕ := 3

/-- `ANIM_BLINK_PERIOD_MS`. -/
abbrev animBlinkPeriodMs : UInt64 := 300

/-- `services_init`. -/
def servicesInit : ServicesState := { pendingControlIndex := -1 }

/-! ## Rendering -/

/-- The icon of an entry that is in no transition. -/
def steadyIcon (svc : ServiceStatus) : Icon :=
  if svc.queryPending then if svc.running then .pendingRun else .pendingStop
  else if !svc.statusValid then .unknown
  else if svc.running then .running else .stopped

/-- `get_service_icon`. -/
def getServiceIcon (st : ServicesState) (svc : ServiceStatus) (uiState : SvcUiState)
    (nowMs : UInt64) (svcIdx : ℕ) : Icon :=
  if uiState = .starting ∨ uiState = .stopping then
    let elapsed := nowMs - st.stateChangeMs svcIdx
    let targetIcon := if uiState = .starting then Icon.running else Icon.stopped
    if elapsed / animBlinkPeriodMs % 2 = 0 then targetIcon else .blank
  else steadyIcon svc

/-- The new `ui_states` entry in the sync loop of `services_render`. -/
def syncState (svc : ServiceStatus) (uiState : SvcUiState) : SvcUiState :=
  if uiState = .starting ∧ svc.running ∨ uiState = .stopping ∧ !svc.running ∨
      uiState = .error ∧ svc.statusValid then
    if svc.running then .running else .stopped
  else uiState

/-- The sync loop of `services_render`. -/
def sync (st : ServicesState) (status : SysStatus) : ServicesState :=
  { st with
    cachedRunning := fun i =>
      if i < status.serviceCount ∧ i < maxMonitoredServices then (status.services i).running
      else st.cachedRunning i
    uiStates := fun i =>
      if i < status.serviceCount ∧ i < maxMonitoredServices then
        syncState (status.services i) (st.uiStates i)
      else st.uiStates i }

/-- `render_dialog`. -/
def renderDialog (st : ServicesState) (svc : ServiceStatus) : DialogView where
  index := st.selectedIndex.toNat
  serviceName := svc.name
  action := if svc.running then .stop else .start
  selection := st.dialogSelection

/-- The visible lines. -/
def renderLines (st : ServicesState) (status : SysStatus) (mode : PageMode) (nowMs : UInt64) :
    List ServiceLine :=
  ((List.range visibleLines).takeWhile fun i : ℕ => st.scrollOffset + i < status.serviceCount).map
    fun i : ℕ =>
      let svcIdx := (st.scrollOffset + i).toNat
      let svc := status.services svcIdx
      { index := svcIdx
        name := svc.name
        icon := st.getServiceIcon svc (st.uiStates svcIdx) nowMs svcIdx
        inverted := st.scrollOffset + i = st.selectedIndex ∧ mode = .enter }

/-- `services_render`, with a status. -/
def servicesRender (st : ServicesState) (status : SysStatus) (mode : PageMode)
    (nowMs : UInt64) : ServicesFrame × ServicesState :=
  if status.serviceCount = 0 then ({}, st)
  else
    let st := st.sync status
    ({ running := (List.range status.serviceCount).map fun i => (status.services i).running
       lines := st.renderLines status mode nowMs
       dialog :=
        if st.dialog = .confirm ∧ st.selectedIndex < status.serviceCount then
          some (st.renderDialog (status.services st.selectedIndex.toNat))
        else none }, st)

/-! ## Keys -/

/-- `ensure_visible`. -/
def ensureVisible (st : ServicesState) (serviceCount : ℤ) : ServicesState :=
  let scroll :=
    if st.selectedIndex < st.scrollOffset then st.selectedIndex
    else if st.selectedIndex ≥ st.scrollOffset + visibleLines then
      st.selectedIndex - visibleLines + 1
    else st.scrollOffset
  let maxScroll := if serviceCount - visibleLines < 0 then 0 else serviceCount - visibleLines
  let scroll := if scroll > maxScroll then maxScroll else scroll
  { st with scrollOffset := if scroll < 0 then 0 else scroll }

/-- The dialog part of `services_on_key`. -/
def dialogOnKey (st : ServicesState) (key : UInt8) (longPress : Bool) : Bool × ServicesState :=
  if (key = keyK1 ∨ key = keyK3) ∧ !longPress then
    (true, { st with dialogSelection := 1 - st.dialogSelection })
  else if key = keyK2 ∧ !longPress then
    if st.dialogSelection = 1 then
      let i := st.selectedIndex.toNat
      let isRunning := st.cachedRunning i
      (true, { st with
        uiStates := Function.update st.uiStates i (if isRunning then .stopping else .starting)
        pendingControlIndex := st.selectedIndex
        pendingControlStart := !isRunning
        dialog := .none })
    else (true, { st with dialog := .none })
  else (false, st)

/-- The list part of `services_on_key`. -/
def listOnKey (st : ServicesState) (serviceCount : ℤ) (key : UInt8) (longPress : Bool) :
    Bool × ServicesState :=
  if longPress then (false, st)
  else if key = keyK1 then
    let selected := st.selectedIndex - 1
    let selected := if selected < 0 then serviceCount - 1 else selected
    (true, { st with selectedIndex := selected }.ensureVisible serviceCount)
  else if key = keyK3 then
    let selected := st.selectedIndex + 1
    let selected := if selected ≥ serviceCount then 0 else selected
    (true, { st with selectedIndex := selected }.ensureVisible serviceCount)
  else if key = keyK2 then (true, { st with dialog := .confirm, dialogSelection := 0 })
  else (false, st)

/-- `services_on_key`, for a configuration of `serviceCount` services. -/
def servicesOnKey (serviceCount : ℤ) (st : ServicesState) (key : UInt8) (longPress : Bool)
    (mode : PageMode) : Bool × ServicesState :=
  if mode ≠ .enter then (false, st)
  else if serviceCount = 0 then (false, st)
  else if st.dialog = .confirm then st.dialogOnKey key longPress
  else st.listOnKey serviceCount key longPress

/-- `services_on_enter`. -/
def servicesOnEnter (st : ServicesState) : ServicesState :=
  { st with selectedIndex := 0, scrollOffset := 0 }

/-- `services_on_exit`. -/
def servicesOnExit (st : ServicesState) : ServicesState :=
  { st with dialog := .none, pendingControlIndex := -1 }

/-! ## Control hooks -/

/-- `page_services_take_control_request`: the index and the start flag, if there is a request. -/
def takeControlRequest (st : ServicesState) (nowMs : UInt64) :
    Option (ℤ × Bool) × ServicesState :=
  if st.pendingControlIndex < 0 then (none, st)
  else
    let idx := st.pendingControlIndex
    let stateChangeMs :=
      if idx < maxMonitoredServices then Function.update st.stateChangeMs idx.toNat nowMs
      else st.stateChangeMs
    (some (idx, st.pendingControlStart),
      { st with pendingControlIndex := -1, stateChangeMs := stateChangeMs })

/-- `page_services_notify_control_result`. -/
def notifyControlResult (st : ServicesState) (index : ℤ) (success : Bool) : ServicesState :=
  if index < 0 ∨ index ≥ maxMonitoredServices then st
  else if success then st
  else { st with uiStates := Function.update st.uiStates index.toNat .error }

end ServicesState

end NanoHat
