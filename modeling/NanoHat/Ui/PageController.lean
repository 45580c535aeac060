import NanoHat.Foundations.Runs
import NanoHat.Status.SysStatus
import NanoHat.Ui.Anim

/-!
# The page controller

The state and the entry points of `page_controller.c`, over pages given by their callbacks. The
state behind the callbacks (the static variables of the page modules) is a type of its own, `σ`;
together with `g_auto_screen_off_enabled`, which the settings page toggles, it is what a callback
may change. `trace` records, newest first, the slides started and the calls of `on_enter` and
`on_exit`.
-/

namespace NanoHat

/-- `page_mode_t`. -/
inductive PageMode
  | view
  | enter
  deriving DecidableEq

/-- `screen_state_t`. -/
inductive ScreenState
  | off
  | on
  deriving DecidableEq

/-- `KEY_K1`. -/
abbrev keyK1 : UInt8 := 1
/-- `KEY_K2`. -/
abbrev keyK2 : UInt8 := 2
/-- `KEY_K3`. -/
abbrev keyK3 : UInt8 := 3

/-- What the callbacks of the pages read and write. -/
structure Globals (σ : Type*) where
  autoScreenOffEnabled : Bool := false
  pageState : σ

/-- `page_t`, as far as the controller calls it; a `NULL` callback is `none`. -/
structure Page (σ : Type*) where
  canEnter : Bool := false
  init : Option (Globals σ → Globals σ) := none
  /-- What the page draws goes to the page state; the horizontal offset is left out. -/
  render : Option (SysStatus → PageMode → UInt64 → Globals σ → Globals σ) := none
  onKey : Option (UInt8 → Bool → PageMode → Globals σ → Bool × Globals σ) := none
  onEnter : Option (Globals σ → Globals σ) := none
  onExit : Option (Globals σ → Globals σ) := none

namespace PageController

/-- What the record of a run of the controller shows. -/
inductive Obs
  /-- `switch_page` started a slide in a direction. -/
  | slide (direction : ℤ)
  /-- `on_enter` of a page was called. -/
  | onEnter (page : ℤ)
  /-- `on_exit` of a page was called. -/
  | onExit (page : ℤ)
  deriving DecidableEq

end PageController

open PageController in
/-- `page_controller_t`, with the state of the callbacks and the record of the run. The array
`pages` may hold `NULL`. -/
structure PageController (σ : Type*) where
  screenState : ScreenState
  lastActivityMs : UInt64
  currentPage : ℤ
  pageMode : PageMode
  anim : AnimState
  enterModeStartMs : UInt64
  idleTimeoutMs : UInt32
  enterModeTimeoutMs : UInt32
  pages : List (Option (Page σ))
  globals : Globals σ
  trace : List Obs := []

namespace PageController

variable {σ : Type*}

/-- `page_count`. -/
def pageCount (pc : PageController σ) : ℤ := pc.pages.length

/-- `page_controller_init`. -/
def init (pages : List (Option (Page σ))) (globals : Globals σ) : PageController σ where
  screenState := .on
  lastActivityMs := 0
  currentPage := 1
  pageMode := .view
  anim := {}
  enterModeStartMs := 0
  idleTimeoutMs := 30000
  enterModeTimeoutMs := 30000
  pages := pages
  globals := pages.foldl (fun g page => match page.bind Page.init with
    | some init => init g
    | none => g) globals

/-- `page_controller_set_idle_timeout`. -/
def setIdleTimeout (pc : PageController σ) (timeoutMs : UInt32) : PageController σ :=
  { pc with idleTimeoutMs := timeoutMs }

/-- `start_animation`. -/
def startAnimation (pc : PageController σ) (type : AnimType) (nowMs : UInt64) :
    PageController σ :=
  { pc with anim := { pc.anim with type := type, startMs := nowMs } }

/-- The page that `switch_page` goes to from `current`. -/
def wrapPage (count current direction : ℤ) : ℤ :=
  let newPage := current + direction
  let newPage := if newPage < 0 then count - 1 else newPage
  if newPage ≥ count then 0 else newPage

/-- `switch_page`. -/
def switchPage (pc : PageController σ) (direction : ℤ) (nowMs : UInt64) : PageController σ :=
  if pc.pageCount ≤ 1 then pc
  else if pc.anim.type ≠ .none then pc
  else
    let newPage := wrapPage pc.pageCount pc.currentPage direction
    let pc := { pc with
      anim := { pc.anim with fromPage := pc.currentPage, toPage := newPage }
      trace := .slide direction :: pc.trace }
    pc.startAnimation (if direction > 0 then .slideLeft else .slideRight) nowMs

/-- `get_current_page`. -/
def getCurrentPage (pc : PageController σ) : Option (Page σ) :=
  if pc.currentPage < 0 ∨ pc.currentPage ≥ pc.pageCount then none
  else (pc.pages[pc.currentPage.toNat]?).join

/-- `exit_enter_mode`. -/
def exitEnterMode (pc : PageController σ) (nowMs : UInt64) : PageController σ :=
  let pc := { pc with pageMode := .view }.startAnimation .exitMode nowMs
  match pc.getCurrentPage.bind Page.onExit with
  | none => pc
  | some onExit =>
    { pc with globals := onExit pc.globals, trace := .onExit pc.currentPage :: pc.trace }

/-- `try_enter_mode`. -/
def tryEnterMode (pc : PageController σ) (nowMs : UInt64) : Bool × PageController σ :=
  if pc.pageMode = .enter then (true, pc.exitEnterMode nowMs)
  else
    match pc.getCurrentPage with
    | none => (false, pc)
    | some page =>
      if !page.canEnter then (true, pc.startAnimation .titleShake nowMs)
      else
        let pc := { pc with pageMode := .enter, enterModeStartMs := nowMs }.startAnimation
          .enterMode nowMs
        match page.onEnter with
        | none => (true, pc)
        | some onEnter =>
          (true, { pc with
            globals := onEnter pc.globals, trace := .onEnter pc.currentPage :: pc.trace })

/-- The call `page && page->on_key && page->on_key(key, long_press, pc->page_mode)`. -/
def pageOnKey (pc : PageController σ) (key : UInt8) (longPress : Bool) :
    Bool × PageController σ :=
  match pc.getCurrentPage.bind Page.onKey with
  | none => (false, pc)
  | some onKey =>
    let (handled, globals) := onKey key longPress pc.pageMode pc.globals
    (handled, { pc with globals := globals })

/-- The part of `page_controller_handle_key` for view mode. -/
def handleViewKey (pc : PageController σ) (key : UInt8) (longPress : Bool) (nowMs : UInt64) :
    Bool × PageController σ :=
  if key = keyK1 ∧ !longPress then (true, pc.switchPage (-1) nowMs)
  else if key = keyK3 ∧ !longPress then (true, pc.switchPage 1 nowMs)
  else if key = keyK2 then
    if longPress then pc.tryEnterMode nowMs else (true, { pc with screenState := .off })
  else pc.pageOnKey key longPress

/-- `page_controller_handle_key`. -/
def handleKey (pc : PageController σ) (key : UInt8) (longPress : Bool) (nowMs : UInt64) :
    Bool × PageController σ :=
  let pc := { pc with lastActivityMs := nowMs }
  if pc.screenState = .off then (true, { pc with screenState := .on })
  else if pc.anim.type ≠ .none ∧ !pc.anim.animIsComplete nowMs then (false, pc)
  else
    let pc := { pc with anim := { pc.anim with type := .none } }
    match pc.pageMode with
    | .enter =>
      let pc := { pc with enterModeStartMs := nowMs }
      if key = keyK2 ∧ longPress then pc.tryEnterMode nowMs else pc.pageOnKey key longPress
    | .view => pc.handleViewKey key longPress nowMs

/-- The automatic screen-off of `page_controller_tick`. -/
def tickScreenOff (pc : PageController σ) (nowMs : UInt64) : Bool × PageController σ :=
  if pc.globals.autoScreenOffEnabled ∧ pc.screenState = .on ∧ pc.pageMode ≠ .enter ∧
      0 < pc.idleTimeoutMs ∧ pc.idleTimeoutMs.toUInt64 ≤ nowMs - pc.lastActivityMs then
    (true, { pc with screenState := .off })
  else (false, pc)

/-- The end of enter mode in `page_controller_tick`. -/
def tickEnterMode (pc : PageController σ) (nowMs : UInt64) : Bool × PageController σ :=
  if pc.pageMode = .enter ∧ 0 < pc.enterModeTimeoutMs ∧
      pc.enterModeTimeoutMs.toUInt64 ≤ nowMs - pc.enterModeStartMs then
    (true, pc.exitEnterMode nowMs)
  else (false, pc)

/-- The end of an animation in `page_controller_tick`. -/
def tickAnim (pc : PageController σ) (nowMs : UInt64) : Bool × PageController σ :=
  if pc.anim.type = .none then (false, pc)
  else if pc.anim.animIsComplete nowMs then
    let current := if pc.anim.type.isSlide then pc.anim.toPage else pc.currentPage
    (true, { pc with currentPage := current, anim := { pc.anim with type := .none } })
  else (true, pc)

/-- `page_controller_tick`. -/
def tick (pc : PageController σ) (nowMs : UInt64) : Bool × PageController σ :=
  let pc := if pc.lastActivityMs = 0 then { pc with lastActivityMs := nowMs } else pc
  let (r₁, pc) := pc.tickScreenOff nowMs
  let (r₂, pc) := pc.tickEnterMode nowMs
  let (r₃, pc) := pc.tickAnim nowMs
  (r₁ || r₂ || r₃, pc)

/-- `render_page_content`. -/
def renderPageContent (pc : PageController σ) (status : SysStatus) (pageIdx : ℤ)
    (nowMs : UInt64) : PageController σ :=
  if pageIdx < 0 ∨ pageIdx ≥ pc.pageCount then pc
  else
    match (pc.pages[pageIdx.toNat]?).join.bind Page.render with
    | none => pc
    | some render => { pc with globals := render status pc.pageMode nowMs pc.globals }

/-- `page_controller_render`, without the title bars. -/
def render (pc : PageController σ) (status : SysStatus) (nowMs : UInt64) : PageController σ :=
  if pc.anim.type.isSlide then
    (pc.renderPageContent status pc.anim.fromPage nowMs).renderPageContent status pc.anim.toPage
      nowMs
  else pc.renderPageContent status pc.currentPage nowMs

/-- `page_controller_is_screen_on`. -/
def isScreenOn (pc : PageController σ) : Bool := pc.screenState = .on

/-- `page_controller_is_animating`. -/
def isAnimating (pc : PageController σ) : Bool := pc.anim.type ≠ .none

/-! ## Runs -/

/-- A call from outside. -/
inductive Event
  | key (key : UInt8) (longPress : Bool) (nowMs : UInt64)
  | tick (nowMs : UInt64)
  | setIdleTimeout (timeoutMs : UInt32)
  | setAutoScreenOff (enabled : Bool)

/-- The state after a call. -/
def step (pc : PageController σ) : Event → PageController σ
  | .key key longPress nowMs => (pc.handleKey key longPress nowMs).2
  | .tick nowMs => (pc.tick nowMs).2
  | .setIdleTimeout timeoutMs => pc.setIdleTimeout timeoutMs
  | .setAutoScreenOff enabled =>
    { pc with globals := { pc.globals with autoScreenOffEnabled := enabled } }

end PageController

end NanoHat
