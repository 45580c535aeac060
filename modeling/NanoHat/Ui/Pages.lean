import NanoHat.Ui.PageServices

/-!
# The pages

The page list of `pages.h`: home, gateway and network cannot be entered and keep no state, the
services page and the settings page can be entered. `PagesState` is the state behind the callbacks,
together with the part of the display buffer that the services page has drawn since the buffer was
cleared; what the other pages draw is left out.
-/

namespace NanoHat

/-! ## The settings page -/

/-- The static `state` of `page_settings.c`; `brightness` is also what the display has been set
to. -/
structure SettingsState where
  selectedIndex : ℤ := 0
  brightness : UInt8 := 0

/-- What the callbacks of the pages read and write. -/
structure PagesState where
  services : ServicesState := {}
  settings : SettingsState := {}
  buffer : List ServicesFrame := []

abbrev PagesGlobals := Globals PagesState

namespace Globals

def modifyServices (g : PagesGlobals) (f : ServicesState → ServicesState) : PagesGlobals :=
  { g with pageState := { g.pageState with services := f g.pageState.services } }

def modifySettings (g : PagesGlobals) (f : SettingsState → SettingsState) : PagesGlobals :=
  { g with pageState := { g.pageState with settings := f g.pageState.settings } }

end Globals

/-- `SETTINGS_COUNT`. -/
abbrev settingsCount : ℤ := 2

/-- The case of K2 in `settings_on_key`. -/
def toggleSetting (g : PagesGlobals) : PagesGlobals :=
  if g.pageState.settings.selectedIndex = 0 then
    { g with autoScreenOffEnabled := !g.autoScreenOffEnabled }
  else if g.pageState.settings.selectedIndex = 1 then
    g.modifySettings fun st =>
      let brightness := st.brightness + 1
      { st with brightness := if brightness > 10 then 1 else brightness }
  else g

/-- `settings_on_key`. -/
def settingsOnKey (key : UInt8) (longPress : Bool) (mode : PageMode) (g : PagesGlobals) :
    Bool × PagesGlobals :=
  if mode ≠ .enter ∨ longPress then (false, g)
  else if key = keyK1 then
    (true, g.modifySettings fun st =>
      let selected := st.selectedIndex - 1
      { st with selectedIndex := if selected < 0 then settingsCount - 1 else selected })
  else if key = keyK3 then
    (true, g.modifySettings fun st =>
      let selected := st.selectedIndex + 1
      { st with selectedIndex := if selected ≥ settingsCount then 0 else selected })
  else if key = keyK2 then (true, toggleSetting g)
  else (false, g)

/-- `page_settings`. -/
def pageSettings : Page PagesState where
  canEnter := true
  init := some fun g => g.modifySettings fun _ => { brightness := 7 }
  onKey := some settingsOnKey
  onEnter := some fun g => g.modifySettings fun st => { st with selectedIndex := 0 }
  onExit := some id

/-! ## The services page -/

/-- `page_services`, for a configuration of `serviceCount` services. -/
def pageServices (serviceCount : ℕ) : Page PagesState where
  canEnter := true
  init := some fun g => g.modifyServices fun _ => .servicesInit
  render := some fun status mode nowMs g =>
    let (frame, st) := g.pageState.services.servicesRender status mode nowMs
    { g with pageState :=
      { g.pageState with services := st, buffer := g.pageState.buffer ++ [frame] } }
  onKey := some fun key longPress mode g =>
    let (handled, st) := g.pageState.services.servicesOnKey serviceCount key longPress mode
    (handled, g.modifyServices fun _ => st)
  onEnter := some fun g => g.modifyServices .servicesOnEnter
  onExit := some fun g => g.modifyServices .servicesOnExit

/-! ## The list -/

/-- The index of the services page. -/
abbrev servicesPage : ℤ := 3

/-- The index of the settings page. -/
abbrev settingsPage : ℤ := 4

/-- `pages_get_list`. -/
def pagesGetList (serviceCount : ℕ) : List (Option (Page PagesState)) :=
  [some {}, some {}, some {}, some (pageServices serviceCount), some pageSettings]

end NanoHat
