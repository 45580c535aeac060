import NanoHat.Foundations.Recorder
import NanoHat.Status.Format
import NanoHat.Status.NetworkStats
import NanoHat.Ui.Pages
import NanoHat.Ui.UiDraw

/-!
# What a render draws

`page_controller_render` and the `render` functions of the pages, as programs that record their
calls of the drawing helpers and of u8g2. The state of such a program is the font that is set; the
effect of a render on the state of the pages is that of `PageController.render`.
-/

namespace NanoHat

open Recorder Rounding UbusHal

/-- The fonts of `fonts.h`. -/
inductive Font
  | title
  | small
  | content
  | symbols
  deriving DecidableEq

/-- What drawing depends on besides the program. -/
structure U8g2 where
  /-- `u8g2_GetStrWidth` -/
  strWidth : Font → CStr → ℤ
  /-- what lies in memory behind a string -/
  past : CStr → ℕ → Char
  roundFloat : Rounding
  roundDouble : Rounding

/-- A call of a drawing helper, with the font that is set, or of u8g2. -/
inductive DrawRequest
  | str (font : Font) (x y : ℤ) (s : CStr)
  | utf8 (font : Font) (x y : ℤ) (s : CStr)
  | box (x y w h : ℤ)
  | hline (x y w : ℤ)
  | frame (x y w h : ℤ)
  | setDrawColor (color : ℤ)
  | setClipWindow (x0 y0 x1 y1 : ℤ)
  | setMaxClipWindow
  deriving DecidableEq

/-- What is done for a request. -/
def DrawRequest.ops (u : U8g2) : DrawRequest → List DrawOp
  | .str font x y s => uiDrawStr (u.strWidth font) (u.past s) x y s
  | .utf8 font x y s => uiDrawUtf8 (u.strWidth font) x y s
  | .box x y w h => uiDrawBox x y w h
  | .hline x y w => uiDrawHline x y w
  | .frame x y w h => [.drawFrame x y w h]
  | .setDrawColor _ => []
  | .setClipWindow .. => []
  | .setMaxClipWindow => []

/-- `sys_status_t`, as far as the pages draw it. -/
structure PageStatus extends SysStatus where
  cpuUsage : ℚ := 0
  cpuTemp : ℚ := 0
  memTotalKb : UInt64 := 0
  memAvailableKb : UInt64 := 0
  uptimeSec : UInt32 := 0
  hostname : CStr := []
  ipAddr : CStr := []
  net : NetStatus := {}

/-- A program that draws. -/
abbrev Draw := Recorder Font DrawRequest

namespace Draw

/-! ## Statements -/

def setFont (font : Font) : Draw Unit := set font

def str (x y : ℤ) (s : CStr) : Draw Unit := emit fun font => .str font x y s

def utf8 (x y : ℤ) (s : CStr) : Draw Unit := emit fun font => .utf8 font x y s

def box (x y w h : ℤ) : Draw Unit := emit fun _ => .box x y w h

def hline (x y w : ℤ) : Draw Unit := emit fun _ => .hline x y w

def frame (x y w h : ℤ) : Draw Unit := emit fun _ => .frame x y w h

def setDrawColor (color : ℤ) : Draw Unit := emit fun _ => .setDrawColor color

def setClipWindow (x0 y0 x1 y1 : ℤ) : Draw Unit := emit fun _ => .setClipWindow x0 y0 x1 y1

def setMaxClipWindow : Draw Unit := emit fun _ => .setMaxClipWindow

/-- `u8g2_GetStrWidth` in the font that is set. -/
def strWidth (u : U8g2) (s : CStr) : Draw ℤ := (fun font => u.strWidth font s) <$> get

/-! ## Layout -/

/-- `SCREEN_HEIGHT`. -/
abbrev screenHeight : ℤ := 64
/-- `CONTENT_Y_START`. -/
abbrev contentYStart : ℤ := 16
/-- `MARGIN_LEFT`. -/
abbrev marginLeft : ℤ := 2
/-- `MARGIN_RIGHT`. -/
abbrev marginRight : ℤ := 2
/-- `LINE1_Y`. -/
abbrev line1Y : ℤ := contentYStart + 12
/-- `LINE2_Y`. -/
abbrev line2Y : ℤ := contentYStart + 28
/-- `LINE3_Y`. -/
abbrev line3Y : ℤ := contentYStart + 44
/-- `DIALOG_WIDTH`. -/
abbrev dialogWidth : ℤ := 100
/-- `DIALOG_HEIGHT`. -/
abbrev dialogHeight : ℤ := 40
/-- `DIALOG_X`. -/
abbrev dialogX : ℤ := (screenWidth - dialogWidth).tdiv 2
/-- `DIALOG_Y`. -/
abbrev dialogY : ℤ := (screenHeight - dialogHeight).tdiv 2

/-- The body of a line of a list, inverted if it is selected. -/
def onLine (inverted : Prop) [Decidable inverted] (y xOffset : ℤ) (body : Draw Unit) :
    Draw Unit := do
  when inverted do
    setDrawColor 1
    box xOffset (y - 12) screenWidth 14
    setDrawColor 0
  body
  when inverted (setDrawColor 1)

section Pages

variable (u : U8g2)

/-! ## Home, gateway and network -/

/-- `home_get_title`. -/
def homeGetTitle (status : Option PageStatus) : CStr :=
  match status with
  | none => "NanoHat".toList
  | some s => if s.hostname ≠ [] then s.hostname else "NanoHat".toList

/-- `home_render`. -/
def homeRender (status : Option PageStatus) (xOffset : ℤ) : Draw Unit := do
  let x := marginLeft + xOffset
  setFont .content
  match status with
  | none => do
    str x line1Y "CPU: --    --\xb0C".toList
    str x line2Y "MEM:  --".toList
    str x line3Y "RUN:  --".toList
  | some s => do
    let usage := fixed 3 0 s.cpuUsage
    let temp := fixed 2 0 s.cpuTemp
    str x line1Y (snprintf 64
      ("CPU:".toList ++ usage ++ "%   ".toList ++ temp ++ "\xb0C".toList))
    let memUsedMb := decimal ((s.memTotalKb - s.memAvailableKb) / 1024).toNat
    let memTotalMb := decimal (s.memTotalKb / 1024).toNat
    str x line2Y (snprintf 64
      ("MEM: ".toList ++ memUsedMb ++ "M / ".toList ++ memTotalMb ++ "M".toList))
    str x line3Y (snprintf 64 ("RUN: ".toList ++ formatUptime s.uptimeSec 16))

/-- A line with a label and a speed. -/
def speedLine (label : CStr) (bytesPerSec : UInt64) (y xOffset : ℤ) : Draw Unit := do
  let speed := formatSpeedBps u.roundDouble bytesPerSec 16
  str (marginLeft + xOffset) y label
  let width ← strWidth u speed
  str (xOffset + screenWidth - marginRight - width) y speed

/-- `gateway_render` and `network_render`: an address, and the speeds. -/
def trafficRender (label missing : CStr) (address : PageStatus → CStr)
    (status : Option PageStatus) (xOffset : ℤ) : Draw Unit := do
  let x := marginLeft + xOffset
  setFont .content
  match status with
  | none => do
    str x line1Y (label ++ "--".toList)
    str x line2Y "RX: --".toList
    str x line3Y "TX: --".toList
  | some s => do
    str x line1Y (snprintf 32 (label ++ if address s ≠ [] then address s else missing))
    speedLine u "RX:".toList s.net.rxSpeed line2Y xOffset
    speedLine u "TX:".toList s.net.txSpeed line3Y xOffset

/-- `gateway_render`. -/
def gatewayRender : Option PageStatus → ℤ → Draw Unit :=
  trafficRender u "GW: ".toList "--".toList fun s => s.net.gateway

/-- `network_render`. -/
def networkRender : Option PageStatus → ℤ → Draw Unit :=
  trafficRender u "IP: ".toList "No IP".toList fun s => s.ipAddr

/-! ## Services -/

/-- `ICON_*`, and the blank of a blinking icon. -/
def iconText : Icon → CStr
  | .running => "\xe2\x96\xb6".toList
  | .stopped => "\xe2\x96\xa0".toList
  | .pendingRun => "\xe2\x96\xb7".toList
  | .pendingStop => "\xe2\x96\xa1".toList
  | .unknown => "--".toList
  | .blank => " ".toList

def actionText : DialogAction → CStr
  | .start => "Start".toList
  | .stop => "Stop".toList

/-- `render_dialog`. -/
def renderDialog (dialog : DialogView) (xOffset : ℤ) : Draw Unit := do
  let dx := dialogX + xOffset
  let dy := dialogY
  setDrawColor 0
  box dx dy dialogWidth dialogHeight
  setDrawColor 1
  frame dx dy dialogWidth dialogHeight
  setFont .content
  let action := actionText dialog.action
  let title := snprintf 24 (action ++ ' ' :: dialog.serviceName ++ "?".toList)
  let titleW ← strWidth u title
  let title := if titleW > dialogWidth - 8 then snprintf 24 (action ++ " svc?".toList) else title
  let titleW ← strWidth u title
  str (dx + (dialogWidth - titleW).tdiv 2) (dy + 14) title
  let btnY := dy + dialogHeight - 10
  let noX := dx + 15
  let yesX := dx + dialogWidth - 35
  if dialog.selection = 0 then do
    box (noX - 2) (btnY - 10) 24 14
    setDrawColor 0
    str noX btnY "No".toList
    setDrawColor 1
    str yesX btnY "Yes".toList
  else do
    str noX btnY "No".toList
    box (yesX - 2) (btnY - 10) 28 14
    setDrawColor 0
    str yesX btnY "Yes".toList
    setDrawColor 1

/-- `render_service_line`. -/
def renderServiceLine (y : ℤ) (line : ServiceLine) (xOffset : ℤ) : Draw Unit :=
  onLine line.inverted y xOffset do
    setFont .content
    str (marginLeft + xOffset) y (snprintf 32 line.name)
    setFont .symbols
    let iconWidth ← strWidth u (iconText line.icon)
    utf8 (xOffset + screenWidth - marginRight - iconWidth) y (iconText line.icon)

/-- A line of text in the place of the list. -/
def servicesMessage (text : CStr) (xOffset : ℤ) : Draw Unit := do
  setFont .content
  str (marginLeft + xOffset) line2Y text

/-- `services_render`; the lines and the dialog are those of `ServicesState.servicesRender`. -/
def servicesRender (st : ServicesState) (status : Option PageStatus) (mode : PageMode)
    (nowMs : UInt64) (xOffset : ℤ) : Draw Unit :=
  match status with
  | none => servicesMessage "Loading...".toList xOffset
  | some s =>
    if s.serviceCount = 0 then servicesMessage "No services".toList xOffset
    else do
      let drawn := (st.servicesRender s.toSysStatus mode nowMs).1
      forM (drawn.lines.zip [line1Y, line2Y, line3Y]) fun line =>
        renderServiceLine u line.2 line.1 xOffset
      match drawn.dialog with
      | none => pure ()
      | some dialog => renderDialog u dialog xOffset

/-! ## Settings -/

/-- `render_setting_line`. -/
def renderSettingLine (y : ℤ) (name value : CStr) (isSelected : Bool) (mode : PageMode)
    (xOffset : ℤ) : Draw Unit :=
  onLine (isSelected ∧ mode = .enter) y xOffset do
    setFont .content
    str (marginLeft + xOffset) y name
    let valueWidth ← strWidth u value
    str (xOffset + (screenWidth - marginRight) - valueWidth) y value

/-- `settings_render`. -/
def settingsRender (g : PagesGlobals) (mode : PageMode) (xOffset : ℤ) : Draw Unit := do
  let st := g.pageState.settings
  let autoSleep := if g.autoScreenOffEnabled then "ON".toList else "OFF".toList
  renderSettingLine u line1Y "Auto Sleep".toList autoSleep (st.selectedIndex = 0) mode xOffset
  let brightness := snprintf 8 (decimal st.brightness.toNat)
  renderSettingLine u line2Y "Brightness".toList brightness (st.selectedIndex = 1) mode xOffset

/-! ## The list of pages -/

/-- `page_t`, as far as it is drawn. -/
structure PageView where
  name : CStr
  /-- `get_title`; `none` for `NULL` -/
  getTitle : Option PageStatus → Option CStr
  render : Option PageStatus → PageMode → UInt64 → ℤ → PagesGlobals → Draw Unit
  /-- `get_selected_index` and `get_item_count` -/
  selection : Option (PagesGlobals → ℤ × ℤ) := none

/-- `page_home`. -/
def pageHome : PageView where
  name := "Home".toList
  getTitle status := some (homeGetTitle status)
  render status _ _ xOffset _ := homeRender status xOffset

/-- `page_gateway`. -/
def pageGateway : PageView where
  name := "Gateway".toList
  getTitle _ := some "Gateway".toList
  render status _ _ xOffset _ := gatewayRender u status xOffset

/-- `page_network`. -/
def pageNetwork : PageView where
  name := "Network".toList
  getTitle _ := some "Network".toList
  render status _ _ xOffset _ := networkRender u status xOffset

/-- `page_services`, for a configuration of `serviceCount` services. -/
def pageServices (serviceCount : ℕ) : PageView where
  name := "Services".toList
  getTitle _ := some "Services".toList
  render status mode nowMs xOffset g :=
    servicesRender u g.pageState.services status mode nowMs xOffset
  selection := some fun g => (g.pageState.services.selectedIndex, serviceCount)

/-- `page_settings`. -/
def pageSettings : PageView where
  name := "Settings".toList
  getTitle _ := some "Settings".toList
  render _ mode _ xOffset g := settingsRender u g mode xOffset
  selection := some fun g => (g.pageState.settings.selectedIndex, settingsCount)

/-- `pages_get_list`. -/
def pageViews (serviceCount : ℕ) : List PageView :=
  [pageHome, pageGateway u, pageNetwork u, pageServices u serviceCount, pageSettings u]

/-! ## The page controller -/

variable (serviceCount : ℕ) (pc : PageController PagesState) (status : Option PageStatus)
  (nowMs : UInt64)

/-- The page of an index, if there is one. -/
def pageAt (pageIdx : ℤ) : Option (Page PagesState × PageView) :=
  if pageIdx < 0 ∨ pageIdx ≥ pc.pageCount then none
  else
    match pc.pages[pageIdx.toNat]?, (pageViews u serviceCount)[pageIdx.toNat]? with
    | some (some page), some view => some (page, view)
    | _, _ => none

/-- `title_x`, for the width of the title. -/
def titlePosition (titleWidth xOffset : ℤ) : ℤ :=
  let rnd := u.roundFloat
  let centerX := (screenWidth - titleWidth).tdiv 2
  let progress := easeInOutQuad rnd (animProgress rnd pc.anim.startMs nowMs 250)
  let x :=
    if pc.anim.type = .enterMode then 2 + truncate (rnd (rnd ↑(centerX - 2) * progress))
    else if pc.anim.type = .exitMode then
      centerX + truncate (rnd (rnd ↑(2 - centerX) * progress))
    else if pc.pageMode = .enter then centerX
    else 2 + xOffset
  if pc.anim.type = .titleShake then
    x + animShakeOffset rnd (animProgress rnd pc.anim.startMs nowMs 400)
  else x

/-- The text of the page or selection indicator, if one is drawn. -/
def indicatorText (view : PageView) : Option CStr :=
  if pc.pageMode = .view ∧ pc.anim.type ≠ .enterMode then
    some (snprintf 32 (signedDecimal (pc.currentPage + 1) ++ '/' :: signedDecimal pc.pageCount))
  else if pc.pageMode = .enter ∧ pc.anim.type ≠ .exitMode then
    match view.selection with
    | none => none
    | some selection =>
      let (selected, count) := selection pc.globals
      if selected ≥ 0 ∧ count > 0 then
        some (snprintf 24 (signedDecimal (selected + 1) ++ '/' :: signedDecimal count))
      else none
  else none

def renderIndicator (text : Option CStr) (xOffset : ℤ) : Draw Unit :=
  match text with
  | none => pure ()
  | some text => do
    setFont .small
    let indWidth ← strWidth u text
    str (126 - indWidth + xOffset) 12 text

/-- `remain_width`; the elapsed time is unsigned. -/
def remainWidth (timeoutMs : UInt32) (elapsedMs : UInt64) : ℤ :=
  let timeoutMs := timeoutMs.toUInt64
  if elapsedMs < timeoutMs then (128 * (timeoutMs - elapsedMs) / timeoutMs).toNat else 0

/-- The length of the line under the title. -/
def lineWidth : ℤ :=
  if pc.pageMode = .enter ∧ 0 < pc.enterModeTimeoutMs then
    remainWidth pc.enterModeTimeoutMs (nowMs - pc.enterModeStartMs)
  else if pc.globals.autoScreenOffEnabled ∧ 0 < pc.idleTimeoutMs then
    remainWidth pc.idleTimeoutMs (nowMs - pc.lastActivityMs)
  else screenWidth

/-- `render_title_bar`. -/
def renderTitleBar (pageIdx xOffset : ℤ) : Draw Unit :=
  match pageAt u serviceCount pc pageIdx with
  | none => pure ()
  | some (page, view) => do
    let title := (view.getTitle status).getD view.name
    setFont .title
    let titleWidth ← strWidth u title
    let titleX := titlePosition u pc nowMs titleWidth xOffset
    str titleX 12 title
    when (pc.pageMode = .view ∧ page.canEnter ∧ pc.anim.type ≠ .enterMode) do
      setFont .symbols
      utf8 (titleX + titleWidth) 12 " \xe2\x86\x92".toList
    renderIndicator u (indicatorText pc view) xOffset
    when (lineWidth pc nowMs > 0) (hline xOffset 15 (lineWidth pc nowMs))

/-- `render_page_content`. -/
def renderPageContent (pageIdx xOffset : ℤ) : Draw Unit :=
  match pageAt u serviceCount pc pageIdx with
  | none => pure ()
  | some (_, view) => do
    setClipWindow 0 contentYStart screenWidth screenHeight
    view.render status pc.pageMode nowMs xOffset pc.globals
    setMaxClipWindow

/-- The state after `render_page_content`; without a status no page changes it. -/
def afterPageContent (pageIdx : ℤ) : PageController PagesState :=
  match status with
  | none => pc
  | some s => pc.renderPageContent s.toSysStatus pageIdx nowMs

/-- `page_controller_render`. -/
def pageControllerRender : Draw Unit :=
  if pc.anim.type.isSlide then do
    let rnd := u.roundFloat
    let progress := animProgress rnd pc.anim.startMs nowMs 250
    let outOffset := animSlideOffset rnd progress pc.anim.type true
    let inOffset := animSlideOffset rnd progress pc.anim.type false
    renderTitleBar u serviceCount pc status nowMs pc.anim.fromPage outOffset
    renderPageContent u serviceCount pc status nowMs pc.anim.fromPage outOffset
    let pc' := afterPageContent pc status nowMs pc.anim.fromPage
    renderTitleBar u serviceCount pc' status nowMs pc.anim.toPage inOffset
    renderPageContent u serviceCount pc' status nowMs pc.anim.toPage inOffset
  else do
    renderTitleBar u serviceCount pc status nowMs pc.currentPage 0
    renderPageContent u serviceCount pc status nowMs pc.currentPage 0

end Pages

end Draw

end NanoHat
