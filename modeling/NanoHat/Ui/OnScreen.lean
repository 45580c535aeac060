import NanoHat.Ui.PageRender
import NanoHat.Ui.Reachable

/-!
# Renders stay on the screen

Every call of u8g2 during `page_controller_render` starts in a column of the screen, and boxes and
lines cover precisely the requested columns that are on it. The helpers of `ui_draw.c` see to it for
every offset; the frame of the dialog is drawn without them, and it is on the screen because no page
slides while the dialog is open (`drawn_onScreen`).
-/

namespace NanoHat

open Recorder Rounding UbusHal

/-! ## Calls of u8g2 -/

/-- A call of u8g2 is for a position in a column of the screen. -/
def DrawOp.Starts : DrawOp → Prop
  | .read .. => True
  | .drawStr x .. => x ∈ screenColumns
  | .drawUTF8 x .. => x ∈ screenColumns
  | .drawBox x .. => x ∈ screenColumns
  | .drawHLine x .. => x ∈ screenColumns
  | .drawFrame x .. => x ∈ screenColumns

/-- The start and the width of a box or a line. -/
def DrawOp.span : DrawOp → Option (ℤ × ℤ)
  | .drawBox x _ w _ => some (x, w)
  | .drawHLine x _ w => some (x, w)
  | _ => none

/-- The calls cover precisely the columns from `x` on, `w` many, that are on the screen. -/
structure CoversExactly (x w : ℤ) (ops : List DrawOp) : Prop where
  covers : ∀ op ∈ ops, ∃ x0 w', op.span = some (x0, w') ∧ 0 < w' ∧ x0 + w' ≤ screenWidth ∧
    Set.Ico x0 (x0 + w') = Set.Ico x (x + w) ∩ screenColumns
  nothing_iff : ops = [] ↔ Set.Ico x (x + w) ∩ screenColumns = ∅

/-- What is asked of a request: the calls start on the screen, boxes and lines are clipped exactly,
and the frame is that of a dialog that does not slide. -/
def DrawRequest.OnScreen (u : U8g2) (r : DrawRequest) : Prop :=
  (∀ op ∈ r.ops u, op.Starts) ∧
    match r with
    | .box x _ w _ => CoversExactly x w (r.ops u)
    | .hline x _ w => CoversExactly x w (r.ops u)
    | .frame x _ w _ => x = Draw.dialogX ∧ x + w ≤ screenWidth
    | _ => True

theorem mem_screenColumns {x : ℤ} : x ∈ screenColumns ↔ 0 ≤ x ∧ x < screenWidth := Set.mem_Ico

/-- The characters skipped take no more columns than there are left of the screen. -/
theorem skip_mul_le {x charW : ℤ} (hx : x < 0) (hcharW : 0 < charW) :
    x + ((-x).tdiv charW).toNat * charW ≤ 0 := by
  have hnonneg : 0 ≤ -x := by omega
  have hdiv : 0 ≤ (-x).tdiv charW := Int.tdiv_nonneg hnonneg hcharW.le
  have hmul : (-x).tdiv charW * charW ≤ -x := by
    rw [Int.tdiv_eq_ediv_of_nonneg hnonneg]
    exact Int.ediv_mul_le _ hcharW.ne'
  rw [Int.toNat_of_nonneg hdiv]
  omega

theorem starts_uiDrawStr (strWidth : CStr → ℤ) (past : ℕ → Char) (x y : ℤ) (s : CStr) :
    ∀ op ∈ uiDrawStr strWidth past x y s, op.Starts := by
  unfold uiDrawStr
  dsimp only
  intro op hop
  split at hop
  · cases hop
  rename_i hoff
  split at hop
  · rename_i hx
    obtain rfl := List.mem_singleton.1 hop
    exact mem_screenColumns.2 ⟨hx, by omega⟩
  rename_i hx
  split at hop
  · cases hop
  rename_i hcharW
  have hdraw := skip_mul_le (Int.not_le.1 hx) (Int.not_le.1 hcharW)
  split at hop
  · obtain rfl := List.mem_singleton.1 hop
    exact trivial
  · rcases List.mem_cons.1 hop with rfl | hop
    · exact trivial
    · obtain rfl := List.mem_singleton.1 hop
      refine mem_screenColumns.2 ?_
      have hscreen : screenWidth = 128 := rfl
      split <;> omega

theorem starts_uiDrawUtf8 (strWidth : CStr → ℤ) (x y : ℤ) (s : CStr) :
    ∀ op ∈ uiDrawUtf8 strWidth x y s, op.Starts := by
  unfold uiDrawUtf8
  dsimp only
  intro op hop
  split at hop
  · cases hop
  · obtain rfl := List.mem_singleton.1 hop
    refine mem_screenColumns.2 ?_
    have hscreen : screenWidth = 128 := rfl
    split <;> omega

/-- A helper that passes the columns of `clipSpan` on. -/
theorem coversExactly_of_clipSpan {x w : ℤ} {ops : List DrawOp} {f : ℤ → ℤ → DrawOp}
    (hf : ∀ x0 w', (f x0 w').span = some (x0, w'))
    (hops : ops = ((clipSpan x w).map fun span => f span.1 span.2).toList) :
    CoversExactly x w ops := by
  obtain ⟨hsome, hnone⟩ := clipSpan_eq x w
  cases hspan : clipSpan x w with
  | none =>
    rw [hspan] at hops hnone
    subst hops
    exact ⟨fun op hop => (by cases hop), iff_of_true rfl (hnone.1 rfl)⟩
  | some span =>
    obtain ⟨x0, w'⟩ := span
    rw [hspan] at hops hnone
    subst hops
    obtain ⟨-, -, hpos, hle, heq⟩ := hsome x0 w' hspan
    refine ⟨fun op hop => ?_, iff_of_false (List.cons_ne_nil _ _) fun hempty => ?_⟩
    · obtain rfl := List.mem_singleton.1 hop
      exact ⟨x0, w', hf x0 w', hpos, hle, heq⟩
    · cases hnone.2 hempty

theorem DrawOp.starts_of_span {op : DrawOp} {x0 w : ℤ} (h : op.span = some (x0, w))
    (hx0 : x0 ∈ screenColumns) : op.Starts := by
  cases op with
  | drawBox x y w h =>
    cases h
    exact hx0
  | drawHLine x y w =>
    cases h
    exact hx0
  | read s offset => cases h
  | drawStr x y s offset => cases h
  | drawUTF8 x y s => cases h
  | drawFrame x y w h => cases h

theorem CoversExactly.starts {x w : ℤ} {ops : List DrawOp} (h : CoversExactly x w ops) :
    ∀ op ∈ ops, op.Starts := by
  intro op hop
  obtain ⟨x0, w', hspan, hpos, -, heq⟩ := h.covers op hop
  have hmem : x0 ∈ Set.Ico x (x + w) ∩ screenColumns := by
    rw [← heq]
    exact Set.mem_Ico.2 ⟨le_rfl, by omega⟩
  exact DrawOp.starts_of_span hspan hmem.2

theorem coversExactly_uiDrawBox {x y w h : ℤ} (hh : 0 < h) :
    CoversExactly x w (uiDrawBox x y w h) := by
  refine coversExactly_of_clipSpan (f := fun x0 w' => .drawBox x0 y w' h) (fun _ _ => rfl) ?_
  unfold uiDrawBox
  rw [if_neg (Int.not_le.2 hh)]
  cases clipSpan x w <;> rfl

theorem coversExactly_uiDrawHline (x y w : ℤ) : CoversExactly x w (uiDrawHline x y w) := by
  refine coversExactly_of_clipSpan (f := fun x0 w' => .drawHLine x0 y w') (fun _ _ => rfl) ?_
  unfold uiDrawHline
  cases clipSpan x w <;> rfl

namespace Draw

/-! ## Statements -/

variable {u : U8g2}

/-- All requests of a program are on the screen. -/
abbrev OnScreen (u : U8g2) {α : Type} (m : Draw α) : Prop := Emits (DrawRequest.OnScreen u) m

theorem onScreen_setFont (font : Font) : OnScreen u (setFont font) := emits_set font

theorem onScreen_strWidth (s : CStr) : OnScreen u (strWidth u s) := emits_get _

theorem onScreen_str (x y : ℤ) (s : CStr) : OnScreen u (str x y s) :=
  emits_emit fun font => ⟨starts_uiDrawStr (u.strWidth font) (u.past s) x y s, trivial⟩

theorem onScreen_utf8 (x y : ℤ) (s : CStr) : OnScreen u (utf8 x y s) :=
  emits_emit fun font => ⟨starts_uiDrawUtf8 (u.strWidth font) x y s, trivial⟩

theorem onScreen_box (x y w : ℤ) {h : ℤ} (hh : 0 < h) : OnScreen u (box x y w h) :=
  emits_emit fun _ => ⟨(coversExactly_uiDrawBox hh).starts, coversExactly_uiDrawBox hh⟩

theorem onScreen_hline (x y w : ℤ) : OnScreen u (hline x y w) :=
  emits_emit fun _ => ⟨(coversExactly_uiDrawHline x y w).starts, coversExactly_uiDrawHline x y w⟩

theorem onScreen_setDrawColor (color : ℤ) : OnScreen u (setDrawColor color) :=
  emits_emit fun _ => ⟨fun _ hop => (by cases hop), trivial⟩

theorem onScreen_setClipWindow (x0 y0 x1 y1 : ℤ) : OnScreen u (setClipWindow x0 y0 x1 y1) :=
  emits_emit fun _ => ⟨fun _ hop => (by cases hop), trivial⟩

theorem onScreen_setMaxClipWindow : OnScreen u setMaxClipWindow :=
  emits_emit fun _ => ⟨fun _ hop => (by cases hop), trivial⟩

/-- The frame of a dialog that does not slide. -/
theorem onScreen_frame (y h : ℤ) : OnScreen u (frame (dialogX + 0) y dialogWidth h) := by
  refine emits_emit fun _ => ⟨fun op hop => ?_, rfl, by decide⟩
  obtain rfl := List.mem_singleton.1 hop
  exact mem_screenColumns.2 ⟨by decide, by decide⟩

theorem onScreen_onLine {inverted : Prop} [Decidable inverted] {y xOffset : ℤ} {body : Draw Unit}
    (h : OnScreen u body) : OnScreen u (onLine inverted y xOffset body) := by
  unfold onLine
  refine .seq (.when fun _ => ?_) (.seq h (.when fun _ => onScreen_setDrawColor 1))
  exact .seq (onScreen_setDrawColor 1) (.seq (onScreen_box _ _ _ (by decide))
    (onScreen_setDrawColor 0))

/-! ## Pages -/

theorem onScreen_homeRender (status : Option PageStatus) (xOffset : ℤ) :
    OnScreen u (homeRender status xOffset) := by
  unfold homeRender
  refine .seq (onScreen_setFont _) ?_
  cases status with
  | none => exact .seq (onScreen_str _ _ _) (.seq (onScreen_str _ _ _) (onScreen_str _ _ _))
  | some s => exact .seq (onScreen_str _ _ _) (.seq (onScreen_str _ _ _) (onScreen_str _ _ _))

theorem onScreen_speedLine (label : CStr) (bytesPerSec : UInt64) (y xOffset : ℤ) :
    OnScreen u (speedLine u label bytesPerSec y xOffset) := by
  unfold speedLine
  exact .seq (onScreen_str _ _ _) (.bind (onScreen_strWidth _) fun _ => onScreen_str _ _ _)

theorem onScreen_trafficRender (label missing : CStr) (address : PageStatus → CStr)
    (status : Option PageStatus) (xOffset : ℤ) :
    OnScreen u (trafficRender u label missing address status xOffset) := by
  unfold trafficRender
  refine .seq (onScreen_setFont _) ?_
  cases status with
  | none => exact .seq (onScreen_str _ _ _) (.seq (onScreen_str _ _ _) (onScreen_str _ _ _))
  | some s =>
    exact .seq (onScreen_str _ _ _) (.seq (onScreen_speedLine _ _ _ _) (onScreen_speedLine _ _ _ _))

theorem onScreen_renderServiceLine (y : ℤ) (line : ServiceLine) (xOffset : ℤ) :
    OnScreen u (renderServiceLine u y line xOffset) := by
  refine onScreen_onLine (.seq (onScreen_setFont _) (.seq (onScreen_str _ _ _) ?_))
  exact .seq (onScreen_setFont _) (.bind (onScreen_strWidth _) fun _ => onScreen_utf8 _ _ _)

/-- The dialog in its place. -/
theorem onScreen_renderDialog (dialog : DialogView) : OnScreen u (renderDialog u dialog 0) := by
  unfold renderDialog
  refine .seq (onScreen_setDrawColor 0) (.seq (onScreen_box _ _ _ (by decide)) ?_)
  refine .seq (onScreen_setDrawColor 1) (.seq (onScreen_frame _ _) (.seq (onScreen_setFont _) ?_))
  refine .bind (onScreen_strWidth _) fun _ => .bind (onScreen_strWidth _) fun _ => ?_
  refine .seq (onScreen_str _ _ _) ?_
  split
  · refine .seq (onScreen_box _ _ _ (by decide)) (.seq (onScreen_setDrawColor 0) ?_)
    exact .seq (onScreen_str _ _ _) (.seq (onScreen_setDrawColor 1) (onScreen_str _ _ _))
  · refine .seq (onScreen_str _ _ _) (.seq (onScreen_box _ _ _ (by decide)) ?_)
    exact .seq (onScreen_setDrawColor 0) (.seq (onScreen_str _ _ _) (onScreen_setDrawColor 1))

theorem onScreen_servicesMessage (text : CStr) (xOffset : ℤ) :
    OnScreen u (servicesMessage text xOffset) :=
  .seq (onScreen_setFont _) (onScreen_str _ _ _)

/-- No dialog is drawn that is not open. -/
theorem servicesRender_dialog {st : ServicesState} (h : st.dialog = .none) (status : SysStatus)
    (mode : PageMode) (nowMs : UInt64) :
    (st.servicesRender status mode nowMs).1.dialog = none := by
  unfold ServicesState.servicesRender
  split
  · rfl
  · refine if_neg fun hc => ?_
    have hdialog : (st.sync status).dialog = .none := h
    rw [hdialog] at hc
    cases hc.1

/-- The services page stays on the screen if it does not slide while the dialog is open. -/
theorem onScreen_servicesRender {st : ServicesState} {xOffset : ℤ}
    (h : xOffset = 0 ∨ st.dialog = .none) (status : Option PageStatus) (mode : PageMode)
    (nowMs : UInt64) : OnScreen u (servicesRender u st status mode nowMs xOffset) := by
  unfold servicesRender
  cases status with
  | none => exact onScreen_servicesMessage _ _
  | some s =>
    dsimp only
    split
    · exact onScreen_servicesMessage _ _
    refine .seq (.forM fun line _ => onScreen_renderServiceLine _ _ _) ?_
    cases hdialog : (st.servicesRender s.toSysStatus mode nowMs).1.dialog with
    | none => exact emits_pure ()
    | some dialog =>
      rcases h with rfl | hclosed
      · exact onScreen_renderDialog dialog
      · rw [servicesRender_dialog hclosed] at hdialog
        cases hdialog

theorem onScreen_renderSettingLine (y : ℤ) (name value : CStr) (isSelected : Bool)
    (mode : PageMode) (xOffset : ℤ) :
    OnScreen u (renderSettingLine u y name value isSelected mode xOffset) := by
  refine onScreen_onLine (.seq (onScreen_setFont _) (.seq (onScreen_str _ _ _) ?_))
  exact .bind (onScreen_strWidth _) fun _ => onScreen_str _ _ _

theorem onScreen_settingsRender (g : PagesGlobals) (mode : PageMode) (xOffset : ℤ) :
    OnScreen u (settingsRender u g mode xOffset) :=
  .seq (onScreen_renderSettingLine _ _ _ _ _ _) (onScreen_renderSettingLine _ _ _ _ _ _)

/-- A page stays on the screen at an offset, if the dialog is not open while it slides. -/
theorem onScreen_pageViews {serviceCount : ℕ} {view : PageView}
    (hview : view ∈ pageViews u serviceCount) {g : PagesGlobals} {xOffset : ℤ}
    (h : xOffset = 0 ∨ g.pageState.services.dialog = .none) (status : Option PageStatus)
    (mode : PageMode) (nowMs : UInt64) :
    OnScreen u (view.render status mode nowMs xOffset g) := by
  simp only [pageViews, List.mem_cons, List.not_mem_nil, or_false] at hview
  rcases hview with rfl | rfl | rfl | rfl | rfl
  · exact onScreen_homeRender status xOffset
  · exact onScreen_trafficRender _ _ _ status xOffset
  · exact onScreen_trafficRender _ _ _ status xOffset
  · exact onScreen_servicesRender h status mode nowMs
  · exact onScreen_settingsRender g mode xOffset

/-! ## The page controller -/

variable {serviceCount : ℕ} {pc : PageController PagesState}

theorem mem_of_pageAt {pageIdx : ℤ} {page : Page PagesState} {view : PageView}
    (h : pageAt u serviceCount pc pageIdx = some (page, view)) :
    view ∈ pageViews u serviceCount := by
  unfold pageAt at h
  split at h
  · cases h
  split at h
  · rename_i hview
    cases h
    exact List.mem_of_getElem? hview
  · cases h

theorem onScreen_renderIndicator (text : Option CStr) (xOffset : ℤ) :
    OnScreen u (renderIndicator u text xOffset) := by
  cases text with
  | none => exact emits_pure ()
  | some text =>
    exact .seq (onScreen_setFont _) (.bind (onScreen_strWidth _) fun _ => onScreen_str _ _ _)

theorem onScreen_renderTitleBar (status : Option PageStatus) (nowMs : UInt64)
    (pageIdx xOffset : ℤ) :
    OnScreen u (renderTitleBar u serviceCount pc status nowMs pageIdx xOffset) := by
  unfold renderTitleBar
  split
  · exact emits_pure ()
  refine .seq (onScreen_setFont _) (.bind (onScreen_strWidth _) fun _ => ?_)
  refine .seq (onScreen_str _ _ _) (.seq (.when fun _ => ?_) ?_)
  · exact .seq (onScreen_setFont _) (onScreen_utf8 _ _ _)
  · exact .seq (onScreen_renderIndicator _ _) (.when fun _ => onScreen_hline _ _ _)

theorem onScreen_renderPageContent {xOffset : ℤ} (h : xOffset = 0 ∨ pc.services.dialog = .none)
    (status : Option PageStatus) (nowMs : UInt64) (pageIdx : ℤ) :
    OnScreen u (renderPageContent u serviceCount pc status nowMs pageIdx xOffset) := by
  unfold renderPageContent
  split
  · exact emits_pure ()
  · rename_i hpage
    have hview := onScreen_pageViews (mem_of_pageAt hpage) h status pc.pageMode nowMs
    exact .seq (onScreen_setClipWindow _ _ _ _) (.seq hview onScreen_setMaxClipWindow)

/-- Drawing a page does not open the dialog. -/
theorem dialog_afterPageContent {n : ℕ} (h : pc.pages = pagesGetList n)
    (status : Option PageStatus) (nowMs : UInt64) (pageIdx : ℤ) :
    (afterPageContent pc status nowMs pageIdx).services.dialog = pc.services.dialog := by
  cases status with
  | none => rfl
  | some s =>
    unfold afterPageContent
    dsimp only
    by_cases hpage : pageIdx = servicesPage
    · rw [hpage, PageController.renderPageContent_services h]
      rfl
    · rw [PageController.renderPageContent_other h hpage]

/-- **A render stays on the screen** in every state that satisfies the invariant. -/
theorem onScreen_pageControllerRender {n : ℕ} (h : pc.DialogInv n) (status : Option PageStatus)
    (nowMs : UInt64) : OnScreen u (pageControllerRender u serviceCount pc status nowMs) := by
  unfold pageControllerRender
  split
  · rename_i hslide
    have hclosed : pc.services.dialog = .none := by
      cases hdialog : pc.services.dialog with
      | none => rfl
      | confirm =>
        -- an open dialog means that nothing moves
        rw [(h.dialog hdialog).still] at hslide
        cases hslide
    refine .seq (onScreen_renderTitleBar _ _ _ _) ?_
    refine .seq (onScreen_renderPageContent (.inr hclosed) _ _ _) ?_
    refine .seq (onScreen_renderTitleBar _ _ _ _) (onScreen_renderPageContent (.inr ?_) _ _ _)
    rw [dialog_afterPageContent h.pages]
    exact hclosed
  · exact .seq (onScreen_renderTitleBar _ _ _ _) (onScreen_renderPageContent (.inl rfl) _ _ _)

end Draw

/-- **Nothing is drawn off the screen.** After all calls of the UI in any order, whatever u8g2 and
the status are, every request of a render at any time is on the screen; with small errors the offset
of a sliding page is within the width of the screen. -/
theorem drawn_onScreen (servicesStr : CStr) (statusCtx displayReady : Bool)
    (calls : List UiSys.Call) (u : U8g2) (font : Font) (status : Option PageStatus)
    (nowMs : UInt64) :
    let cfg := serviceConfigInit servicesStr
    let pc := (UiSys.called cfg statusCtx displayReady calls).client.pageCtrl
    (∀ r ∈ (Draw.pageControllerRender u cfg.length pc status nowMs).recorded font,
        r.OnScreen u) ∧
      (Accurate u.roundFloat → ∀ isOutgoing,
        animSlideOffset u.roundFloat (animProgress u.roundFloat pc.anim.startMs nowMs 250)
          pc.anim.type isOutgoing ∈ Set.Icc (-screenWidth) screenWidth) := by
  intro cfg pc
  have hinv := UiSys.dialogInv_called servicesStr statusCtx displayReady calls
  exact ⟨Draw.onScreen_pageControllerRender hinv status nowMs font, fun h isOutgoing =>
    animSlideOffset_mem h pc.anim.startMs nowMs pc.anim.type isOutgoing⟩

end NanoHat
