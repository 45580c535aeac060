import NanoHat.Ui.PageControllerInvariant
import NanoHat.Ui.PageServices

/-!
# Selection on the services page

The selection goes round the list of services and the window of three lines follows it. Over every
sequence of calls of the callbacks and hooks of the page, the selected service is among the drawn
lines and every index into the arrays of services is in bounds (`selection_after`).
-/

namespace NanoHat

open PageController

/-- A call of a callback or a hook of the services page. -/
inductive ServicesEvent
  | enter
  | exit
  | key (key : UInt8) (longPress : Bool) (mode : PageMode)
  | render (status : SysStatus) (mode : PageMode) (nowMs : UInt64)
  | take (nowMs : UInt64)
  | notify (index : ℤ) (success : Bool)

namespace ServicesState

/-- The state of the page after a call, for `n` services. -/
def step (n : ℕ) (st : ServicesState) : ServicesEvent → ServicesState
  | .enter => st.servicesOnEnter
  | .exit => st.servicesOnExit
  | .key key longPress mode => (st.servicesOnKey n key longPress mode).2
  | .render status mode nowMs => (st.servicesRender status mode nowMs).2
  | .take nowMs => (st.takeControlRequest nowMs).2
  | .notify index success => st.notifyControlResult index success

/-- The selection, its window and the indices kept for later. -/
structure Windowed (n : ℕ) (st : ServicesState) : Prop where
  selected_nonneg : 0 ≤ st.selectedIndex
  selected_lt : st.selectedIndex < n ∨ n = 0 ∧ st.selectedIndex = 0
  scroll_nonneg : 0 ≤ st.scrollOffset
  scroll_le : st.scrollOffset ≤ max 0 ((n : ℤ) - visibleLines)
  window : st.scrollOffset ≤ st.selectedIndex ∧ st.selectedIndex < st.scrollOffset + visibleLines
  dialog : st.dialog = .confirm → 0 < n
  pending : -1 ≤ st.pendingControlIndex ∧ st.pendingControlIndex < n

variable {n : ℕ} {st st' : ServicesState}

/-! ## Steps -/

/-- The selection and the window at the top of the list. -/
theorem windowed_zero (n : ℕ) : (0 : ℤ) ≤ 0 ∧ ((0 : ℤ) < n ∨ n = 0 ∧ (0 : ℤ) = 0) ∧ (0 : ℤ) ≤ 0 ∧
    (0 : ℤ) ≤ max 0 ((n : ℤ) - visibleLines) ∧ ((0 : ℤ) ≤ 0 ∧ (0 : ℤ) < 0 + visibleLines) :=
  ⟨le_rfl, by omega, le_rfl, le_max_left _ _, le_rfl, by decide⟩

theorem none_lt : (-1 : ℤ) ≤ -1 ∧ (-1 : ℤ) < n := ⟨le_rfl, by omega⟩

theorem Windowed.congr (h : Windowed n st) (hsel : st'.selectedIndex = st.selectedIndex)
    (hscroll : st'.scrollOffset = st.scrollOffset) (hdialog : st'.dialog = .confirm → 0 < n)
    (hpending : -1 ≤ st'.pendingControlIndex ∧ st'.pendingControlIndex < n) : Windowed n st' where
  selected_nonneg := by rw [hsel]; exact h.selected_nonneg
  selected_lt := by rw [hsel]; exact h.selected_lt
  scroll_nonneg := by rw [hscroll]; exact h.scroll_nonneg
  scroll_le := by rw [hscroll]; exact h.scroll_le
  window := by rw [hsel, hscroll]; exact h.window
  dialog := hdialog
  pending := hpending

/-- `ensure_visible` moves the window to a new selection, whatever it showed before. -/
theorem Windowed.select (h : Windowed n st) {i : ℤ} (h0 : 0 ≤ i) (hlt : i < n) :
    Windowed n ({ st with selectedIndex := i }.ensureVisible n) := by
  have hscroll : ∀ s : ℤ, s = ({ st with selectedIndex := i }.ensureVisible n).scrollOffset →
      0 ≤ s ∧ s ≤ max 0 ((n : ℤ) - visibleLines) ∧ s ≤ i ∧ i < s + visibleLines := by
    intro s hs
    have h₁ := h.scroll_nonneg
    have h₂ := h.scroll_le
    have hlines : (visibleLines : ℤ) = 3 := rfl
    unfold ensureVisible at hs
    dsimp only at hs
    split_ifs at hs <;> omega
  obtain ⟨h₁, h₂, h₃⟩ := hscroll _ rfl
  exact ⟨h0, Or.inl hlt, h₁, h₂, h₃, h.dialog, h.pending⟩

theorem Windowed.dialogOnKey (h : Windowed n st) (hpos : 0 < n) (key : UInt8)
    (longPress : Bool) : Windowed n (st.dialogOnKey key longPress).2 := by
  have hlt := h.selected_lt
  have h0 := h.selected_nonneg
  unfold ServicesState.dialogOnKey
  split
  · exact h.congr rfl rfl (fun _ => hpos) h.pending
  split
  · split
    · exact h.congr rfl rfl (fun _ => hpos) ⟨by dsimp only; omega, by dsimp only; omega⟩
    · exact h.congr rfl rfl (fun _ => hpos) h.pending
  · exact h

/-- The selection that K1 moves to. -/
theorem up_eq {i m : ℤ} (h0 : 0 ≤ i) (hlt : i < m) :
    (if i - 1 < 0 then m - 1 else i - 1) = (i - 1) % m := by
  rw [Int.sub_eq_add_neg, ← wrapPage_eq h0 hlt (Or.inr rfl)]
  simp only [wrapPage]
  split_ifs <;> omega

/-- The selection that K3 moves to. -/
theorem down_eq {i m : ℤ} (h0 : 0 ≤ i) (hlt : i < m) :
    (if i + 1 ≥ m then 0 else i + 1) = (i + 1) % m := by
  rw [← wrapPage_eq h0 hlt (Or.inl rfl)]
  simp only [wrapPage]
  split_ifs <;> omega

theorem Windowed.listOnKey (h : Windowed n st) (hpos : 0 < n) (key : UInt8)
    (longPress : Bool) : Windowed n (st.listOnKey n key longPress).2 := by
  have hlt := h.selected_lt
  have h0 := h.selected_nonneg
  unfold ServicesState.listOnKey
  split
  · exact h
  split
  · exact h.select (by split_ifs <;> omega) (by split_ifs <;> omega)
  split
  · exact h.select (by split_ifs <;> omega) (by split_ifs <;> omega)
  split
  · exact h.congr rfl rfl (fun _ => hpos) h.pending
  · exact h

theorem Windowed.servicesOnKey (h : Windowed n st) (key : UInt8) (longPress : Bool)
    (mode : PageMode) : Windowed n (st.servicesOnKey n key longPress mode).2 := by
  unfold ServicesState.servicesOnKey
  split
  · exact h
  split
  · exact h
  rename_i hne
  have hpos : 0 < n := Nat.pos_of_ne_zero fun hz => hne (by exact_mod_cast hz)
  split
  · exact h.dialogOnKey hpos key longPress
  · exact h.listOnKey hpos key longPress

theorem Windowed.step (h : Windowed n st) (e : ServicesEvent) : Windowed n (st.step n e) := by
  cases e with
  | enter =>
    obtain ⟨h₁, h₂, h₃, h₄, h₅⟩ := windowed_zero n
    exact ⟨h₁, h₂, h₃, h₄, h₅, h.dialog, h.pending⟩
  | exit => exact h.congr rfl rfl (fun hd => by cases hd) none_lt
  | key key longPress mode => exact h.servicesOnKey key longPress mode
  | render status mode nowMs =>
    rw [ServicesState.step]
    unfold servicesRender
    split
    · exact h
    · exact h.congr rfl rfl h.dialog h.pending
  | take nowMs =>
    rw [ServicesState.step]
    unfold takeControlRequest
    split
    · exact h
    · exact h.congr rfl rfl h.dialog none_lt
  | notify index success =>
    rw [ServicesState.step]
    unfold notifyControlResult
    split
    · exact h
    split
    · exact h
    · exact h.congr rfl rfl h.dialog h.pending

theorem windowed_servicesInit (n : ℕ) : Windowed n servicesInit := by
  obtain ⟨h₁, h₂, h₃, h₄, h₅⟩ := windowed_zero n
  exact ⟨h₁, h₂, h₃, h₄, h₅, fun hd => DialogState.noConfusion hd, none_lt⟩

/-! ## Lines -/

/-- The loop over the visible lines stops at the end of the list. -/
theorem mem_visible {scroll count : ℤ} {i : ℕ} :
    (i ∈ (List.range visibleLines).takeWhile fun i : ℕ => scroll + i < count) ↔
      i < visibleLines ∧ scroll + i < count := by
  have hrange : List.range visibleLines = [0, 1, 2] := rfl
  have hlines : visibleLines = 3 := rfl
  rw [hrange]
  simp only [List.takeWhile_cons, List.takeWhile_nil, decide_eq_true_eq]
  split_ifs <;> simp only [List.mem_cons, List.not_mem_nil, or_false, false_iff] <;> omega

theorem mem_lines {status : SysStatus} {mode : PageMode} {nowMs : UInt64} {line : ServiceLine}
    (h0 : 0 ≤ st.scrollOffset) (hline : line ∈ (st.servicesRender status mode nowMs).1.lines) :
    ∃ i : ℕ, i < visibleLines ∧ (line.index : ℤ) = st.scrollOffset + i ∧
      line.index < status.serviceCount := by
  unfold servicesRender at hline
  split at hline
  · cases hline
  obtain ⟨i, hi, rfl⟩ := List.mem_map.1 hline
  obtain ⟨hlt, hcount⟩ := mem_visible.1 hi
  have hscroll : (st.sync status).scrollOffset = st.scrollOffset := rfl
  rw [hscroll] at hcount
  refine ⟨i, hlt, ?_, ?_⟩
  · dsimp only
    rw [hscroll]
    omega
  · dsimp only
    rw [hscroll]
    omega

theorem mem_dialog {status : SysStatus} {mode : PageMode} {nowMs : UInt64} {view : DialogView}
    (h0 : 0 ≤ st.selectedIndex) (hview : view ∈ (st.servicesRender status mode nowMs).1.dialog) :
    (view.index : ℤ) = st.selectedIndex ∧ view.index < status.serviceCount := by
  unfold servicesRender at hview
  split at hview
  · cases hview
  dsimp only at hview
  split at hview
  · rename_i hdialog
    obtain rfl := Option.some.inj hview
    have hsel : (st.sync status).selectedIndex = st.selectedIndex := rfl
    have hlt := hdialog.2
    rw [hsel] at hlt
    unfold renderDialog
    dsimp only
    rw [hsel]
    omega
  · cases hview

/-- The selected service is drawn. -/
theorem Windowed.drawn (h : Windowed n st) (hpos : 0 < n) {status : SysStatus}
    (hcount : status.serviceCount = n) (mode : PageMode) (nowMs : UInt64) :
    ∃ line ∈ (st.servicesRender status mode nowMs).1.lines,
      (line.index : ℤ) = st.selectedIndex := by
  have hlt := h.selected_lt
  have hwindow := h.window
  obtain ⟨i, hi⟩ : ∃ i : ℕ, st.selectedIndex = st.scrollOffset + i :=
    ⟨(st.selectedIndex - st.scrollOffset).toNat, by omega⟩
  unfold servicesRender
  rw [if_neg (by omega)]
  have hmem : i ∈ (List.range visibleLines).takeWhile fun i : ℕ =>
      (st.sync status).scrollOffset + i < status.serviceCount := by
    have hscroll : (st.sync status).scrollOffset = st.scrollOffset := rfl
    rw [mem_visible, hscroll]
    omega
  refine ⟨_, List.mem_map_of_mem hmem, ?_⟩
  have hsel := h.selected_nonneg
  change ((st.scrollOffset + i).toNat : ℤ) = st.selectedIndex
  omega

/-! ## K1 and K3 -/

theorem listOnKey_up (hpos : 0 < n) (hdialog : st.dialog = .none) :
    (st.servicesOnKey n keyK1 false .enter).2 = { st with selectedIndex :=
      if st.selectedIndex - 1 < 0 then (n : ℤ) - 1 else st.selectedIndex - 1 }.ensureVisible n := by
  unfold ServicesState.servicesOnKey
  rw [if_neg (by simp), if_neg (by omega), if_neg (by rw [hdialog]; exact DialogState.noConfusion)]
  rfl

theorem listOnKey_down (hpos : 0 < n) (hdialog : st.dialog = .none) :
    (st.servicesOnKey n keyK3 false .enter).2 = { st with selectedIndex :=
      if st.selectedIndex + 1 ≥ (n : ℤ) then 0 else st.selectedIndex + 1 }.ensureVisible n := by
  unfold ServicesState.servicesOnKey
  rw [if_neg (by simp), if_neg (by omega), if_neg (by rw [hdialog]; exact DialogState.noConfusion)]
  rfl

/-- K1 and K3 on the list of `n` services: one step round the circle each, in opposite directions. -/
structure Circles (n : ℕ) (st : ServicesState) : Prop where
  up : (st.servicesOnKey n keyK1 false .enter).2.selectedIndex = (st.selectedIndex - 1) % n
  down : (st.servicesOnKey n keyK3 false .enter).2.selectedIndex = (st.selectedIndex + 1) % n
  up_down : ((st.servicesOnKey n keyK1 false .enter).2.servicesOnKey n keyK3 false
    .enter).2.selectedIndex = st.selectedIndex
  down_up : ((st.servicesOnKey n keyK3 false .enter).2.servicesOnKey n keyK1 false
    .enter).2.selectedIndex = st.selectedIndex

theorem Windowed.selected_up (h : Windowed n st) (hpos : 0 < n) (hdialog : st.dialog = .none) :
    (st.servicesOnKey n keyK1 false .enter).2.selectedIndex = (st.selectedIndex - 1) % n := by
  have hlt := h.selected_lt
  rw [listOnKey_up hpos hdialog]
  exact up_eq h.selected_nonneg (by omega)

theorem Windowed.selected_down (h : Windowed n st) (hpos : 0 < n) (hdialog : st.dialog = .none) :
    (st.servicesOnKey n keyK3 false .enter).2.selectedIndex = (st.selectedIndex + 1) % n := by
  have hlt := h.selected_lt
  rw [listOnKey_down hpos hdialog]
  exact down_eq h.selected_nonneg (by omega)

theorem Windowed.circles (h : Windowed n st) (hpos : 0 < n) (hdialog : st.dialog = .none) :
    Circles n st := by
  have hlt := h.selected_lt
  have hself : st.selectedIndex % n = st.selectedIndex :=
    Int.emod_eq_of_lt h.selected_nonneg (by omega)
  have hup := h.servicesOnKey keyK1 false .enter
  have hdown := h.servicesOnKey keyK3 false .enter
  have hup_none : (st.servicesOnKey n keyK1 false .enter).2.dialog = .none := by
    rw [listOnKey_up hpos hdialog]
    exact hdialog
  have hdown_none : (st.servicesOnKey n keyK3 false .enter).2.dialog = .none := by
    rw [listOnKey_down hpos hdialog]
    exact hdialog
  refine ⟨h.selected_up hpos hdialog, h.selected_down hpos hdialog, ?_, ?_⟩
  · rw [hup.selected_down hpos hup_none, h.selected_up hpos hdialog, Int.emod_add_emod,
      Int.sub_add_cancel, hself]
  · rw [hdown.selected_up hpos hdown_none, h.selected_down hpos hdialog, Int.emod_sub_emod,
      Int.add_sub_cancel, hself]

/-! ## Runs -/

/-- The indices into the arrays of services that rendering, the icons and a confirmation use. -/
structure InBounds (st : ServicesState) : Prop where
  lines : ∀ status mode nowMs, status.serviceCount ≤ maxMonitoredServices →
    ∀ line ∈ (st.servicesRender status mode nowMs).1.lines,
      (∃ i : ℕ, (line.index : ℤ) = st.scrollOffset + i) ∧ line.index < maxMonitoredServices
  dialog : ∀ status mode nowMs, status.serviceCount ≤ maxMonitoredServices →
    ∀ view ∈ (st.servicesRender status mode nowMs).1.dialog,
      (view.index : ℤ) = st.selectedIndex ∧ view.index < maxMonitoredServices
  confirm : st.dialog = .confirm →
    0 ≤ st.selectedIndex ∧ st.selectedIndex < maxMonitoredServices
  pending : st.pendingControlIndex = -1 ∨
    0 ≤ st.pendingControlIndex ∧ st.pendingControlIndex < maxMonitoredServices

/-- What holds of the selection between two calls. -/
structure SelectionOk (n : ℕ) (st : ServicesState) : Prop where
  selected : 0 < n → 0 ≤ st.selectedIndex ∧ st.selectedIndex < n
  scroll : 0 ≤ st.scrollOffset ∧ st.scrollOffset ≤ max 0 ((n : ℤ) - visibleLines)
  window : st.scrollOffset ≤ st.selectedIndex ∧ st.selectedIndex < st.scrollOffset + visibleLines
  drawn : 0 < n → ∀ status mode nowMs, status.serviceCount = n →
    ∃ line ∈ (st.servicesRender status mode nowMs).1.lines, (line.index : ℤ) = st.selectedIndex
  circles : 0 < n → st.dialog = .none → Circles n st
  inBounds : n ≤ maxMonitoredServices → InBounds st

theorem Windowed.inBounds (h : Windowed n st) (hn : n ≤ maxMonitoredServices) : InBounds st where
  lines status mode nowMs hcount line hline := by
    obtain ⟨i, -, hindex, hlt⟩ := mem_lines h.scroll_nonneg hline
    exact ⟨⟨i, hindex⟩, hlt.trans_le hcount⟩
  dialog status mode nowMs hcount view hview := by
    obtain ⟨hindex, hlt⟩ := mem_dialog h.selected_nonneg hview
    exact ⟨hindex, hlt.trans_le hcount⟩
  confirm hdialog := by
    have hpos := h.dialog hdialog
    have hlt := h.selected_lt
    exact ⟨h.selected_nonneg, by omega⟩
  pending := by
    have hpending := h.pending
    omega

/-- **The selection** for any number of services, after any sequence of calls. -/
theorem selection_after (n : ℕ) (es : List ServicesEvent) :
    SelectionOk n (Runs.run (step n) servicesInit es) := by
  have h : Windowed n (Runs.run (step n) servicesInit es) :=
    Runs.run_invariant (P := Windowed n) (fun _ e h => h.step e) (windowed_servicesInit n) es
  have hlt := h.selected_lt
  exact ⟨fun hpos => ⟨h.selected_nonneg, by omega⟩, ⟨h.scroll_nonneg, h.scroll_le⟩, h.window,
    fun hpos _ mode nowMs hcount => h.drawn hpos hcount mode nowMs, h.circles, h.inBounds⟩

end ServicesState

end NanoHat
