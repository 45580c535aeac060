import NanoHat.Ui.PageControllerInvariant
import NanoHat.Ui.UiController

/-!
# The services dialog

What a key press, a tick and a render can do to the services page, through the page controller. The
dialog is open only while the services page is entered and nothing moves (`DialogInv`); a key press
then either closes enter mode or goes to `services_on_key` (`handleKey_outcome`), a tick closes the
dialog or leaves it alone (`tick_outcome`), and a render draws exactly the dialog that the page
state describes (`render_eq`, `servicesRender_view`).
-/

namespace NanoHat

/-! ## The page state -/

namespace ServicesState

/-- What holds of the page state between calls, for `n` services. -/
structure Ok (n : ℕ) (st : ServicesState) : Prop where
  selected_nonneg : 0 ≤ st.selectedIndex
  selected_lt : 0 < n → st.selectedIndex < n
  selection : st.dialogSelection = 0 ∨ st.dialogSelection = 1
  idle : st.pendingControlIndex = -1
  nonempty : st.dialog = .confirm → 0 < n

/-- What keys leave alone unless they confirm the dialog. -/
structure Still (st st' : ServicesState) : Prop where
  uiStates : st'.uiStates = st.uiStates
  cachedRunning : st'.cachedRunning = st.cachedRunning

theorem Still.refl (st : ServicesState) : Still st st := ⟨rfl, rfl⟩

/-- The key that confirms the dialog with Yes. -/
def Confirms (st : ServicesState) (key : UInt8) (longPress : Bool) : Prop :=
  st.dialog = .confirm ∧ st.dialogSelection = 1 ∧ key = keyK2 ∧ longPress = false

/-- The page state after it. -/
def confirmed (st : ServicesState) : ServicesState :=
  let i := st.selectedIndex.toNat
  { st with
    uiStates :=
      Function.update st.uiStates i (if st.cachedRunning i then .stopping else .starting)
    pendingControlIndex := st.selectedIndex
    pendingControlStart := !st.cachedRunning i
    dialog := .none }

theorem ok_servicesInit (n : ℕ) : servicesInit.Ok n where
  selected_nonneg := le_rfl
  selected_lt h := Int.natCast_pos.2 h
  selection := Or.inl rfl
  idle := rfl
  nonempty h := by cases h

theorem Ok.onEnter {n : ℕ} {st : ServicesState} (h : st.Ok n) : st.servicesOnEnter.Ok n where
  selected_nonneg := le_rfl
  selected_lt hn := Int.natCast_pos.2 hn
  selection := h.selection
  idle := h.idle
  nonempty := h.nonempty

theorem Ok.onExit {n : ℕ} {st : ServicesState} (h : st.Ok n) : st.servicesOnExit.Ok n where
  selected_nonneg := h.selected_nonneg
  selected_lt := h.selected_lt
  selection := h.selection
  idle := rfl
  nonempty hd := by cases hd

theorem Ok.ensureVisible {n : ℕ} {st : ServicesState} (h : st.Ok n) (serviceCount : ℤ) :
    (st.ensureVisible serviceCount).Ok n :=
  ⟨h.selected_nonneg, h.selected_lt, h.selection, h.idle, h.nonempty⟩

/-- Moving the selection. -/
theorem Ok.select {n : ℕ} {st : ServicesState} (h : st.Ok n) {i : ℤ} (h0 : 0 ≤ i) (hlt : i < n) :
    ({ st with selectedIndex := i }.ensureVisible n).Ok n :=
  have hi : Ok n { st with selectedIndex := i } :=
    ⟨h0, fun _ => hlt, h.selection, h.idle, h.nonempty⟩
  hi.ensureVisible n

/-- A key on the dialog. -/
theorem dialogOnKey_cases {n : ℕ} {st : ServicesState} (h : st.Ok n) (hdialog : st.dialog = .confirm)
    (key : UInt8) (longPress : Bool) :
    let r := st.dialogOnKey key longPress
    (st.Confirms key longPress ∧ r = (true, st.confirmed)) ∨
    (¬st.Confirms key longPress ∧ r.2.Ok n ∧ Still st r.2 ∧ (r.1 = false → r.2 = st)) := by
  unfold dialogOnKey
  split
  · rename_i hkey
    refine Or.inr ⟨fun hc => ?_, ⟨h.selected_nonneg, h.selected_lt, ?_, h.idle, h.nonempty⟩,
      ⟨rfl, rfl⟩, fun hfalse => by cases hfalse⟩
    · rw [hc.2.2.1] at hkey
      exact absurd hkey.1 (by decide)
    · rcases h.selection with hs | hs
      · exact Or.inr (by simp [hs])
      · exact Or.inl (by simp [hs])
  split
  · rename_i hkey
    split
    · rename_i hyes
      exact Or.inl ⟨⟨hdialog, hyes, hkey.1, by simpa using hkey.2⟩, rfl⟩
    · rename_i hno
      exact Or.inr ⟨fun hc => hno hc.2.1,
        ⟨h.selected_nonneg, h.selected_lt, h.selection, h.idle, fun hd => by cases hd⟩, ⟨rfl, rfl⟩,
        fun hfalse => by cases hfalse⟩
  · rename_i hkey
    exact Or.inr ⟨fun hc => hkey ⟨hc.2.2.1, by simp [hc.2.2.2]⟩, h, .refl st, fun _ => rfl⟩

/-- A key on the list. -/
theorem listOnKey_keeps {n : ℕ} {st : ServicesState} (h : st.Ok n) (hpos : 0 < n) (key : UInt8)
    (longPress : Bool) :
    let r := st.listOnKey n key longPress
    r.2.Ok n ∧ Still st r.2 ∧ (r.1 = false → r.2 = st) := by
  have hlt := h.selected_lt hpos
  have h0 := h.selected_nonneg
  unfold listOnKey
  split
  · exact ⟨h, .refl st, fun _ => rfl⟩
  split
  · refine ⟨h.select ?_ ?_, ⟨rfl, rfl⟩, fun hfalse => by cases hfalse⟩
    · split <;> omega
    · split <;> omega
  split
  · refine ⟨h.select ?_ ?_, ⟨rfl, rfl⟩, fun hfalse => by cases hfalse⟩
    · split <;> omega
    · split <;> omega
  split
  · exact ⟨⟨h.selected_nonneg, h.selected_lt, Or.inl rfl, h.idle, fun _ => hpos⟩, ⟨rfl, rfl⟩,
      fun hfalse => by cases hfalse⟩
  · exact ⟨h, .refl st, fun _ => rfl⟩

/-- **A key on the services page** confirms the dialog, or changes nothing but selection and
dialog; a key that is not handled changes nothing. -/
theorem servicesOnKey_cases {n : ℕ} {st : ServicesState} (h : st.Ok n) (key : UInt8)
    (longPress : Bool) :
    let r := servicesOnKey n st key longPress .enter
    (st.Confirms key longPress ∧ r = (true, st.confirmed)) ∨
    (¬st.Confirms key longPress ∧ r.2.Ok n ∧ Still st r.2 ∧ (r.1 = false → r.2 = st)) := by
  unfold servicesOnKey
  split
  · rename_i hmode
    exact absurd rfl hmode
  split
  · rename_i hzero
    have hn : n = 0 := by exact_mod_cast hzero
    refine Or.inr ⟨fun hc => ?_, h, .refl st, fun _ => rfl⟩
    have hpos := h.nonempty hc.1
    omega
  rename_i hn
  have hpos : 0 < n := Nat.pos_of_ne_zero fun hz => hn (by exact_mod_cast hz)
  split
  · rename_i hdialog
    exact dialogOnKey_cases h hdialog key longPress
  · rename_i hdialog
    exact Or.inr ⟨fun hc => hdialog hc.1, listOnKey_keeps h hpos key longPress⟩

/-! ### Rendering -/

/-- The dialog that the page state describes: its action is the one of the flag copied last. -/
def view (st : ServicesState) (status : SysStatus) : Option DialogView :=
  if st.dialog = .confirm then
    some
      { index := st.selectedIndex.toNat
        serviceName := (status.services st.selectedIndex.toNat).name
        action := if st.cachedRunning st.selectedIndex.toNat then .stop else .start
        selection := st.dialogSelection }
  else none

theorem view_none {st : ServicesState} (h : st.dialog = .none) (status : SysStatus) :
    st.view status = none := by
  unfold view
  rw [if_neg (by rw [h]; exact DialogState.noConfusion)]

/-- The page state after a render: flags and transitions are synchronised. -/
theorem servicesRender_state (st : ServicesState) (status : SysStatus) (mode : PageMode)
    (nowMs : UInt64) : (st.servicesRender status mode nowMs).2 = st.sync status := by
  unfold servicesRender
  split
  · rename_i hzero
    unfold sync
    rw [hzero]
    simp only [Nat.not_lt_zero, false_and, if_false]
  · rfl

theorem Ok.sync {n : ℕ} {st : ServicesState} (h : st.Ok n) (status : SysStatus) :
    (st.sync status).Ok n :=
  ⟨h.selected_nonneg, h.selected_lt, h.selection, h.idle, h.nonempty⟩

/-- **What a frame shows** of the dialog is what the page state describes afterwards. -/
theorem servicesRender_view {n : ℕ} {st : ServicesState} (h : st.Ok n) {status : SysStatus}
    (hcount : status.serviceCount = n) (hn : n ≤ maxMonitoredServices) (mode : PageMode)
    (nowMs : UInt64) :
    (st.servicesRender status mode nowMs).1.dialog = (st.sync status).view status := by
  have hsync : (st.sync status).dialog = st.dialog := rfl
  unfold servicesRender
  split
  · rename_i hzero
    cases hd : st.dialog with
    | none => exact (view_none (hsync.trans hd) status).symm
    | confirm =>
      have hpos := h.nonempty hd
      omega
  unfold view
  dsimp only
  cases hd : st.dialog with
  | none =>
    rw [if_neg (by rw [hsync, hd]; simp), if_neg (by rw [hsync, hd]; simp)]
  | confirm =>
    have h0 := h.selected_nonneg
    have hlt := h.selected_lt (h.nonempty hd)
    have hsel : (st.sync status).selectedIndex = st.selectedIndex := rfl
    rw [if_pos ⟨hsync.trans hd, by rw [hsel, hcount]; exact hlt⟩, if_pos (hsync.trans hd)]
    have hi : st.selectedIndex.toNat < status.serviceCount ∧
        st.selectedIndex.toNat < maxMonitoredServices := by omega
    have hcached : (st.sync status).cachedRunning st.selectedIndex.toNat =
        (status.services st.selectedIndex.toNat).running := if_pos hi
    unfold renderDialog
    rw [hsel, hcached]

end ServicesState

/-! ## The page controller over the pages -/

namespace PageController

/-- The state of the services page. -/
abbrev services (pc : PageController PagesState) : ServicesState :=
  pc.globals.pageState.services

/-- The services page is entered and nothing moves. -/
structure OnServices (pc : PageController PagesState) : Prop where
  mode : pc.pageMode = .enter
  page : pc.currentPage = servicesPage
  still : pc.anim.type = .none
  on : pc.screenState = .on

/-- What holds of the controller and the services page between calls, for `n` services. -/
structure DialogInv (n : ℕ) (pc : PageController PagesState) : Prop where
  inv : pc.Inv
  pages : pc.pages = pagesGetList n
  ok : pc.services.Ok n
  dialog : pc.services.dialog = .confirm → pc.OnServices

variable {n : ℕ} {pc pc' : PageController PagesState}

theorem pageCount_of_pages (h : pc.pages = pagesGetList n) : pc.pageCount = 5 := by
  unfold pageCount
  rw [h]
  rfl

theorem getCurrentPage_services (h : pc.pages = pagesGetList n)
    (hpage : pc.currentPage = servicesPage) : pc.getCurrentPage = some (pageServices n) := by
  unfold getCurrentPage
  rw [pageCount_of_pages h, hpage, h]
  rfl

theorem getCurrentPage_settings (h : pc.pages = pagesGetList n)
    (hpage : pc.currentPage = settingsPage) : pc.getCurrentPage = some pageSettings := by
  unfold getCurrentPage
  rw [pageCount_of_pages h, hpage, h]
  rfl

/-- The page of an index that is neither services nor settings keeps no state. -/
theorem getCurrentPage_plain (h : pc.pages = pagesGetList n) (h3 : pc.currentPage ≠ servicesPage)
    (h4 : pc.currentPage ≠ settingsPage) : ∀ page ∈ pc.getCurrentPage, page = {} := by
  intro page hpage
  unfold getCurrentPage at hpage
  rw [pageCount_of_pages h, h] at hpage
  split at hpage
  · cases hpage
  rename_i hrange
  obtain ⟨k, hk⟩ := Int.eq_ofNat_of_zero_le (show 0 ≤ pc.currentPage by omega)
  rw [hk] at hpage hrange h3 h4
  have hk3 : k < 3 := by
    unfold servicesPage settingsPage at *
    omega
  rw [Int.toNat_natCast] at hpage
  obtain rfl | rfl | rfl : k = 0 ∨ k = 1 ∨ k = 2 := by omega
  all_goals simpa [pagesGetList, eq_comm] using hpage

/-- Enter mode is on the services page or on the settings page. -/
theorem DialogInv.enter (h : DialogInv n pc) (hmode : pc.pageMode = .enter) :
    pc.currentPage = servicesPage ∨ pc.currentPage = settingsPage := by
  obtain ⟨⟨page, hpage, hcan⟩, -⟩ := h.inv.enter hmode
  by_contra hne
  obtain ⟨h3, h4⟩ := not_or.1 hne
  rw [getCurrentPage_plain h.pages h3 h4 page hpage] at hcan
  cases hcan

/-! ### Callbacks -/

/-- Leaving enter mode closes the dialog. -/
theorem DialogInv.services_exit (h : DialogInv n pc) (hmode : pc.pageMode = .enter)
    (nowMs : UInt64) : (pc.exitEnterMode nowMs).services = pc.services.servicesOnExit := by
  have hcur : ({ pc with pageMode := .view }.startAnimation .exitMode nowMs).getCurrentPage =
    pc.getCurrentPage := rfl
  unfold exitEnterMode
  dsimp only
  rw [hcur]
  rcases h.enter hmode with hpage | hpage
  · rw [getCurrentPage_services h.pages hpage]
    rfl
  · rw [getCurrentPage_settings h.pages hpage]
    have hclosed : pc.services.dialog = .none := by
      cases hd : pc.services.dialog with
      | none => rfl
      | confirm =>
        have h3 := (h.dialog hd).page
        rw [hpage] at h3
        cases h3
    have hidle := h.ok.idle
    change pc.services = _
    generalize pc.services = st at hclosed hidle ⊢
    cases st
    cases hclosed
    cases hidle
    rfl

/-- The callback of a key in enter mode. -/
theorem DialogInv.services_key (h : DialogInv n pc) (key : UInt8) (longPress : Bool) :
    (pc.currentPage = servicesPage ∧
      ((pc.pageOnKey key longPress).1, (pc.pageOnKey key longPress).2.services) =
        ServicesState.servicesOnKey n pc.services key longPress pc.pageMode) ∨
    (pc.currentPage ≠ servicesPage ∧ (pc.pageOnKey key longPress).2.services = pc.services) := by
  unfold pageOnKey
  by_cases h3 : pc.currentPage = servicesPage
  · rw [getCurrentPage_services h.pages h3]
    exact Or.inl ⟨h3, rfl⟩
  refine Or.inr ⟨h3, ?_⟩
  by_cases h4 : pc.currentPage = settingsPage
  · rw [getCurrentPage_settings h.pages h4]
    change (settingsOnKey key longPress pc.pageMode pc.globals).2.pageState.services = _
    unfold settingsOnKey toggleSetting
    split_ifs <;> rfl
  · cases hcur : pc.getCurrentPage with
    | none => rfl
    | some page =>
      rw [getCurrentPage_plain h.pages h3 h4 page hcur]
      rfl

/-- Trying to enter a page in view mode. -/
theorem DialogInv.services_tryEnter (h : DialogInv n pc) (hmode : pc.pageMode = .view)
    (nowMs : UInt64) : (pc.tryEnterMode nowMs).2.services = pc.services ∨
      (pc.tryEnterMode nowMs).1 = true ∧
        (pc.tryEnterMode nowMs).2.services = pc.services.servicesOnEnter := by
  unfold tryEnterMode
  rw [if_neg (by rw [hmode]; exact PageMode.noConfusion)]
  by_cases h3 : pc.currentPage = servicesPage
  · rw [getCurrentPage_services h.pages h3]
    exact Or.inr ⟨rfl, rfl⟩
  refine Or.inl ?_
  by_cases h4 : pc.currentPage = settingsPage
  · rw [getCurrentPage_settings h.pages h4]
    rfl
  · cases hcur : pc.getCurrentPage with
    | none => rfl
    | some page =>
      rw [getCurrentPage_plain h.pages h3 h4 page hcur]
      rfl

/-! ### Keys -/

/-- What a key press does to the services page, from the page state `st`. -/
inductive KeyOutcome (n : ℕ) (st : ServicesState) (key : UInt8) (longPress : Bool) :
    Bool → PageController PagesState → Prop
  /-- The key does not reach the page. -/
  | idle {changed : Bool} {pc : PageController PagesState} (hclosed : st.dialog = .none)
      (hserv : pc.services = st) : KeyOutcome n st key longPress changed pc
  | enter {pc : PageController PagesState} (hclosed : st.dialog = .none)
      (hserv : pc.services = st.servicesOnEnter) : KeyOutcome n st key longPress true pc
  | exit {pc : PageController PagesState} (hlong : longPress = true)
      (hserv : pc.services = st.servicesOnExit) (hon : pc.screenState = .on) :
    KeyOutcome n st key longPress true pc
  /-- The key goes to `services_on_key`. -/
  | key {changed : Bool} {pc : PageController PagesState} (hserv : (changed, pc.services) =
      ServicesState.servicesOnKey n st key longPress .enter) (hon : pc.OnServices) :
    KeyOutcome n st key longPress changed pc

theorem dialog_none_of_not (h : DialogInv n pc) (hnot : ¬pc.OnServices) :
    pc.services.dialog = .none := by
  cases hd : pc.services.dialog with
  | none => rfl
  | confirm => exact absurd (h.dialog hd) hnot

theorem pages_pageOnKey (pc : PageController PagesState) (key : UInt8) (longPress : Bool) :
    let pc' := (pc.pageOnKey key longPress).2
    pc'.pages = pc.pages ∧ pc'.pageMode = pc.pageMode ∧ pc'.currentPage = pc.currentPage ∧
      pc'.anim = pc.anim ∧ pc'.screenState = pc.screenState := by
  unfold pageOnKey
  split <;> exact ⟨rfl, rfl, rfl, rfl, rfl⟩

theorem services_switchPage (pc : PageController PagesState) (d : ℤ) (nowMs : UInt64) :
    (pc.switchPage d nowMs).services = pc.services := by
  unfold switchPage
  split
  · rfl
  split <;> rfl

/-- A key press that has changed nothing leaves the screen as it is. -/
theorem handleKey_screen (pc : PageController PagesState) (key : UInt8) (longPress : Bool)
    (nowMs : UInt64) : (pc.handleKey key longPress nowMs).1 = true ∨
      (pc.handleKey key longPress nowMs).2.screenState = pc.screenState := by
  have hkey : ∀ pc : PageController PagesState,
      (pc.pageOnKey key longPress).2.screenState = pc.screenState :=
    fun pc => (pages_pageOnKey pc key longPress).2.2.2.2
  have htry : ∀ pc : PageController PagesState,
      (pc.tryEnterMode nowMs).2.screenState = pc.screenState := by
    intro pc
    unfold tryEnterMode
    split
    · exact (pages_exitEnterMode pc nowMs).2.1
    split
    · rfl
    split
    · rfl
    · dsimp only
      split <;> rfl
  unfold handleKey handleViewKey
  dsimp only
  split
  · exact Or.inl rfl
  split
  · exact Or.inr rfl
  split
  · split
    · exact Or.inr (htry _)
    · exact Or.inr (hkey _)
  split
  · exact Or.inl rfl
  split
  · exact Or.inl rfl
  split
  · split
    · exact Or.inr (htry _)
    · exact Or.inl rfl
  · exact Or.inr (hkey _)

/-- A key in view mode. -/
theorem DialogInv.handleViewKey (h : DialogInv n pc) (hmode : pc.pageMode = .view) (key : UInt8)
    (longPress : Bool) (nowMs : UInt64) : KeyOutcome n pc.services key longPress
      (pc.handleViewKey key longPress nowMs).1 (pc.handleViewKey key longPress nowMs).2 := by
  have hclosed : pc.services.dialog = .none :=
    dialog_none_of_not h fun hon => by
      rw [hon.mode] at hmode
      cases hmode
  unfold PageController.handleViewKey
  split
  · exact .idle hclosed (services_switchPage pc (-1) nowMs)
  split
  · exact .idle hclosed (services_switchPage pc 1 nowMs)
  split
  · split
    · rcases h.services_tryEnter hmode nowMs with hs | ⟨htrue, hs⟩
      · exact .idle hclosed hs
      · rw [htrue]
        exact .enter hclosed hs
    · exact .idle hclosed rfl
  · refine .idle hclosed ?_
    rcases h.services_key key longPress with ⟨-, hs⟩ | ⟨-, hs⟩
    · rw [hmode] at hs
      exact congrArg Prod.snd hs
    · exact hs

theorem DialogInv.clearAnim (h : DialogInv n pc) (nowMs : UInt64) :
    DialogInv n (pc.clearAnim nowMs) where
  inv := h.inv.clearAnim nowMs
  pages := h.pages
  ok := h.ok
  dialog hd := ⟨(h.dialog hd).mode, (h.dialog hd).page, rfl, (h.dialog hd).on⟩

/-- A key in enter mode. -/
theorem DialogInv.handleEnterKey (h : DialogInv n pc) (hmode : pc.pageMode = .enter)
    (hstill : pc.anim.type = .none) (hon : pc.screenState = .on) (key : UInt8) (longPress : Bool)
    (nowMs : UInt64) :
    let r := if key = keyK2 ∧ longPress then pc.tryEnterMode nowMs else pc.pageOnKey key longPress
    KeyOutcome n pc.services key longPress r.1 r.2 := by
  dsimp only
  split
  · rename_i hkey
    rw [tryEnterMode, if_pos hmode]
    exact .exit hkey.2 (h.services_exit hmode nowMs) ((pages_exitEnterMode pc nowMs).2.1.trans hon)
  · obtain ⟨-, hm, hp, ha, hs⟩ := pages_pageOnKey pc key longPress
    rcases h.services_key key longPress with ⟨h3, hk⟩ | ⟨h3, hk⟩
    · rw [hmode] at hk
      exact .key hk ⟨hm.trans hmode, hp.trans h3, by rw [ha, hstill], hs.trans hon⟩
    · exact .idle (dialog_none_of_not h fun hon' => h3 hon'.page) hk

/-- **A key press**, seen by the services page. -/
theorem DialogInv.handleKey_outcome (h : DialogInv n pc) (key : UInt8) (longPress : Bool)
    (nowMs : UInt64) : KeyOutcome n pc.services key longPress (pc.handleKey key longPress nowMs).1
      (pc.handleKey key longPress nowMs).2 := by
  unfold handleKey
  dsimp only
  split
  · rename_i hoff
    refine .idle (dialog_none_of_not h fun hon => ?_) rfl
    rw [hon.on] at hoff
    cases hoff
  rename_i hoff
  have hon : pc.screenState = .on := by
    cases hs : pc.screenState with
    | off => exact absurd hs hoff
    | on => rfl
  split
  · rename_i hbusy
    exact .idle (dialog_none_of_not h fun hon => hbusy.1 hon.still) rfl
  have hclear := h.clearAnim nowMs
  split
  · rename_i hmode
    have hstart : DialogInv n { pc.clearAnim nowMs with enterModeStartMs := nowMs } :=
      ⟨hclear.inv.congr rfl rfl rfl rfl (fun _ => rfl) fun _ => hon, h.pages, h.ok, fun hd =>
        ⟨hmode, (h.dialog hd).page, rfl, hon⟩⟩
    exact hstart.handleEnterKey hmode rfl hon key longPress nowMs
  · rename_i hmode
    exact hclear.handleViewKey hmode key longPress nowMs

/-- The page and the controller after a key press. -/
theorem KeyOutcome.cases {st : ServicesState} (hst : st.Ok n) {key : UInt8}
    {longPress changed : Bool} (ho : KeyOutcome n st key longPress changed pc) (hinv : pc.Inv)
    (hpages : pc.pages = pagesGetList n) :
    (¬st.Confirms key longPress ∧ DialogInv n pc ∧ ServicesState.Still st pc.services) ∨
    (st.Confirms key longPress ∧ changed = true ∧ pc.services = st.confirmed ∧
      pc.OnServices) := by
  have hclosed : st.dialog = .none → ¬st.Confirms key longPress := fun hd hc => by
    rw [hc.1] at hd
    cases hd
  cases ho with
  | idle hd hserv =>
    refine Or.inl ⟨hclosed hd, ⟨hinv, hpages, hserv ▸ hst, fun hc => ?_⟩, hserv ▸ .refl st⟩
    rw [hserv, hd] at hc
    cases hc
  | enter hd hserv =>
    refine Or.inl ⟨hclosed hd, ⟨hinv, hpages, hserv ▸ hst.onEnter, fun hc => ?_⟩, ?_⟩
    · rw [hserv] at hc
      exact absurd (hd.symm.trans hc) DialogState.noConfusion
    · rw [hserv]
      exact ⟨rfl, rfl⟩
  | exit hlong hserv hon =>
    refine Or.inl ⟨fun hc => ?_, ⟨hinv, hpages, hserv ▸ hst.onExit, fun hc => ?_⟩, ?_⟩
    · rw [hc.2.2.2] at hlong
      cases hlong
    · rw [hserv] at hc
      cases hc
    · rw [hserv]
      exact ⟨rfl, rfl⟩
  | key hserv hon =>
    rcases ServicesState.servicesOnKey_cases hst key longPress with
      ⟨hc, hr⟩ | ⟨hnot, hok, hstill, -⟩
    · rw [hr] at hserv
      exact Or.inr ⟨hc, congrArg Prod.fst hserv, congrArg Prod.snd hserv, hon⟩
    · rw [← hserv] at hok hstill
      exact Or.inl ⟨hnot, ⟨hinv, hpages, hok, fun _ => hon⟩, hstill⟩

/-- After a key press the dialog is to be drawn again, or it looks as before. -/
theorem KeyOutcome.view {st : ServicesState} (hst : st.Ok n) {key : UInt8}
    {longPress changed : Bool} (ho : KeyOutcome n st key longPress changed pc) :
    (changed = true ∧ pc.screenState = .on) ∨
      ∀ status, pc.services.view status = st.view status := by
  cases ho with
  | idle hd hserv => exact Or.inr fun status => by rw [hserv]
  | enter hd hserv =>
    refine Or.inr fun status => ?_
    have hclosed : st.servicesOnEnter.dialog = .none := hd
    rw [hserv, ServicesState.view_none hd, ServicesState.view_none hclosed]
  | exit hlong hserv hon => exact Or.inl ⟨rfl, hon⟩
  | key hserv hon =>
    cases changed with
    | true => exact Or.inl ⟨rfl, hon.on⟩
    | false =>
      rcases ServicesState.servicesOnKey_cases hst key longPress with
        ⟨-, hr⟩ | ⟨-, -, -, hsame⟩
      · rw [hr] at hserv
        cases congrArg Prod.fst hserv
      · have hst' := hsame (congrArg Prod.fst hserv).symm
        rw [← hserv] at hst'
        exact Or.inr fun status => by rw [show pc.services = st from hst']

/-! ### Ticks -/

/-- What a tick does to the services page, from the page state `st`. -/
inductive TickOutcome (st : ServicesState) : Bool → PageController PagesState → Prop
  /-- The dialog is closed, and the page is left alone. -/
  | closed {changed : Bool} {pc : PageController PagesState} (hclosed : st.dialog = .none)
      (hserv : pc.services = st) : TickOutcome st changed pc
  | keep {changed : Bool} {pc : PageController PagesState} (hserv : pc.services = st)
      (hon : pc.OnServices) : TickOutcome st changed pc
  /-- Enter mode has timed out. -/
  | exit {pc : PageController PagesState} (hserv : pc.services = st.servicesOnExit)
      (hon : pc.screenState = .on) : TickOutcome st true pc

theorem startActivity_eq (pc : PageController PagesState) (nowMs : UInt64) :
    ∃ t, pc.startActivity nowMs = { pc with lastActivityMs := t } := by
  unfold startActivity
  split
  · exact ⟨nowMs, rfl⟩
  · exact ⟨pc.lastActivityMs, rfl⟩

theorem tickScreenOff_cases (pc : PageController PagesState) (nowMs : UInt64) :
    pc.tickScreenOff nowMs = (false, pc) ∨
      pc.pageMode ≠ .enter ∧ pc.tickScreenOff nowMs = (true, { pc with screenState := .off }) := by
  unfold tickScreenOff
  split
  · rename_i hoff
    exact Or.inr ⟨hoff.2.2.1, rfl⟩
  · exact Or.inl rfl

/-- The end of a tick leaves the pages alone. -/
theorem tickAnim_keeps (pc : PageController PagesState) (nowMs : UInt64) :
    let pc' := (pc.tickAnim nowMs).2
    pc'.services = pc.services ∧ pc'.pages = pc.pages ∧ pc'.screenState = pc.screenState ∧
      (pc.OnServices → pc'.OnServices) := by
  unfold tickAnim
  split
  · exact ⟨rfl, rfl, rfl, id⟩
  rename_i hmove
  have hnot : ¬pc.OnServices := fun hon => hmove hon.still
  split
  · exact ⟨rfl, rfl, rfl, fun hon => absurd hon hnot⟩
  · exact ⟨rfl, rfl, rfl, id⟩

theorem tick_fst (pc : PageController PagesState) (nowMs : UInt64) : (pc.tick nowMs).1 =
    ((((pc.startActivity nowMs).tickScreenOff nowMs).1 ||
      (((pc.startActivity nowMs).tickScreenOff nowMs).2.tickEnterMode nowMs).1) ||
      ((((pc.startActivity nowMs).tickScreenOff nowMs).2.tickEnterMode nowMs).2.tickAnim
        nowMs).1) := rfl

/-- A tick never turns the screen on, and says when it turns it off. -/
theorem tick_screen (pc : PageController PagesState) (nowMs : UInt64) :
    ((pc.tick nowMs).1 = true ∧ (pc.tick nowMs).2.screenState = .off) ∨
      (pc.tick nowMs).2.screenState = pc.screenState := by
  have hend : ∀ pc : PageController PagesState,
      ((pc.tickEnterMode nowMs).2.tickAnim nowMs).2.screenState = pc.screenState := by
    intro pc
    rw [(tickAnim_keeps _ nowMs).2.2.1]
    unfold tickEnterMode
    split
    · exact (pages_exitEnterMode pc nowMs).2.1
    · rfl
  obtain ⟨t, ht⟩ := startActivity_eq pc nowMs
  rw [tick_fst, tick_eq, hend, ht]
  rcases tickScreenOff_cases { pc with lastActivityMs := t } nowMs with hs | ⟨-, hs⟩
  · rw [hs]
    exact Or.inr rfl
  · rw [hs]
    exact Or.inl ⟨rfl, rfl⟩

/-- **A tick**, seen by the services page. -/
theorem DialogInv.tick_outcome (h : DialogInv n pc) (nowMs : UInt64) :
    TickOutcome pc.services (pc.tick nowMs).1 (pc.tick nowMs).2 := by
  obtain ⟨t, ht⟩ := startActivity_eq pc nowMs
  have h₁ : DialogInv n { pc with lastActivityMs := t } :=
    ⟨ht ▸ h.inv.startActivity nowMs, h.pages, h.ok, fun hd =>
      ⟨(h.dialog hd).mode, (h.dialog hd).page, (h.dialog hd).still, (h.dialog hd).on⟩⟩
  rw [tick_fst, tick_eq, ht]
  rcases tickScreenOff_cases { pc with lastActivityMs := t } nowMs with hs | ⟨hmode, hs⟩
  · rw [hs]
    unfold tickEnterMode
    split
    · rename_i hexit
      obtain ⟨hserv, -, hscreen, -⟩ :=
        tickAnim_keeps (exitEnterMode { pc with lastActivityMs := t } nowMs) nowMs
      refine .exit (hserv.trans (h₁.services_exit hexit.1 nowMs)) (hscreen.trans ?_)
      rw [(pages_exitEnterMode _ nowMs).2.1]
      exact (h₁.inv.enter hexit.1).2
    · obtain ⟨hserv, -, -, hon⟩ := tickAnim_keeps { pc with lastActivityMs := t } nowMs
      cases hd : pc.services.dialog with
      | none => exact .closed hd hserv
      | confirm => exact .keep hserv (hon (h₁.dialog hd))
  · rw [hs]
    have hclosed : pc.services.dialog = .none :=
      dialog_none_of_not h fun hon => hmode hon.mode
    unfold tickEnterMode
    rw [if_neg fun hc => hmode hc.1]
    exact .closed hclosed (tickAnim_keeps _ nowMs).1

theorem DialogInv.tick (h : DialogInv n pc) (nowMs : UInt64) : DialogInv n (pc.tick nowMs).2 := by
  have hinv : (pc.tick nowMs).2.Inv := h.inv.step (.tick nowMs)
  have hpages := (pages_tick pc nowMs).trans h.pages
  have ho := h.tick_outcome nowMs
  generalize pc.tick nowMs = r at hinv hpages ho ⊢
  obtain ⟨changed, pc'⟩ := r
  cases ho with
  | closed hd hserv =>
    refine ⟨hinv, hpages, hserv ▸ h.ok, fun hc => ?_⟩
    rw [hserv, hd] at hc
    cases hc
  | keep hserv hon => exact ⟨hinv, hpages, hserv ▸ h.ok, fun _ => hon⟩
  | exit hserv hon =>
    refine ⟨hinv, hpages, hserv ▸ h.ok.onExit, fun hc => ?_⟩
    rw [hserv] at hc
    cases hc

/-! ### Frames -/

/-- The services page is part of what is drawn. -/
def Shows (pc : PageController PagesState) : Prop :=
  if pc.anim.type.isSlide then pc.anim.fromPage = servicesPage ∨ pc.anim.toPage = servicesPage
  else pc.currentPage = servicesPage

/-- The controller after the services page has been drawn. -/
def drawServices (pc : PageController PagesState) (status : SysStatus) (nowMs : UInt64) :
    PageController PagesState :=
  { pc with globals := { pc.globals with pageState := { pc.globals.pageState with
      services := pc.services.sync status
      buffer := pc.globals.pageState.buffer ++
        [(pc.services.servicesRender status pc.pageMode nowMs).1] } } }

theorem renderPageContent_services (h : pc.pages = pagesGetList n) (status : SysStatus)
    (nowMs : UInt64) :
    pc.renderPageContent status servicesPage nowMs = pc.drawServices status nowMs := by
  unfold renderPageContent drawServices
  rw [pageCount_of_pages h, h, ← ServicesState.servicesRender_state _ status pc.pageMode nowMs]
  rfl

theorem renderPageContent_other (h : pc.pages = pagesGetList n) {pageIdx : ℤ}
    (hne : pageIdx ≠ servicesPage) (status : SysStatus) (nowMs : UInt64) :
    pc.renderPageContent status pageIdx nowMs = pc := by
  unfold renderPageContent
  rw [pageCount_of_pages h, h]
  split
  · rfl
  rename_i hrange
  obtain ⟨k, rfl⟩ := Int.eq_ofNat_of_zero_le (show 0 ≤ pageIdx by omega)
  have hk : k = 0 ∨ k = 1 ∨ k = 2 ∨ k = 4 := by
    unfold servicesPage at hne
    omega
  obtain rfl | rfl | rfl | rfl := hk
  all_goals rfl

/-- **A render** draws the services page once, if it is to be seen. -/
theorem DialogInv.render_eq (h : DialogInv n pc) (status : SysStatus) (nowMs : UInt64) :
    (pc.Shows ∧ pc.render status nowMs = pc.drawServices status nowMs) ∨
      (¬pc.Shows ∧ pc.render status nowMs = pc) := by
  unfold Shows PageController.render
  split
  · rename_i hslide
    obtain ⟨hfrom, hto, -⟩ := h.inv.slide hslide
    have hd : direction pc.anim.type = 1 ∨ direction pc.anim.type = -1 := by
      cases ht : pc.anim.type <;> rw [ht] at hslide
      all_goals first | exact Or.inl rfl | exact Or.inr rfl | cases hslide
    have hne : pc.anim.toPage ≠ pc.anim.fromPage := by
      rw [hto, hfrom]
      exact emod_add_ne h.inv.count h.inv.range.1 h.inv.range.2 hd
    by_cases hf : pc.anim.fromPage = servicesPage
    · rw [hf] at hne ⊢
      rw [renderPageContent_services h.pages]
      have hpages : (pc.drawServices status nowMs).pages = pagesGetList n := h.pages
      exact Or.inl ⟨Or.inl rfl, renderPageContent_other hpages hne status nowMs⟩
    · rw [renderPageContent_other h.pages hf]
      by_cases ht : pc.anim.toPage = servicesPage
      · rw [ht]
        exact Or.inl ⟨Or.inr rfl, renderPageContent_services h.pages status nowMs⟩
      · exact Or.inr ⟨fun hc => hc.elim hf ht, renderPageContent_other h.pages ht status nowMs⟩
  · by_cases hc : pc.currentPage = servicesPage
    · rw [hc]
      exact Or.inl ⟨rfl, renderPageContent_services h.pages status nowMs⟩
    · exact Or.inr ⟨hc, renderPageContent_other h.pages hc status nowMs⟩

theorem DialogInv.drawServices (h : DialogInv n pc) (status : SysStatus) (nowMs : UInt64) :
    DialogInv n (pc.drawServices status nowMs) where
  inv := h.inv.congr rfl rfl rfl rfl (fun _ => rfl) fun hm => (h.inv.enter hm).2
  pages := h.pages
  ok := h.ok.sync status
  dialog hd := ⟨(h.dialog hd).mode, (h.dialog hd).page, (h.dialog hd).still, (h.dialog hd).on⟩

/-- An open dialog is seen. -/
theorem OnServices.shows (h : pc.OnServices) : pc.Shows := by
  unfold Shows
  rw [h.still]
  exact h.page

end PageController

end NanoHat
