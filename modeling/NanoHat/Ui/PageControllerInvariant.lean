import Mathlib.Algebra.Order.Ring.Int
import Mathlib.Data.Int.ModEq
import NanoHat.Ui.PageController

/-!
# Invariants of the page controller

What holds of `page_controller_t` after every run. A key press is looked at once: it wakes the
screen, is ignored, or ends the animation and has one of the effects of `KeyEffect`
(`handleKey_cases`); a tick is three stages. From this come the bounds on the page, the shape of a
slide, the conditions of enter mode and the order of the callbacks (`wellFormed_after`), and the
exact condition under which every slide that was started takes effect (`committed_iff`).
-/

namespace NanoHat.PageController

open Runs

variable {σ : Type*}

/-! ## Pages in a circle -/

/-- The direction in which a slide goes. -/
def direction : AnimType → ℤ
  | .slideLeft => 1
  | .slideRight => -1
  | _ => 0

theorem wrapPage_eq {count current d : ℤ} (h0 : 0 ≤ current) (hlt : current < count)
    (hd : d = 1 ∨ d = -1) : wrapPage count current d = (current + d) % count := by
  have hrange : 0 ≤ wrapPage count current d ∧ wrapPage count current d < count := by
    simp only [wrapPage]
    split <;> split <;> omega
  have hturn : wrapPage count current d = current + d ∨
      wrapPage count current d = current + d + count ∨
      wrapPage count current d + count = current + d := by
    simp only [wrapPage]
    split <;> split <;> omega
  rw [← Int.emod_eq_of_lt hrange.1 hrange.2]
  rcases hturn with h | h | h
  · rw [h]
  · rw [h, Int.add_emod_right]
  · rw [← h, Int.add_emod_right]

theorem emod_bounds {n : ℤ} (hn : 2 ≤ n) (a : ℤ) : 0 ≤ a % n ∧ a % n < n :=
  ⟨Int.emod_nonneg _ (by omega), Int.emod_lt_of_pos _ (by omega)⟩

/-- One step around a circle of at least two pages leads to another page. -/
theorem emod_add_ne {n : ℤ} (hn : 2 ≤ n) {a d : ℤ} (h0 : 0 ≤ a) (hlt : a < n)
    (hd : d = 1 ∨ d = -1) : (a + d) % n ≠ a := by
  rw [← wrapPage_eq h0 hlt hd]
  simp only [wrapPage]
  split <;> split <;> omega

/-! ## What a key press can do -/

/-- The effects of a key press that is acted on, once the animation is over. -/
inductive KeyEffect (pc : PageController σ) (nowMs : UInt64) : PageController σ → Prop
  | stay (globals : Globals σ) (startMs : UInt64) :
    KeyEffect pc nowMs { pc with globals := globals, enterModeStartMs := startMs }
  | slide (d : ℤ) (hd : d = 1 ∨ d = -1) (hmode : pc.pageMode = .view) :
    KeyEffect pc nowMs (pc.switchPage d nowMs)
  | sleep (hmode : pc.pageMode = .view) : KeyEffect pc nowMs { pc with screenState := .off }
  | tryEnter (startMs : UInt64) :
    KeyEffect pc nowMs ({ pc with enterModeStartMs := startMs }.tryEnterMode nowMs).2

/-- The controller with the animation ended, as `page_controller_handle_key` ends it. -/
def clearAnim (pc : PageController σ) (nowMs : UInt64) : PageController σ :=
  { pc with lastActivityMs := nowMs, anim := { pc.anim with type := .none } }

theorem keyEffect_pageOnKey (pc : PageController σ) (key : UInt8) (longPress : Bool)
    (startMs nowMs : UInt64) :
    KeyEffect pc nowMs ({ pc with enterModeStartMs := startMs }.pageOnKey key longPress).2 := by
  simp only [pageOnKey]
  split
  · exact .stay pc.globals startMs
  · exact .stay _ startMs

theorem keyEffect_handleViewKey {pc : PageController σ} (hmode : pc.pageMode = .view)
    (key : UInt8) (longPress : Bool) (nowMs : UInt64) :
    KeyEffect pc nowMs (pc.handleViewKey key longPress nowMs).2 := by
  simp only [handleViewKey]
  split
  · exact .slide (-1) (Or.inr rfl) hmode
  split
  · exact .slide 1 (Or.inl rfl) hmode
  split
  · split
    · exact .tryEnter pc.enterModeStartMs
    · exact .sleep hmode
  · exact keyEffect_pageOnKey pc key longPress pc.enterModeStartMs nowMs

/-- **A key press** wakes the screen, is ignored during an animation, or acts. -/
theorem handleKey_cases (pc : PageController σ) (key : UInt8) (longPress : Bool)
    (nowMs : UInt64) :
    let pc' := (pc.handleKey key longPress nowMs).2
    (pc.screenState = .off ∧ pc' = { pc with lastActivityMs := nowMs, screenState := .on }) ∨
    (pc.screenState = .on ∧ pc.anim.animIsComplete nowMs = false ∧
      pc' = { pc with lastActivityMs := nowMs }) ∨
    (pc.screenState = .on ∧ pc.anim.animIsComplete nowMs = true ∧
      KeyEffect (pc.clearAnim nowMs) nowMs pc') := by
  have hon : pc.screenState ≠ .off → pc.screenState = .on := by
    cases pc.screenState <;> simp
  simp only [handleKey]
  split
  · exact Or.inl ⟨‹_›, rfl⟩
  rename_i hoff
  split
  · rename_i hbusy
    exact Or.inr (Or.inl ⟨hon hoff, by simpa using hbusy.2, rfl⟩)
  rename_i hbusy
  have hdone : pc.anim.animIsComplete nowMs = true := by
    by_cases hnone : pc.anim.type = .none
    · exact AnimState.animIsComplete_of_none hnone nowMs
    · simpa [hnone] using hbusy
  refine Or.inr (Or.inr ⟨hon hoff, hdone, ?_⟩)
  split
  · split
    · exact KeyEffect.tryEnter nowMs
    · exact keyEffect_pageOnKey (pc.clearAnim nowMs) key longPress nowMs nowMs
  · rename_i hmode
    have hview : (pc.clearAnim nowMs).pageMode = .view := hmode
    exact keyEffect_handleViewKey hview key longPress nowMs

/-- A key press with the screen on and no animation in progress, in enter mode. -/
theorem handleKey_enter {pc : PageController σ} (hon : pc.screenState = .on) (hmode : pc.pageMode = .enter)
    {nowMs : UInt64} (hdone : ¬(pc.anim.type ≠ .none ∧ !pc.anim.animIsComplete nowMs))
    (key : UInt8) (longPress : Bool) :
    pc.handleKey key longPress nowMs =
      if key = keyK2 ∧ longPress then
        { pc.clearAnim nowMs with enterModeStartMs := nowMs }.tryEnterMode nowMs
      else { pc.clearAnim nowMs with enterModeStartMs := nowMs }.pageOnKey key longPress := by
  unfold handleKey
  dsimp only
  rw [if_neg (by rw [hon]; exact ScreenState.noConfusion), if_neg hdone]
  split
  · rfl
  · rename_i hview
    exact PageMode.noConfusion (hmode.symm.trans hview)

/-- A key press with the screen on and no animation in progress, in view mode. -/
theorem handleKey_view {pc : PageController σ} (hon : pc.screenState = .on) (hmode : pc.pageMode = .view)
    {nowMs : UInt64} (hdone : ¬(pc.anim.type ≠ .none ∧ !pc.anim.animIsComplete nowMs))
    (key : UInt8) (longPress : Bool) :
    pc.handleKey key longPress nowMs = (pc.clearAnim nowMs).handleViewKey key longPress nowMs := by
  unfold handleKey
  dsimp only
  rw [if_neg (by rw [hon]; exact ScreenState.noConfusion), if_neg hdone]
  split
  · rename_i henter
    exact PageMode.noConfusion (hmode.symm.trans henter)
  · rfl

/-! ## The array of pages -/

theorem pages_exitEnterMode (pc : PageController σ) (nowMs : UInt64) :
    (pc.exitEnterMode nowMs).pages = pc.pages ∧
      (pc.exitEnterMode nowMs).screenState = pc.screenState ∧
      (pc.exitEnterMode nowMs).pageMode = .view := by
  unfold exitEnterMode
  dsimp only
  split <;> exact ⟨rfl, rfl, rfl⟩

theorem pages_tryEnterMode (pc : PageController σ) (nowMs : UInt64) :
    (pc.tryEnterMode nowMs).2.pages = pc.pages := by
  unfold tryEnterMode
  split
  · exact (pages_exitEnterMode pc nowMs).1
  split
  · rfl
  split
  · rfl
  · dsimp only
    split <;> rfl

theorem KeyEffect.pages {pc pc' : PageController σ} {nowMs : UInt64} (he : KeyEffect pc nowMs pc') :
    pc'.pages = pc.pages := by
  cases he with
  | stay globals startMs => rfl
  | slide d hd hmode =>
    unfold switchPage
    split
    · rfl
    split <;> rfl
  | sleep hmode => rfl
  | tryEnter startMs => exact pages_tryEnterMode _ nowMs

theorem pages_handleKey (pc : PageController σ) (key : UInt8) (longPress : Bool)
    (nowMs : UInt64) : (pc.handleKey key longPress nowMs).2.pages = pc.pages := by
  rcases handleKey_cases pc key longPress nowMs with ⟨-, heq⟩ | ⟨-, -, heq⟩ | ⟨-, -, he⟩
  · rw [heq]
  · rw [heq]
  · exact he.pages

theorem pages_tickScreenOff (pc : PageController σ) (nowMs : UInt64) :
    (pc.tickScreenOff nowMs).2.pages = pc.pages := by
  unfold tickScreenOff
  split <;> rfl

theorem pages_tickEnterMode (pc : PageController σ) (nowMs : UInt64) :
    (pc.tickEnterMode nowMs).2.pages = pc.pages := by
  unfold tickEnterMode
  split
  · exact (pages_exitEnterMode pc nowMs).1
  · rfl

theorem pages_tickAnim (pc : PageController σ) (nowMs : UInt64) :
    (pc.tickAnim nowMs).2.pages = pc.pages := by
  unfold tickAnim
  split
  · rfl
  split <;> rfl

theorem pages_tick (pc : PageController σ) (nowMs : UInt64) :
    (pc.tick nowMs).2.pages = pc.pages := by
  refine (pages_tickAnim _ nowMs).trans ((pages_tickEnterMode _ nowMs).trans
    ((pages_tickScreenOff _ nowMs).trans ?_))
  split <;> rfl

/-! ## Callbacks in the trace -/

/-- The entries about callbacks. -/
def isCall : Obs → Bool
  | .slide _ => false
  | _ => true

/-- The newest callback. -/
def lastCall (trace : List Obs) : Option Obs := trace.find? isCall

/-- `on_enter` comes first or after an `on_exit`; `on_exit` goes to the page of the `on_enter`
just before it. -/
def Turn : Obs → List Obs → Prop
  | .onEnter _, past => ∀ o ∈ lastCall past, ∃ q, o = .onExit q
  | .onExit p, past => lastCall past = some (.onEnter p)
  | .slide _, _ => True

/-- The callbacks take turns throughout. -/
structure Alternates (trace : List Obs) : Prop where
  turns : Always Turn trace

/-- Every page has both callbacks or neither. -/
def Paired (pages : List (Option (Page σ))) : Prop :=
  ∀ page, some page ∈ pages → page.onEnter.isSome = page.onExit.isSome

/-- The current page has been told that it is entered. -/
def Entered (pc : PageController σ) : Prop :=
  pc.pageMode = .enter ∧ (pc.getCurrentPage.bind Page.onEnter).isSome = true

/-- The callbacks take turns, and the newest one fits the mode. -/
structure CallInv (pc : PageController σ) : Prop where
  turns : Always Turn pc.trace
  entered : pc.Entered → lastCall pc.trace = some (.onEnter pc.currentPage)
  exited : ¬pc.Entered → ∀ o ∈ lastCall pc.trace, ∃ q, o = .onExit q

/-! ## The invariant -/

/-- What holds of the controller between calls. -/
structure Inv (pc : PageController σ) : Prop where
  count : 2 ≤ pc.pageCount
  range : 0 ≤ pc.currentPage ∧ pc.currentPage < pc.pageCount
  slide : pc.anim.type.isSlide = true → pc.anim.fromPage = pc.currentPage ∧
    pc.anim.toPage = (pc.anim.fromPage + direction pc.anim.type) % pc.pageCount ∧
    pc.pageMode = .view
  enter : pc.pageMode = .enter → (∃ page, pc.getCurrentPage = some page ∧ page.canEnter = true) ∧
    pc.screenState = .on
  calls : Paired pc.pages → pc.CallInv

theorem getCurrentPage_congr {pc pc' : PageController σ} (hp : pc'.pages = pc.pages)
    (hc : pc'.currentPage = pc.currentPage) : pc'.getCurrentPage = pc.getCurrentPage := by
  cases pc
  cases pc'
  subst hp hc
  rfl

theorem mem_pages_of_getCurrentPage {pc : PageController σ} {page : Page σ}
    (h : pc.getCurrentPage = some page) : some page ∈ pc.pages := by
  simp only [getCurrentPage] at h
  split at h
  · simp at h
  · exact List.mem_of_getElem? (Option.join_eq_some_iff.1 h)

theorem CallInv.congr {pc pc' : PageController σ} (h : pc.CallInv) (hp : pc'.pages = pc.pages)
    (hc : pc'.currentPage = pc.currentPage) (hm : pc'.pageMode = pc.pageMode)
    (ht : pc'.trace = pc.trace) : pc'.CallInv := by
  have he : pc'.Entered ↔ pc.Entered := by
    simp only [Entered, hm, getCurrentPage_congr hp hc]
  refine ⟨by rw [ht]; exact h.turns, fun h' => ?_, fun h' => ?_⟩
  · rw [ht, hc]; exact h.entered (he.1 h')
  · rw [ht]; exact h.exited fun h'' => h' (he.2 h'')

/-- What leaves page, mode, slide and trace alone keeps the invariant. -/
theorem Inv.congr {pc pc' : PageController σ} (h : pc.Inv) (hp : pc'.pages = pc.pages)
    (hc : pc'.currentPage = pc.currentPage) (hm : pc'.pageMode = pc.pageMode)
    (ht : pc'.trace = pc.trace) (ha : pc'.anim.type.isSlide = true → pc'.anim = pc.anim)
    (hs : pc'.pageMode = .enter → pc'.screenState = .on) : pc'.Inv where
  count := by rw [pageCount, hp]; exact h.count
  range := by rw [pageCount, hp, hc]; exact h.range
  slide hslide := by
    have heq := ha hslide
    rw [heq] at hslide
    rw [heq, hc, hm, pageCount, hp]; exact h.slide hslide
  enter hmode := by
    rw [getCurrentPage_congr hp hc]
    exact ⟨(h.enter (hm ▸ hmode)).1, hs hmode⟩
  calls hpaired := (h.calls (hp ▸ hpaired)).congr hp hc hm ht

theorem inv_init {pages : List (Option (Page σ))} (hn : 2 ≤ pages.length)
    (globals : Globals σ) : (init pages globals).Inv where
  count := by simpa [pageCount, init] using hn
  range := by
    have : (2 : ℤ) ≤ pages.length := by exact_mod_cast hn
    simp only [pageCount, init]
    omega
  slide h := by simp [init] at h
  enter h := by simp [init] at h
  calls _ := ⟨trivial, fun h => by simp [Entered, init] at h, fun _ o ho => by
    simp [lastCall, init] at ho⟩

/-! ## Key presses -/

theorem Inv.switchPage {pc : PageController σ} (h : pc.Inv) (hmode : pc.pageMode = .view)
    (hnone : pc.anim.type = .none) {d : ℤ} (hd : d = 1 ∨ d = -1) (nowMs : UInt64) :
    (pc.switchPage d nowMs).Inv := by
  have hcount := h.count
  simp only [PageController.switchPage]
  rw [if_neg (by omega), if_neg (by simp [hnone])]
  have hwrap := wrapPage_eq h.range.1 h.range.2 hd
  refine ⟨h.count, h.range, fun _ => ⟨rfl, ?_, hmode⟩, fun hm => ?_, fun hpaired => ?_⟩
  · simp only [startAnimation]
    rw [hwrap]
    rcases hd with rfl | rfl <;> rfl
  · simp [startAnimation, hmode] at hm
  · have hcalls := h.calls hpaired
    exact ⟨⟨trivial, hcalls.turns⟩, hcalls.entered, hcalls.exited⟩

theorem Inv.exitEnterMode {pc : PageController σ} (h : pc.Inv) (hmode : pc.pageMode = .enter)
    (nowMs : UInt64) : (pc.exitEnterMode nowMs).Inv := by
  obtain ⟨⟨page, hpage, -⟩, -⟩ := h.enter hmode
  have hcur : ({ pc with pageMode := .view }.startAnimation .exitMode nowMs).getCurrentPage =
      some page := hpage
  simp only [PageController.exitEnterMode, hcur, Option.bind_some]
  cases hexit : page.onExit with
  | none =>
    refine ⟨h.count, h.range, fun hs => ?_, fun hm => ?_, fun hpaired => ?_⟩
    · simp [startAnimation] at hs
    · simp [startAnimation] at hm
    · have hcalls := h.calls hpaired
      have henter : page.onEnter = none := by
        have := hpaired page (mem_pages_of_getCurrentPage hpage)
        simpa [hexit] using this
      refine ⟨hcalls.turns, fun he => ?_, fun _ => hcalls.exited fun he => ?_⟩
      · simp [Entered, startAnimation] at he
      · simp [Entered, hpage, henter] at he
  | some onExit =>
    refine ⟨h.count, h.range, fun hs => ?_, fun hm => ?_, fun hpaired => ?_⟩
    · simp [startAnimation] at hs
    · simp [startAnimation] at hm
    · have hcalls := h.calls hpaired
      have henter : pc.Entered := by
        have := hpaired page (mem_pages_of_getCurrentPage hpage)
        refine ⟨hmode, ?_⟩
        rw [hpage, Option.bind_some, this, hexit]
        rfl
      refine ⟨⟨hcalls.entered henter, hcalls.turns⟩, fun he => ?_, fun _ o ho => ?_⟩
      · simp [Entered, startAnimation] at he
      · obtain rfl : Obs.onExit pc.currentPage = o := Option.some.inj ho
        exact ⟨_, rfl⟩

theorem Inv.tryEnterMode {pc : PageController σ} (h : pc.Inv) (hon : pc.screenState = .on)
    (nowMs : UInt64) : (pc.tryEnterMode nowMs).2.Inv := by
  simp only [PageController.tryEnterMode]
  split
  · rename_i hmode
    exact h.exitEnterMode hmode nowMs
  rename_i hmode
  split
  · exact h
  rename_i page hpage
  split
  · exact h.congr rfl rfl rfl rfl (fun hs => by simp [startAnimation] at hs)
      fun hm => absurd hm hmode
  rename_i hcan
  have hview : ¬pc.Entered := fun he => hmode he.1
  split
  · rename_i henter
    refine ⟨h.count, h.range, fun hs => ?_, fun _ => ⟨⟨page, hpage, by simpa using hcan⟩, hon⟩,
      fun hpaired => ?_⟩
    · simp [startAnimation] at hs
    · have hcalls := h.calls hpaired
      refine ⟨hcalls.turns, fun he => ?_, fun _ => hcalls.exited hview⟩
      have hbind : (pc.getCurrentPage.bind Page.onEnter).isSome = true := he.2
      simp [hpage, henter] at hbind
  · rename_i onEnter henter
    refine ⟨h.count, h.range, fun hs => ?_, fun _ => ⟨⟨page, hpage, by simpa using hcan⟩, hon⟩,
      fun hpaired => ?_⟩
    · simp [startAnimation] at hs
    · have hcalls := h.calls hpaired
      refine ⟨⟨hcalls.exited hview, hcalls.turns⟩, fun _ => rfl, fun he => absurd ?_ he⟩
      have hbind : (pc.getCurrentPage.bind Page.onEnter).isSome = true := by
        simp [hpage, henter]
      exact ⟨rfl, hbind⟩

theorem KeyEffect.inv {pc pc' : PageController σ} {nowMs : UInt64}
    (he : KeyEffect pc nowMs pc') (h : pc.Inv) (hon : pc.screenState = .on)
    (hnone : pc.anim.type = .none) : pc'.Inv := by
  cases he with
  | stay globals startMs => exact h.congr rfl rfl rfl rfl (fun _ => rfl) fun _ => hon
  | slide d hd hmode => exact h.switchPage hmode hnone hd nowMs
  | sleep hmode =>
    exact h.congr rfl rfl rfl rfl (fun _ => rfl) fun hm => by simp [hmode] at hm
  | tryEnter startMs =>
    have hstart : ({ pc with enterModeStartMs := startMs } : PageController σ).Inv :=
      h.congr rfl rfl rfl rfl (fun _ => rfl) fun _ => hon
    exact hstart.tryEnterMode hon nowMs

theorem Inv.clearAnim {pc : PageController σ} (h : pc.Inv) (nowMs : UInt64) :
    (pc.clearAnim nowMs).Inv :=
  h.congr rfl rfl rfl rfl (fun hs => by simp [PageController.clearAnim] at hs) fun hm =>
    (h.enter hm).2

theorem Inv.handleKey {pc : PageController σ} (h : pc.Inv) (key : UInt8) (longPress : Bool)
    (nowMs : UInt64) : (pc.handleKey key longPress nowMs).2.Inv := by
  rcases handleKey_cases pc key longPress nowMs with ⟨-, heq⟩ | ⟨-, -, heq⟩ | ⟨hon, -, he⟩
  · rw [heq]
    exact h.congr rfl rfl rfl rfl (fun _ => rfl) fun _ => rfl
  · rw [heq]
    exact h.congr rfl rfl rfl rfl (fun _ => rfl) fun hm => (h.enter hm).2
  · exact he.inv (h.clearAnim nowMs) hon rfl

/-! ## Ticks -/

theorem Inv.tickScreenOff {pc : PageController σ} (h : pc.Inv) (nowMs : UInt64) :
    (pc.tickScreenOff nowMs).2.Inv := by
  simp only [PageController.tickScreenOff]
  split
  · rename_i hc
    exact h.congr rfl rfl rfl rfl (fun _ => rfl) fun hm => absurd hm hc.2.2.1
  · exact h

theorem Inv.tickEnterMode {pc : PageController σ} (h : pc.Inv) (nowMs : UInt64) :
    (pc.tickEnterMode nowMs).2.Inv := by
  simp only [PageController.tickEnterMode]
  split
  · rename_i hc
    exact h.exitEnterMode hc.1 nowMs
  · exact h

/-- A slide that is over commits its page. -/
theorem Inv.commit {pc : PageController σ} (h : pc.Inv) (hs : pc.anim.type.isSlide = true) :
    { pc with currentPage := pc.anim.toPage, anim := { pc.anim with type := .none } }.Inv := by
  obtain ⟨-, hto, hmode⟩ := h.slide hs
  refine ⟨h.count, ?_, fun hs' => ?_, fun hm => ?_, fun hpaired => ?_⟩
  · rw [hto]; exact emod_bounds h.count _
  · simp at hs'
  · simp [hmode] at hm
  · have hcalls := h.calls hpaired
    refine ⟨hcalls.turns, fun he => ?_, fun _ => hcalls.exited fun he => ?_⟩
    · simp [Entered, hmode] at he
    · simp [Entered, hmode] at he

theorem Inv.tickAnim {pc : PageController σ} (h : pc.Inv) (nowMs : UInt64) :
    (pc.tickAnim nowMs).2.Inv := by
  simp only [PageController.tickAnim]
  split
  · exact h
  split
  · by_cases hs : pc.anim.type.isSlide = true
    · simp only [hs, if_true]
      exact h.commit hs
    · simp only [hs, Bool.false_eq_true, if_false]
      exact h.congr rfl rfl rfl rfl (fun hs' => by simp at hs') fun hm => (h.enter hm).2
  · exact h

/-- The activity time that `page_controller_tick` starts from. -/
def startActivity (pc : PageController σ) (nowMs : UInt64) : PageController σ :=
  if pc.lastActivityMs = 0 then { pc with lastActivityMs := nowMs } else pc

theorem tick_eq (pc : PageController σ) (nowMs : UInt64) : (pc.tick nowMs).2 =
    (((((pc.startActivity nowMs).tickScreenOff nowMs).2.tickEnterMode nowMs).2).tickAnim
      nowMs).2 := rfl

theorem Inv.startActivity {pc : PageController σ} (h : pc.Inv) (nowMs : UInt64) :
    (pc.startActivity nowMs).Inv := by
  simp only [PageController.startActivity]
  split
  · exact h.congr rfl rfl rfl rfl (fun _ => rfl) fun hm => (h.enter hm).2
  · exact h

theorem Inv.step {pc : PageController σ} (h : pc.Inv) (e : Event) : (pc.step e).Inv := by
  cases e with
  | key key longPress nowMs => exact h.handleKey key longPress nowMs
  | tick nowMs =>
    rw [PageController.step, tick_eq]
    exact (((h.startActivity nowMs).tickScreenOff nowMs).tickEnterMode nowMs).tickAnim nowMs
  | setIdleTimeout timeoutMs =>
    exact h.congr rfl rfl rfl rfl (fun _ => rfl) fun hm => (h.enter hm).2
  | setAutoScreenOff enabled =>
    exact h.congr rfl rfl rfl rfl (fun _ => rfl) fun hm => (h.enter hm).2

/-! ## Runs -/

/-- The state after the calls `es`, from `page_controller_init`. -/
abbrev after (pages : List (Option (Page σ))) (globals : Globals σ) (es : List Event) :
    PageController σ := run step (init pages globals) es

theorem inv_after {pages : List (Option (Page σ))} (hn : 2 ≤ pages.length)
    (globals : Globals σ) (es : List Event) : (after pages globals es).Inv :=
  run_invariant (P := Inv) (fun _ e h => h.step e) (inv_init hn globals) es

/-- What the pages, and the code that indexes by page, may rely on. -/
structure WellFormed (pc : PageController σ) : Prop where
  range : 0 ≤ pc.currentPage ∧ pc.currentPage < pc.pageCount
  slide : pc.anim.type.isSlide = true → pc.anim.fromPage = pc.currentPage ∧
    pc.anim.toPage = (pc.anim.fromPage + direction pc.anim.type) % pc.pageCount ∧
    pc.pageMode = .view
  enter : pc.pageMode = .enter → (∃ page, pc.getCurrentPage = some page ∧ page.canEnter = true) ∧
    pc.screenState = .on

theorem pages_after (pages : List (Option (Page σ))) (globals : Globals σ) (es : List Event) :
    (after pages globals es).pages = pages := by
  refine run_invariant (P := fun pc : PageController σ => pc.pages = pages) (fun pc e h => ?_) rfl es
  cases e with
  | key key longPress nowMs => exact (pages_handleKey pc key longPress nowMs).trans h
  | tick nowMs => exact (pages_tick pc nowMs).trans h
  | setIdleTimeout timeoutMs => exact h
  | setAutoScreenOff enabled => exact h

/-- **The page controller is well formed** after every run, over every array of at least two
pages and with arbitrary times; and `on_enter` and `on_exit` alternate, provided that every page has
both or neither. -/
theorem wellFormed_after {pages : List (Option (Page σ))} (hn : 2 ≤ pages.length)
    (globals : Globals σ) (es : List Event) : (after pages globals es).WellFormed ∧
      (Paired pages → Alternates (after pages globals es).trace) := by
  have h := inv_after hn globals es
  refine ⟨⟨h.range, h.slide, h.enter⟩, fun hpaired => ⟨(h.calls ?_).turns⟩⟩
  rw [pages_after]
  exact hpaired

/-- Two pages of which the second can be entered and has both callbacks: it is entered, left and
entered again. -/
theorem wellFormed_entered :
    let pages : List (Option (Page Unit)) :=
      [some {}, some { canEnter := true, onEnter := some id, onExit := some id }]
    let pc := after pages ⟨false, ()⟩
      [.key keyK2 true 1000, .key keyK2 true 2000, .key keyK2 true 3000, .tick 3300]
    pc.pageMode = .enter ∧ pc.WellFormed ∧ pc.trace = [.onEnter 1, .onExit 1, .onEnter 1] ∧
      Alternates pc.trace := by
  intro pages pc
  have hpaired : Paired pages := by
    intro page hpage
    simp only [pages, List.mem_cons, Option.some.injEq, List.not_mem_nil, or_false] at hpage
    rcases hpage with rfl | rfl
    · rfl
    · rfl
  obtain ⟨hwf, hturns⟩ : pc.WellFormed ∧ (Paired pages → Alternates pc.trace) :=
    wellFormed_after (by decide) _ _
  exact ⟨by decide, hwf, by decide, hturns hpaired⟩

/-- `exit_enter_mode` and `try_enter_mode` ask for their callbacks one by one: a page without an
`on_exit` is told twice that it is entered. -/
theorem entered_twice :
    let pages : List (Option (Page Unit)) :=
      [some {}, some { canEnter := true, onEnter := some id }]
    let pc := after pages ⟨false, ()⟩
      [.key keyK2 true 1000, .key keyK2 true 2000, .key keyK2 true 3000]
    pc.trace = [.onEnter 1, .onEnter 1] ∧ ¬Alternates pc.trace := by
  intro pages pc
  have htrace : pc.trace = [.onEnter 1, .onEnter 1] := by decide
  rw [htrace]
  refine ⟨rfl, fun ⟨halways⟩ => ?_⟩
  obtain ⟨page, hexit⟩ := halways.1 (.onEnter 1) rfl
  cases hexit

/-! ## Slides take effect -/

/-- Forward slides started minus backward slides started. -/
def netSlides (trace : List Obs) : ℤ := trace.count (.slide 1) - trace.count (.slide (-1))

/-- The page on which the slides started so far should end. -/
def target (pc : PageController σ) : ℤ := (1 + netSlides pc.trace) % pc.pageCount

/-- Every slide that was started has taken effect, or is taking effect. -/
structure Committed (pc : PageController σ) : Prop where
  rest : pc.anim.type.isSlide = false → pc.currentPage = pc.target
  sliding : pc.anim.type.isSlide = true → pc.anim.toPage = pc.target

/-- A key press finds a slide that is over but not committed. -/
def Discards (pc : PageController σ) : Event → Prop
  | .key _ _ nowMs => pc.screenState = .on ∧ pc.anim.type.isSlide = true ∧
    pc.anim.animIsComplete nowMs = true
  | _ => False

@[simp] theorem netSlides_onEnter (p : ℤ) (t : List Obs) :
    netSlides (.onEnter p :: t) = netSlides t := by simp [netSlides]

@[simp] theorem netSlides_onExit (p : ℤ) (t : List Obs) :
    netSlides (.onExit p :: t) = netSlides t := by simp [netSlides]

theorem netSlides_slide {d : ℤ} (hd : d = 1 ∨ d = -1) (t : List Obs) :
    netSlides (.slide d :: t) = netSlides t + d := by
  rcases hd with rfl | rfl
  · simp [netSlides]; omega
  · simp [netSlides]; omega

/-- Started from page `a`, a slide is on course if and only if `a` is. -/
theorem slide_on_course {n a b d : ℤ} (h0 : 0 ≤ a) (hlt : a < n) :
    (a + d) % n = (b + d) % n ↔ a = b % n := by
  constructor
  · intro h
    have hmod : a ≡ b [ZMOD n] := Int.ModEq.add_right_cancel' d h
    rw [← Int.emod_eq_of_lt h0 hlt]
    exact hmod
  · rintro rfl
    rw [Int.emod_add_emod]

/-- A tried entry starts no slide and stays on the page. -/
theorem tryEnterMode_slides (pc : PageController σ) (hnone : pc.anim.type.isSlide = false)
    (nowMs : UInt64) :
    let pc' := (pc.tryEnterMode nowMs).2
    pc'.pages = pc.pages ∧ pc'.currentPage = pc.currentPage ∧ pc'.anim.type.isSlide = false ∧
      netSlides pc'.trace = netSlides pc.trace := by
  simp only [tryEnterMode, exitEnterMode]
  split
  · split
    · exact ⟨rfl, rfl, rfl, rfl⟩
    · exact ⟨rfl, rfl, rfl, netSlides_onExit _ _⟩
  split
  · exact ⟨rfl, rfl, hnone, rfl⟩
  split
  · exact ⟨rfl, rfl, rfl, rfl⟩
  split
  · exact ⟨rfl, rfl, rfl, rfl⟩
  · exact ⟨rfl, rfl, rfl, netSlides_onEnter _ _⟩

theorem Committed.of_rest {pc pc' : PageController σ} (hp : pc'.pages = pc.pages)
    (hc : pc'.currentPage = pc.currentPage) (hs : pc'.anim.type.isSlide = false)
    (hn : netSlides pc'.trace = netSlides pc.trace) :
    pc'.Committed ↔ pc.currentPage = pc.target := by
  have ht : pc'.target = pc.target := by simp only [target, pageCount, hp, hn]
  constructor
  · intro h; rw [← hc, ← ht]; exact h.rest hs
  · intro h
    exact ⟨fun _ => by rw [hc, ht]; exact h, fun hs' => by simp [hs] at hs'⟩

/-- A key press that is acted on leaves the slides committed if and only if they were. -/
theorem KeyEffect.committed_iff_target {pc pc' : PageController σ} {nowMs : UInt64}
    (he : KeyEffect pc nowMs pc') (h : pc.Inv) (hnone : pc.anim.type = .none) :
    pc'.Committed ↔ pc.currentPage = pc.target := by
  have hrest : pc.anim.type.isSlide = false := by rw [hnone]; rfl
  cases he with
  | stay globals startMs => exact Committed.of_rest rfl rfl hrest rfl
  | sleep hmode => exact Committed.of_rest rfl rfl hrest rfl
  | tryEnter startMs =>
    obtain ⟨hp, hc, hs, hn⟩ :=
      tryEnterMode_slides { pc with enterModeStartMs := startMs } hrest nowMs
    exact Committed.of_rest hp hc hs hn
  | slide d hd hmode =>
    have hcount := h.count
    have hgo : pc.switchPage d nowMs = { pc with
        anim := { type := if d > 0 then .slideLeft else .slideRight, startMs := nowMs,
                  fromPage := pc.currentPage,
                  toPage := (pc.currentPage + d) % pc.pageCount }
        trace := .slide d :: pc.trace } := by
      simp only [switchPage]
      rw [if_neg (by omega), if_neg (by simp [hnone]), wrapPage_eq h.range.1 h.range.2 hd]
      rfl
    have hs : (pc.switchPage d nowMs).anim.type.isSlide = true := by
      rw [hgo]; rcases hd with rfl | rfl <;> rfl
    have hto : (pc.switchPage d nowMs).anim.toPage = (pc.currentPage + d) % pc.pageCount := by
      rw [hgo]
    have htarget : (pc.switchPage d nowMs).target =
        (1 + netSlides pc.trace + d) % pc.pageCount := by
      rw [hgo, target, netSlides_slide hd, ← add_assoc]
      rfl
    rw [target, ← slide_on_course (d := d) h.range.1 h.range.2, ← hto, ← htarget]
    exact ⟨fun hcom => hcom.sliding hs, fun heq => ⟨fun hs' => by simp [hs] at hs', fun _ => heq⟩⟩

theorem Committed.congr {pc pc' : PageController σ} (h : pc.Committed)
    (hp : pc'.pages = pc.pages) (hc : pc'.currentPage = pc.currentPage)
    (ha : pc'.anim = pc.anim) (ht : pc'.trace = pc.trace) : pc'.Committed := by
  have htarget : pc'.target = pc.target := by simp only [target, pageCount, hp, ht]
  exact ⟨fun hs => by rw [hc, htarget]; exact h.rest (ha ▸ hs),
    fun hs => by rw [ha, htarget]; exact h.sliding (ha ▸ hs)⟩

theorem Committed.tick {pc : PageController σ} (hi : pc.Inv) (h : pc.Committed)
    (nowMs : UInt64) : (pc.tick nowMs).2.Committed := by
  rw [tick_eq]
  have h₁ : (pc.startActivity nowMs).Committed := by
    simp only [startActivity]
    split
    · exact h.congr rfl rfl rfl rfl
    · exact h
  have h₂ : ((pc.startActivity nowMs).tickScreenOff nowMs).2.Committed := by
    simp only [tickScreenOff]
    split
    · exact h₁.congr rfl rfl rfl rfl
    · exact h₁
  have hi₂ := (hi.startActivity nowMs).tickScreenOff nowMs
  generalize ((pc.startActivity nowMs).tickScreenOff nowMs).2 = pc₂ at h₂ hi₂ ⊢
  have h₃ : (pc₂.tickEnterMode nowMs).2.Committed := by
    simp only [tickEnterMode]
    split
    · rename_i hc
      have hrest : pc₂.anim.type.isSlide = false := by
        by_contra hs
        have := (hi₂.slide (by simpa using hs)).2.2
        simp [hc.1] at this
      have htry : (pc₂.tryEnterMode nowMs).2 = pc₂.exitEnterMode nowMs := by
        rw [tryEnterMode, if_pos hc.1]
      obtain ⟨hp, hcur, hs, hn⟩ := htry ▸ tryEnterMode_slides pc₂ hrest nowMs
      exact (Committed.of_rest hp hcur hs hn).2 (h₂.rest hrest)
    · exact h₂
  generalize (pc₂.tickEnterMode nowMs).2 = pc₃ at h₃ ⊢
  simp only [tickAnim]
  split
  · exact h₃
  split
  · by_cases hs : pc₃.anim.type.isSlide = true
    · simp only [hs, if_true]
      exact ⟨fun _ => h₃.sliding hs, fun hs' => by simp at hs'⟩
    · simp only [hs, Bool.false_eq_true, if_false]
      exact ⟨fun _ => h₃.rest (by simpa using hs), fun hs' => by simp at hs'⟩
  · exact h₃

/-- **One call.** Slides stay committed unless a key press discards one. -/
theorem committed_step {pc : PageController σ} (hi : pc.Inv) (h : pc.Committed) (e : Event) :
    (pc.step e).Committed ↔ ¬pc.Discards e := by
  cases e with
  | tick nowMs => exact ⟨fun _ hd => hd, fun _ => h.tick hi nowMs⟩
  | setIdleTimeout timeoutMs => exact ⟨fun _ hd => hd, fun _ => h.congr rfl rfl rfl rfl⟩
  | setAutoScreenOff enabled => exact ⟨fun _ hd => hd, fun _ => h.congr rfl rfl rfl rfl⟩
  | key key longPress nowMs =>
    simp only [Discards, step]
    rcases handleKey_cases pc key longPress nowMs with
      ⟨hoff, heq⟩ | ⟨hon, hbusy, heq⟩ | ⟨hon, hdone, he⟩
    · rw [heq]
      exact ⟨fun _ hd => by simp [hoff] at hd, fun _ => h.congr rfl rfl rfl rfl⟩
    · rw [heq]
      exact ⟨fun _ hd => by simp [hbusy] at hd, fun _ => h.congr rfl rfl rfl rfl⟩
    · rw [he.committed_iff_target (hi.clearAnim nowMs) rfl]
      by_cases hs : pc.anim.type.isSlide = true
      · refine ⟨fun hc => ?_, fun hd => absurd ⟨hon, hs, hdone⟩ hd⟩
        obtain ⟨hfrom, hto, -⟩ := hi.slide hs
        have hd : direction pc.anim.type = 1 ∨ direction pc.anim.type = -1 := by
          cases ht : pc.anim.type <;> simp_all [direction]
        have hne := emod_add_ne hi.count hi.range.1 hi.range.2 hd
        rw [← hfrom, ← hto, h.sliding hs, hfrom] at hne
        exact absurd hc.symm hne
      · exact ⟨fun _ hd => hs hd.2.1, fun _ => h.rest (by simpa using hs)⟩

theorem committed_init {pages : List (Option (Page σ))} (hn : 2 ≤ pages.length)
    (globals : Globals σ) : (init pages globals).Committed := by
  have : (2 : ℤ) ≤ pages.length := by exact_mod_cast hn
  refine ⟨fun _ => ?_, fun hs => by simp [init] at hs⟩
  simp only [init, target, netSlides, pageCount, List.count_nil]
  rw [Int.emod_eq_of_lt] <;> omega

/-- **Every slide takes effect if and only if no key press discards one**: all states of a run have
their slides committed precisely when no key press finds the screen on and a slide that is over
and not yet committed by a tick. -/
theorem committed_iff {pages : List (Option (Page σ))} (hn : 2 ≤ pages.length)
    (globals : Globals σ) (es : List Event) :
    Throughout step Committed (init pages globals) es ↔
      Along step (fun pc e => ¬pc.Discards e) (init pages globals) es :=
  throughout_iff_along (P := Committed) (I := Inv) (s := init pages globals)
    (fun _ e hi _ => hi.step e) (fun _ e hi h => committed_step hi h e)
    (inv_init hn globals) (committed_init hn globals) es

instance (pc : PageController σ) (e : Event) : Decidable (pc.Discards e) :=
  match e with
  | .key _ _ _ => inferInstanceAs (Decidable (_ ∧ _ ∧ _))
  | .tick _ => inferInstanceAs (Decidable False)
  | .setIdleTimeout _ => inferInstanceAs (Decidable False)
  | .setAutoScreenOff _ => inferInstanceAs (Decidable False)

/-- Two forward slides with a tick between them. -/
theorem committed_ticked :
    let pages : List (Option (Page Unit)) := [some {}, some {}, some {}]
    Throughout step Committed (init pages ⟨false, ()⟩)
      [.key keyK3 false 1000, .tick 1300, .key keyK3 false 1400] :=
  (committed_iff (by decide) _ _).2 ⟨by decide, by decide, by decide, trivial⟩

/-- The failing input: two forward slides 300 ms apart without a tick between them. -/
theorem slide_discarded :
    let pages : List (Option (Page Unit)) := [some {}, some {}, some {}]
    ¬Throughout step Committed (init pages ⟨false, ()⟩)
      [.key keyK3 false 1000, .key keyK3 false 1300] := fun ⟨_, _, h⟩ =>
  absurd (h.sliding rfl) (by decide)

end NanoHat.PageController
