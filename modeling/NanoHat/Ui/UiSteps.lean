import NanoHat.Status.Moves
import NanoHat.Ui.ServicesDialog

/-!
# The steps of the UI

What holds of the UI between events (`Ready`), and what the parts of an event amount to: a key press
either leaves the services page in its transitions or confirms its dialog
(`handleButton_cases`), a control request is handed to the HAL or fails (`submit_cases`), a callback
notifies the services page at most (`Ready.deliver`), and a render draws the services page or not
(`render_cases`).
-/

namespace NanoHat

open Sys

/-! ## Notices -/

namespace ServicesState

/-- The transitions after `page_services_notify_control_result`. -/
def noticed (uiStates : ℕ → SvcUiState) (index : ℤ) (success : Bool) : ℕ → SvcUiState :=
  if index < 0 ∨ index ≥ maxMonitoredServices then uiStates
  else if success then uiStates
  else Function.update uiStates index.toNat .error

theorem notifyControlResult_eq (st : ServicesState) (index : ℤ) (success : Bool) :
    st.notifyControlResult index success =
      { st with uiStates := noticed st.uiStates index success } := by
  unfold notifyControlResult noticed
  split
  · rfl
  split <;> rfl

end ServicesState

/-- What leaves dialog and selection alone keeps the invariant of the dialog. -/
theorem PageController.DialogInv.modify {n : ℕ} {pc : PageController PagesState}
    (h : pc.DialogInv n) (g : PagesGlobals) (hok : g.pageState.services.Ok n)
    (hd : g.pageState.services.dialog = .confirm → pc.OnServices) :
    DialogInv n { pc with globals := g } where
  inv := h.inv.congr rfl rfl rfl rfl (fun _ => rfl) fun hm => (h.inv.enter hm).2
  pages := h.pages
  ok := hok
  dialog hc := ⟨(hd hc).mode, (hd hc).page, (hd hc).still, (hd hc).on⟩

namespace UiSys

/-- The callback of a control request is the one of the UI. -/
def Notifies (n : ℕ) (r : HalRequest Ui) : Prop :=
  ∀ index start cb, r.ctx = .control index start cb →
    0 ≤ index ∧ index < n ∧ cb = some (Ui.uiServicesControlCb r.call)

/-- What holds of the UI at every moment outside the page controller, for `n` services. -/
structure Ready (n : ℕ) (s : UiSys) : Prop where
  count : s.status.serviceCount = n
  dialog : s.client.pageCtrl.DialogInv n
  power : s.client.powerOn = s.client.pageCtrl.isScreenOn
  statusCtx : s.client.statusCtx = true
  display : s.client.displayReady = true
  callbacks : ∀ r ∈ s.outstanding, Notifies n r

variable {n : ℕ} {s s' : UiSys}

/-! ## The dialog -/

theorem dialogInv_init (cfg : List CStr) :
    PageController.DialogInv cfg.length
      ((PageController.init (pagesGetList cfg.length) ⟨false, {}⟩).setIdleTimeout 30000) := by
  have hcount : 2 ≤ (pagesGetList cfg.length).length := Nat.le_add_left 2 3
  have hinv := PageController.inv_init hcount ⟨false, {}⟩
  exact ⟨hinv.step (.setIdleTimeout 30000), rfl, ServicesState.ok_servicesInit _, fun hd => by
    cases hd⟩

theorem dialogInv_notify {ui : Ui} (h : ui.pageCtrl.DialogInv n) (m : Notice) :
    (ui.notify m).pageCtrl.DialogInv n := by
  refine h.modify _ ?_ ?_
  · change (ui.services.notifyControlResult m.index m.success).Ok n
    rw [ServicesState.notifyControlResult_eq]
    have hok := h.ok
    exact ⟨hok.selected_nonneg, hok.selected_lt, hok.selection, hok.idle, hok.nonempty⟩
  · change (ui.services.notifyControlResult m.index m.success).dialog = .confirm → _
    rw [ServicesState.notifyControlResult_eq]
    exact h.dialog

/-- The buffer is cleared before a render. -/
theorem dialogInv_clear (ui : Ui) (h : ui.pageCtrl.DialogInv n) :
    PageController.DialogInv n
      (ui.modifyPageState fun p => { p with buffer := [] } : Ui).pageCtrl :=
  h.modify _ h.ok h.dialog

/-- The page state with the intent of a confirmed dialog taken. -/
def taken (st : ServicesState) (nowMs : UInt64) : ServicesState :=
  { st.confirmed with
    pendingControlIndex := -1
    stateChangeMs := Function.update st.stateChangeMs st.selectedIndex.toNat nowMs }

theorem dialogInv_taken (ui : Ui) {st : ServicesState} (hinv : ui.pageCtrl.Inv)
    (hpages : ui.pageCtrl.pages = pagesGetList n) (hon : ui.pageCtrl.OnServices) (hok : st.Ok n)
    (nowMs : UInt64) : (ui.modifyServices fun _ => taken st nowMs).pageCtrl.DialogInv n where
  inv := hinv.congr rfl rfl rfl rfl (fun _ => rfl) fun _ => hon.on
  pages := hpages
  ok := ⟨hok.selected_nonneg, hok.selected_lt, hok.selection, rfl, fun hd => by cases hd⟩
  dialog hd := by cases hd

/-! ## Moves of the HAL -/

theorem Ready.quiet (h : Ready n s) (hq : Quiet s s') : Ready n s' where
  count := hq.count.trans h.count
  dialog := by
    rw [hq.client]
    exact h.dialog
  power := by
    rw [hq.client]
    exact h.power
  statusCtx := by
    rw [hq.client]
    exact h.statusCtx
  display := by
    rw [hq.client]
    exact h.display
  callbacks r hr index start cb hctx :=
    h.callbacks r (hq.mem_outstanding hr hctx) index start cb hctx

theorem Ready.notify (h : Ready n s) (m : Notice) :
    Ready n { s with client := s.client.notify m } where
  count := h.count
  dialog := dialogInv_notify h.dialog m
  power := h.power
  statusCtx := h.statusCtx
  display := h.display
  callbacks := h.callbacks

/-- A callback of a control request notifies the services page. -/
theorem serviceControlCb_eq {call : ℕ} {a : Answer} {index : ℤ} {start : Bool} (h0 : 0 ≤ index)
    (hlt : index < s.status.serviceCount) :
    Sys.serviceControlCb s call a index start (some (Ui.uiServicesControlCb call)) =
      { (s.modify index.toNat (writeControl start a.success)).logs
          (.controlDone call index.toNat a.success
            ((s.outstanding.filter (s.asksFor index.toNat)).map HalRequest.call)) with
        client := s.client.notify ⟨some call, index, a.success⟩ } := by
  unfold Sys.serviceControlCb callControlCb
  rw [if_pos ⟨h0, hlt⟩]
  rfl

/-- What keeps the client keeps the UI ready. -/
theorem Ready.of_client (h : Ready n s) (hclient : s'.client = s.client)
    (hcount : s'.status.serviceCount = s.status.serviceCount)
    (hout : s'.outstanding.Sublist s.outstanding) : Ready n s' where
  count := hcount.trans h.count
  dialog := by
    rw [hclient]
    exact h.dialog
  power := by
    rw [hclient]
    exact h.power
  statusCtx := by
    rw [hclient]
    exact h.statusCtx
  display := by
    rw [hclient]
    exact h.display
  callbacks r hr := h.callbacks r (hout.subset hr)

/-- What a callback of the HAL does to the UI. -/
inductive Called (n : ℕ) (s : UiSys) (a : Answer) : UiSys → Prop
  | nothing : Called n s a s
  /-- A query is answered; `written` is the entry that the answer goes to. -/
  | query {call requestId k service l₁ l₂ status} (written : Option ℕ)
      (hout : s.outstanding = l₁ ++ ⟨call, service, .query requestId k⟩ :: l₂)
      (hstatus : status = match written with
        | none => s.status
        | some i => s.status.modify i (writeAnswer a))
      (hlt : ∀ i ∈ written, i < n) :
    Called n s a { s with
      outstanding := l₁ ++ l₂
      status := status
      log := .queryDone call k written a :: s.log }
  /-- A control operation is over, and the services page is notified. -/
  | control {call i start service l₁ l₂ queries}
      (hout : s.outstanding = l₁ ++
        ⟨call, service, .control (Nat.cast i) start (some (Ui.uiServicesControlCb call))⟩ :: l₂)
      (hlt : i < n) :
    Called n s a { s with
      outstanding := l₁ ++ l₂
      status := s.status.modify i (writeControl start a.success)
      log := .controlDone call i a.success queries :: s.log
      client := s.client.notify ⟨some call, i, a.success⟩ }

theorem Ready.called (h : Ready n s) (call : ℕ) (a : Answer) : Called n s a (s.deliver call a) := by
  have hd := deliver_cases s call a
  generalize s.deliver call a = s' at hd ⊢
  cases hd with
  | nothing => exact .nothing
  | stale hout => exact .query none hout rfl fun i hi => by cases hi
  | answer hout hi =>
    refine .query (some _) hout rfl fun i hi' => ?_
    obtain rfl := Option.mem_some.1 hi'
    exact h.count ▸ hi
  | control hout =>
    rename_i call index start cb service l₁ l₂
    obtain ⟨h0, hlt, hcb⟩ := h.callbacks ⟨call, service, .control index start cb⟩
      (by rw [hout]; exact List.mem_append_right _ List.mem_cons_self) index start cb rfl
    dsimp only at hcb
    subst hcb
    obtain ⟨i, rfl⟩ := Int.eq_ofNat_of_zero_le h0
    rw [serviceControlCb_eq h0 (by rw [h.count]; exact hlt)]
    exact .control hout (by exact_mod_cast hlt)

theorem Ready.of_called {a : Answer} (h : Ready n s) (hc : Called n s a s') : Ready n s' := by
  cases hc with
  | nothing => exact h
  | query written hout hstatus hlt =>
    refine h.of_client rfl ?_ ?_
    · rw [hstatus]
      cases written <;> rfl
    · rw [hout]
      exact (List.Sublist.refl _).append (List.sublist_cons_self _ _)
  | control hout hlt =>
    rename_i call i start service l₁ l₂ queries
    have hpre : Ready n { s with
        outstanding := l₁ ++ l₂
        status := s.status.modify i (writeControl start a.success)
        log := .controlDone call i a.success queries :: s.log } := by
      refine h.of_client rfl rfl ?_
      rw [hout]
      exact (List.Sublist.refl _).append (List.sublist_cons_self _ _)
    exact hpre.notify ⟨some call, i, a.success⟩

theorem Ready.deliver (h : Ready n s) (call : ℕ) (a : Answer) : Ready n (s.deliver call a) :=
  h.of_called (h.called call a)

theorem Ready.deliverAll (h : Ready n s) (completions : List (ℕ × Answer)) :
    Ready n (s.deliverAll completions) :=
  deliverAll_moves (P := Ready n) (fun _ call a h => h.deliver call a) h completions

/-- Completions keep what each of them keeps. -/
theorem Ready.deliverAll_keeps {P : UiSys → Prop} (h : Ready n s)
    (hcalled : ∀ {s s' : UiSys} {a : Answer}, P s → Called n s a s' → P s') (hp : P s)
    (completions : List (ℕ × Answer)) : P (s.deliverAll completions) :=
  (deliverAll_moves (P := fun s => Ready n s ∧ P s)
    (fun _ call a h => ⟨h.1.deliver call a, hcalled h.2 (h.1.called call a)⟩) ⟨h, hp⟩
    completions).2

/-- A round of queries keeps what quiet moves and completions keep. -/
theorem Ready.queryServices_keeps {P : UiSys → Prop} (h : Ready n s)
    (hquiet : ∀ {s s' : UiSys}, P s → Quiet s s' → P s')
    (hcalled : ∀ {s s' : UiSys} {a : Answer}, P s → Called n s a s' → P s') (hp : P s)
    (nowMs : UInt64) (env : ℕ → CallEnv) : P (s.queryServices nowMs env).2 :=
  (queryServices_moves (P := fun s => Ready n s ∧ P s)
    (fun _ _ hq h => ⟨h.1.quiet hq, hquiet h.2 hq⟩)
    (fun _ call a h => ⟨h.1.deliver call a, hcalled h.2 (h.1.called call a)⟩) ⟨h, hp⟩
    nowMs env).2

theorem calls_deliverAll (h : Ready n s) (completions : List (ℕ × Answer)) :
    (s.deliverAll completions).calls = s.calls := by
  refine h.deliverAll_keeps (P := fun s' => s'.calls = s.calls) ?_ rfl completions
  intro s₁ s₂ a hcalls hc
  cases hc with
  | nothing => exact hcalls
  | query written hout hstatus hlt => exact hcalls
  | control hout hlt => exact hcalls

/-! ## Control requests -/

/-- The state in which the HAL gets the control request of the UI. -/
abbrev requested (s : UiSys) (i : ℕ) (start : Bool) (env : CallEnv) : UiSys :=
  s.controlAsked (Nat.cast i) start (some (Ui.uiServicesControlCb s.calls)) env

/-- What becomes of a control request. -/
inductive Submitted (s : UiSys) (i : ℕ) (start : Bool) (env : CallEnv) : UiSys → Prop
  | noMemory (halloc : env.alloc = false) :
    Submitted s i start env (s.notifyFailed none (Nat.cast i))
  | refused (halloc : env.alloc = true) (href : env.refused = true) :
    Submitted s i start env
      (notifyFailed (((s.requested i start env).deliverAll env.completions).logs
        (.controlRefused s.calls)) (some s.calls) (Nat.cast i))
  | accepted (halloc : env.alloc = true) (href : env.refused = false) :
    Submitted s i start env ((s.requested i start env).deliverAll env.completions)

theorem Ready.requested (h : Ready n s) {i : ℕ} (hi : i < n) (start : Bool) (env : CallEnv) :
    Ready n (s.requested i start env) where
  count := h.count
  dialog := h.dialog
  power := h.power
  statusCtx := h.statusCtx
  display := h.display
  callbacks r hr := by
    rcases mem_controlAsked hr with hr | rfl
    · exact h.callbacks r hr
    · intro index start cb hctx
      injection hctx with hindex hstart hcb
      subst hindex
      exact ⟨Int.natCast_nonneg i, by exact_mod_cast hi, hcb.symm⟩

theorem Ready.submitted (h : Ready n s) {i : ℕ} (hi : i < n) (start : Bool) (env : CallEnv) :
    Submitted s i start env (s.submit (Nat.cast i) start env) := by
  have hlt : (i : ℤ) < s.status.serviceCount := by
    rw [h.count]
    exact_mod_cast hi
  unfold UiSys.submit
  rw [if_neg (by rw [h.statusCtx]; simp)]
  dsimp only
  rcases controlService_cases s (Nat.cast i) start (some (Ui.uiServicesControlCb s.calls)) env with
    ⟨hbad, heq⟩ | ⟨-, -, ha, hr, heq⟩ | ⟨-, -, ha, hr, heq⟩
  · rw [heq]
    have hfree : env.alloc = false := by
      rcases hbad with hneg | hge | hfree
      · omega
      · omega
      · exact hfree
    rw [if_pos neg_one_lt_zero, if_pos rfl]
    exact .noMemory hfree
  · rw [heq]
    have hcalls := calls_deliverAll (h.requested hi start env) env.completions
    have hne : (((s.requested i start env).deliverAll env.completions).logs
        (.controlRefused s.calls)).calls ≠ s.calls := by
      change ((s.requested i start env).deliverAll env.completions).calls ≠ s.calls
      rw [hcalls]
      exact Nat.succ_ne_self _
    rw [if_pos neg_one_lt_zero, if_neg hne]
    exact .refused ha hr
  · rw [heq, if_neg (lt_irrefl 0)]
    exact .accepted ha hr

theorem Ready.logs (h : Ready n s) (o : Obs UiObs) : Ready n (Sys.logs s o) :=
  h.of_client rfl rfl (List.Sublist.refl _)

theorem Ready.notifyFailed (h : Ready n s) (call : Option ℕ) (index : ℤ) :
    Ready n (s.notifyFailed call index) := (h.notify ⟨call, index, false⟩).logs _

theorem Ready.submit (h : Ready n s) {i : ℕ} (hi : i < n) (start : Bool) (env : CallEnv) :
    Ready n (s.submit (Nat.cast i) start env) := by
  have hs := h.submitted hi start env
  have hall := (h.requested hi start env).deliverAll env.completions
  generalize s.submit (Nat.cast i) start env = s' at hs ⊢
  cases hs with
  | noMemory => exact h.notifyFailed none _
  | refused => exact (hall.logs _).notifyFailed _ _
  | accepted => exact hall

/-! ## Key presses -/

/-- The UI with a flag to draw. -/
def flag (s : UiSys) (changed : Bool) : UiSys :=
  { s with client := { s.client with needsRender := changed || s.client.needsRender } }

/-- The UI after the page controller has moved. -/
def paged (s : UiSys) (pc : PageController PagesState) : UiSys :=
  { s with client := { s.client with pageCtrl := pc, powerOn := pc.isScreenOn } }

@[simp] theorem needsRender_flag (s : UiSys) (changed : Bool) :
    (s.flag changed).client.needsRender = (changed || s.client.needsRender) := rfl

@[simp] theorem powerOn_flag (s : UiSys) (changed : Bool) :
    (s.flag changed).client.powerOn = s.client.powerOn := rfl

@[simp] theorem needsRender_paged (s : UiSys) (pc : PageController PagesState) :
    (s.paged pc).client.needsRender = s.client.needsRender := rfl

@[simp] theorem powerOn_paged (s : UiSys) (pc : PageController PagesState) :
    (s.paged pc).client.powerOn = pc.isScreenOn := rfl

@[simp] theorem status_paged (s : UiSys) (pc : PageController PagesState) :
    (s.paged pc).status = s.status := rfl

theorem Ready.paged (h : Ready n s) {pc : PageController PagesState} (hpc : pc.DialogInv n) :
    Ready n (s.paged pc) := ⟨h.count, hpc, rfl, h.statusCtx, h.display, h.callbacks⟩

theorem Ready.flag (h : Ready n s) (changed : Bool) : Ready n (s.flag changed) :=
  ⟨h.count, h.dialog, h.power, h.statusCtx, h.display, h.callbacks⟩

/-- What a button event amounts to before the render. -/
inductive Handled (n : ℕ) (s : UiSys) (key : UInt8) (longPress : Bool) (nowMs : UInt64)
    (env : CallEnv) : UiSys → Prop
  | other {changed : Bool} {pc : PageController PagesState}
      (hnot : ¬s.client.services.Confirms key longPress) (hpc : pc.DialogInv n)
      (hstill : ServicesState.Still s.client.services pc.services)
      (hview : (changed = true ∧ pc.screenState = .on) ∨
        ∀ status, pc.services.view status = s.client.services.view status)
      (hscreen : changed = true ∨ pc.screenState = s.client.pageCtrl.screenState) :
    Handled n s key longPress nowMs env ((s.paged pc).flag changed)
  | confirm {pc : PageController PagesState} {i : ℕ}
      (hconf : s.client.services.Confirms key longPress)
      (hi : s.client.services.selectedIndex = i) (hlt : i < n) (hpc : pc.DialogInv n)
      (hon : pc.OnServices) (hserv : pc.services = taken s.client.services nowMs) :
    Handled n s key longPress nowMs env
      (((s.paged pc).submit (Nat.cast i) (!s.client.services.cachedRunning i) env).flag true)

theorem takeControlRequest_idle (ui : Ui) (h : ui.services.pendingControlIndex = -1)
    (nowMs : UInt64) : ui.takeControlRequest nowMs = (none, ui) := by
  unfold Ui.takeControlRequest ServicesState.takeControlRequest
  rw [if_pos (by rw [h]; exact neg_one_lt_zero)]
  rfl

theorem takeControlRequest_confirmed (ui : Ui) {st : ServicesState} (h : ui.services = st.confirmed)
    (h0 : 0 ≤ st.selectedIndex) (hlt : st.selectedIndex < maxMonitoredServices) (nowMs : UInt64) :
    ui.takeControlRequest nowMs =
      (some (st.selectedIndex, !st.cachedRunning st.selectedIndex.toNat),
        ui.modifyServices fun _ => taken st nowMs) := by
  unfold Ui.takeControlRequest ServicesState.takeControlRequest
  rw [h]
  have hpending : st.confirmed.pendingControlIndex = st.selectedIndex := rfl
  rw [hpending, if_neg (not_lt.2 h0)]
  dsimp only
  rw [if_pos hlt]
  rfl

theorem Ready.handled (h : Ready n s) (hn : n ≤ maxMonitoredServices) (key : UInt8)
    (longPress : Bool) (nowMs : UInt64) (env : CallEnv) :
    Handled n s key longPress nowMs env (s.handleButton key longPress nowMs env) := by
  have hinv := h.dialog.inv.handleKey key longPress nowMs
  have hpages := (PageController.pages_handleKey _ key longPress nowMs).trans h.dialog.pages
  have ho := h.dialog.handleKey_outcome key longPress nowMs
  have hscreen := PageController.handleKey_screen s.client.pageCtrl key longPress nowMs
  unfold UiSys.handleButton
  generalize s.client.pageCtrl.handleKey key longPress nowMs = r at hinv hpages ho hscreen ⊢
  obtain ⟨changed, pc⟩ := r
  have hview := ho.view h.dialog.ok
  rcases ho.cases h.dialog.ok hinv hpages with ⟨hnot, hpc, hstill⟩ | ⟨hconf, hchanged, hserv, hon⟩
  · dsimp only
    rw [takeControlRequest_idle { s.client with pageCtrl := pc, powerOn := pc.isScreenOn }
      hpc.ok.idle nowMs]
    dsimp only
    cases changed with
    | true => exact .other hnot hpc hstill hview hscreen
    | false => exact .other hnot hpc hstill hview hscreen
  · dsimp only at hserv hchanged hinv hpages ⊢
    have hok := h.dialog.ok
    obtain ⟨i, hi⟩ := Int.eq_ofNat_of_zero_le hok.selected_nonneg
    have hlt := hok.selected_lt (hok.nonempty hconf.1)
    rw [hi] at hlt
    rw [takeControlRequest_confirmed { s.client with pageCtrl := pc, powerOn := pc.isScreenOn }
      hserv hok.selected_nonneg (by rw [hi]; omega) nowMs, hchanged, hi]
    dsimp only
    rw [if_pos rfl]
    have hpc := dialogInv_taken { s.client with pageCtrl := pc, powerOn := pc.isScreenOn }
      hinv hpages hon hok nowMs
    exact Handled.confirm (i := i) hconf hi (by exact_mod_cast hlt) hpc
      ⟨hon.mode, hon.page, hon.still, hon.on⟩ rfl

theorem Ready.handleButton (h : Ready n s) (hn : n ≤ maxMonitoredServices) (key : UInt8)
    (longPress : Bool) (nowMs : UInt64) (env : CallEnv) :
    Ready n (s.handleButton key longPress nowMs env) := by
  have hs := h.handled hn key longPress nowMs env
  generalize s.handleButton key longPress nowMs env = s' at hs ⊢
  cases hs with
  | other hnot hpc hstill hview hscreen => exact (h.paged hpc).flag _
  | confirm hconf hi hlt hpc hon hserv => exact ((h.paged hpc).submit hlt _ env).flag _

/-! ## Ticks -/

/-- The UI after the page controller has ticked. -/
abbrev ticked (s : UiSys) (nowMs : UInt64) : UiSys := s.paged (s.client.pageCtrl.tick nowMs).2

/-- The services are queried in a tick if the screen is on and nothing moves. -/
def Queries (s : UiSys) : Prop :=
  s.client.powerOn ∧ !s.client.pageCtrl.isAnimating ∧ s.client.statusCtx

instance (s : UiSys) : Decidable s.Queries :=
  inferInstanceAs
    (Decidable (s.client.powerOn ∧ !s.client.pageCtrl.isAnimating ∧ s.client.statusCtx))

/-- `ui_controller_tick`, after the page controller has ticked. -/
theorem tick_eq (s : UiSys) (cfg : List CStr) (nowMs queryNowMs : UInt64) (env : ℕ → CallEnv) :
    s.tick cfg nowMs queryNowMs env =
      if (s.ticked nowMs).Queries then
        flag (if 0 < ((s.ticked nowMs).updateLocal cfg).status.serviceCount then
          (((s.ticked nowMs).updateLocal cfg).queryServices queryNowMs env).2
          else (s.ticked nowMs).updateLocal cfg) true
      else (s.ticked nowMs).flag (s.client.pageCtrl.tick nowMs).1 := by
  unfold UiSys.tick ticked
  generalize s.client.pageCtrl.tick nowMs = r
  obtain ⟨changed, pc⟩ := r
  change (match if (s.paged pc).Queries then (true, if 0 < _ then _ else _)
      else (changed, s.paged pc) with
    | (needsRender, s') => if needsRender then s'.flag true else s') = _
  by_cases hq : (s.paged pc).Queries
  · rw [if_pos hq, if_pos hq]
    rfl
  · rw [if_neg hq, if_neg hq]
    cases changed <;> rfl

/-- `ui_controller_tick`, once the list of services is there. -/
theorem tick_cases {cfg : List CStr} (hcfg : s.status.serviceCount = cfg.length)
    (nowMs queryNowMs : UInt64) (env : ℕ → CallEnv) :
    ((s.ticked nowMs).Queries ∧ (0 < s.status.serviceCount ∧
          s.tick cfg nowMs queryNowMs env =
            flag ((s.ticked nowMs).sampled.queryServices queryNowMs env).2 true ∨
        s.tick cfg nowMs queryNowMs env = flag (s.ticked nowMs).sampled true)) ∨
      (¬(s.ticked nowMs).Queries ∧
        s.tick cfg nowMs queryNowMs env =
          (s.ticked nowMs).flag (s.client.pageCtrl.tick nowMs).1) := by
  have hsame : updateLocal (s.ticked nowMs) cfg = (s.ticked nowMs).sampled := updateLocal_eq hcfg
  have hcount : (s.ticked nowMs).sampled.status = s.status := rfl
  rw [tick_eq, hsame, hcount]
  by_cases hq : (s.ticked nowMs).Queries
  · rw [if_pos hq]
    refine Or.inl ⟨hq, ?_⟩
    by_cases hpos : 0 < s.status.serviceCount
    · rw [if_pos hpos]
      exact Or.inl ⟨hpos, rfl⟩
    · rw [if_neg hpos]
      exact Or.inr rfl
  · rw [if_neg hq]
    exact Or.inr ⟨hq, rfl⟩

theorem Ready.ticked (h : Ready n s) (nowMs : UInt64) : Ready n (s.ticked nowMs) :=
  h.paged (h.dialog.tick nowMs)

/-- A tick keeps what the round of queries in it keeps, up to the flag. -/
theorem Ready.tick_keeps {P : UiSys → Prop} (h : Ready n s)
    (hquiet : ∀ {s s' : UiSys}, P s → Quiet s s' → P s')
    (hcalled : ∀ {s s' : UiSys} {a : Answer}, P s → Called n s a s' → P s') {cfg : List CStr}
    (hcfg : cfg.length = n) (nowMs queryNowMs : UInt64) (env : ℕ → CallEnv)
    (hp : P (s.ticked nowMs)) :
    ∃ s₁ changed, P s₁ ∧ s.tick cfg nowMs queryNowMs env = s₁.flag changed ∧
      ((s.client.pageCtrl.tick nowMs).1 = true → changed = true) := by
  rcases tick_cases (h.count.trans hcfg.symm) nowMs queryNowMs env with
    ⟨-, ⟨-, heq⟩ | heq⟩ | ⟨-, heq⟩
  · have hready := (h.ticked nowMs).quiet (quiet_sampled _)
    exact ⟨_, true, hready.queryServices_keeps hquiet hcalled (hquiet hp (quiet_sampled _))
      queryNowMs env, heq, fun _ => rfl⟩
  · exact ⟨_, true, hquiet hp (quiet_sampled _), heq, fun _ => rfl⟩
  · exact ⟨_, _, hp, heq, id⟩

theorem Ready.tick (h : Ready n s) {cfg : List CStr} (hcfg : cfg.length = n)
    (nowMs queryNowMs : UInt64) (env : ℕ → CallEnv) :
    Ready n (s.tick cfg nowMs queryNowMs env) := by
  obtain ⟨s₁, changed, hready, heq, -⟩ := h.tick_keeps (P := Ready n) Ready.quiet Ready.of_called
    hcfg nowMs queryNowMs env (h.ticked nowMs)
  rw [heq]
  exact hready.flag changed

/-! ## Renders -/

/-- The UI after a frame has been sent. -/
def sent (s : UiSys) (pc : PageController PagesState) (drawn : List ServicesFrame) : UiSys :=
  { s with
    client := { s.client with needsRender := false, pageCtrl := pc }
    log := .client (.frame drawn) :: s.log }

/-- What a render amounts to. -/
inductive Rendered (n : ℕ) (s : UiSys) (nowMs : UInt64) : UiSys → Prop
  | skipped (hskip : s.client.needsRender = false ∨ s.client.powerOn = false) :
    Rendered n s nowMs { s with client := { s.client with needsRender := false } }
  | other {pc : PageController PagesState} (hneeds : s.client.needsRender = true)
      (hpower : s.client.powerOn = true) (hshows : ¬s.client.pageCtrl.Shows)
      (hpc : pc.DialogInv n) (hscreen : pc.screenState = s.client.pageCtrl.screenState)
      (hserv : pc.services = s.client.services) : Rendered n s nowMs (s.sent pc [])
  | services {pc : PageController PagesState} (hneeds : s.client.needsRender = true)
      (hpower : s.client.powerOn = true) (hshows : s.client.pageCtrl.Shows)
      (hpc : pc.DialogInv n) (hscreen : pc.screenState = s.client.pageCtrl.screenState)
      (hserv : pc.services = s.client.services.sync s.status) :
    Rendered n s nowMs (s.sent pc
      [(s.client.services.servicesRender s.status s.client.pageCtrl.pageMode nowMs).1])

theorem Ready.rendered (h : Ready n s) (nowMs : UInt64) :
    Rendered n s nowMs (s.render nowMs) := by
  have hskip : s.client.needsRender = false ∨ s.client.powerOn = false →
      s.render nowMs = { s with client := { s.client with needsRender := false } } := by
    intro hoff
    unfold UiSys.render Ui.render
    cases hneeds : s.client.needsRender with
    | false =>
      change s = _
      rw [← hneeds]
    | true =>
      rw [hneeds] at hoff
      have hpower := hoff.resolve_left Bool.noConfusion
      dsimp only
      rw [hpower]
      rfl
  cases hneeds : s.client.needsRender with
  | false =>
    rw [hskip (Or.inl hneeds)]
    exact .skipped (Or.inl hneeds)
  | true =>
    cases hpower : s.client.powerOn with
    | false =>
      rw [hskip (Or.inr hpower)]
      exact .skipped (Or.inr hpower)
    | true =>
      have hclear := dialogInv_clear { s.client with needsRender := false } h.dialog
      have hdraw := hclear.render_eq s.status nowMs
      have heq : s.render nowMs = s.sent
          (({ s.client with needsRender := false }.modifyPageState
            fun p => { p with buffer := [] } : Ui).pageCtrl.render s.status nowMs)
          (({ s.client with needsRender := false }.modifyPageState
            fun p => { p with buffer := [] } : Ui).pageCtrl.render s.status
              nowMs).globals.pageState.buffer := by
        unfold UiSys.render Ui.render
        dsimp only
        rw [if_neg (by rw [hneeds]; exact Bool.false_ne_true),
          if_neg (by rw [hpower]; exact Bool.false_ne_true),
          if_neg (by rw [h.display]; exact Bool.false_ne_true)]
        rfl
      rw [heq]
      rcases hdraw with ⟨hshows, hpc⟩ | ⟨hshows, hpc⟩
      · rw [hpc]
        exact .services hneeds hpower hshows (hclear.drawServices s.status nowMs) rfl rfl
      · rw [hpc]
        exact .other hneeds hpower hshows hclear rfl rfl

theorem Ready.render (h : Ready n s) (nowMs : UInt64) : Ready n (s.render nowMs) := by
  have hr := h.rendered nowMs
  generalize s.render nowMs = s' at hr ⊢
  have hsent : ∀ {pc : PageController PagesState} {drawn : List ServicesFrame}, pc.DialogInv n →
      pc.screenState = s.client.pageCtrl.screenState → Ready n (s.sent pc drawn) := by
    intro pc drawn hpc hscreen
    refine ⟨h.count, hpc, ?_, h.statusCtx, h.display, h.callbacks⟩
    change s.client.powerOn = pc.isScreenOn
    rw [h.power, PageController.isScreenOn, PageController.isScreenOn, hscreen]
  cases hr with
  | skipped => exact ⟨h.count, h.dialog, h.power, h.statusCtx, h.display, h.callbacks⟩
  | other hneeds hpower hshows hpc hscreen hserv => exact hsent hpc hscreen
  | services hneeds hpower hshows hpc hscreen hserv => exact hsent hpc hscreen

/-! ## One service -/

theorem uiStates_notify (ui : Ui) (m : Notice) :
    (ui.notify m).services.uiStates =
      ServicesState.noticed ui.services.uiStates m.index m.success := by
  change (ui.services.notifyControlResult m.index m.success).uiStates = _
  rw [ServicesState.notifyControlResult_eq]

theorem noticed_ne {uiStates : ℕ → SvcUiState} {i j : ℕ} (h : i ≠ j) (success : Bool) :
    ServicesState.noticed uiStates j success i = uiStates i := by
  unfold ServicesState.noticed
  split
  · rfl
  split
  · rfl
  · rw [Int.toNat_natCast, Function.update_of_ne h]

theorem noticed_self {uiStates : ℕ → SvcUiState} {i : ℕ} (hi : i < maxMonitoredServices) :
    ServicesState.noticed uiStates i false i = .error := by
  unfold ServicesState.noticed
  rw [if_neg (by omega), if_neg Bool.false_ne_true, Int.toNat_natCast, Function.update_self]

theorem uiStates_tick (h : Ready n s) (nowMs : UInt64) :
    (s.client.pageCtrl.tick nowMs).2.services.uiStates = s.client.services.uiStates := by
  have ho := h.dialog.tick_outcome nowMs
  generalize s.client.pageCtrl.tick nowMs = r at ho ⊢
  obtain ⟨changed, pc⟩ := r
  cases ho with
  | closed hd hserv => exact congrArg ServicesState.uiStates hserv
  | keep hserv hon => exact congrArg ServicesState.uiStates hserv
  | exit hserv hon =>
    have hexit := congrArg ServicesState.uiStates hserv
    exact hexit

/-- A property of service `i` that the moves keep: it depends on the record, the requests and the
transition of the service; a request of another service leaves it alone, and it holds when a
request of the service itself has failed or has been accepted. -/
structure Kept (n i : ℕ) (P : UiSys → Prop) : Prop where
  quiet : ∀ {s s' : UiSys}, P s → Quiet s s' → P s'
  called : ∀ {s s' : UiSys} {a : Answer}, P s → Called n s a s' → P s'
  congr : ∀ {s s' : UiSys}, P s → s'.log = s.log → s'.outstanding = s.outstanding →
    s'.client.services.uiStates i = s.client.services.uiStates i → P s'
  refused : ∀ {s : UiSys} (call : ℕ), P s → P (Sys.logs s (.controlRefused call))
  other : ∀ {s : UiSys} {j : ℕ}, i ≠ j → P s → ∀ start env, P (s.requested j start env)
  otherFailed : ∀ {s : UiSys} {j : ℕ}, i ≠ j → P s → ∀ call, P (s.notifyFailed call (Nat.cast j))
  failed : ∀ (s : UiSys) call, P (s.notifyFailed call (Nat.cast i))
  accepted : ∀ (s : UiSys) start env, env.refused = false → P (s.requested i start env)

variable {i : ℕ} {P : UiSys → Prop}

theorem Kept.deliverAll (hk : Kept n i P) (h : Ready n s) (hp : P s)
    (completions : List (ℕ × Answer)) : P (s.deliverAll completions) :=
  h.deliverAll_keeps hk.called hp completions

/-- A request of service `j` keeps a property of service `i`, unless it is the same. -/
theorem Kept.submit (hk : Kept n i P) (h : Ready n s) {j : ℕ} (hj : j < n) (hp : i ≠ j → P s)
    (start : Bool) (env : CallEnv) : P (s.submit (Nat.cast j) start env) := by
  have hs := h.submitted hj start env
  have hreq := h.requested hj start env
  generalize s.submit (Nat.cast j) start env = s' at hs ⊢
  by_cases hij : i = j
  · subst hij
    cases hs with
    | noMemory => exact hk.failed _ _
    | refused => exact hk.failed _ _
    | accepted halloc href =>
      exact hk.deliverAll hreq (hk.accepted s start env href) env.completions
  · have hall := hk.deliverAll hreq (hk.other hij (hp hij) start env) env.completions
    cases hs with
    | noMemory => exact hk.otherFailed hij (hp hij) _
    | refused => exact hk.otherFailed hij (hk.refused _ hall) _
    | accepted => exact hall

theorem Kept.handleButton (hk : Kept n i P) (h : Ready n s) (hn : n ≤ maxMonitoredServices)
    (hp : P s) (key : UInt8) (longPress : Bool) (nowMs : UInt64) (env : CallEnv) :
    P (s.handleButton key longPress nowMs env) := by
  have hs := h.handled hn key longPress nowMs env
  generalize s.handleButton key longPress nowMs env = s' at hs ⊢
  cases hs with
  | other hnot hpc hstill hview hscreen => exact hk.congr hp rfl rfl (congrFun hstill.uiStates i)
  | confirm hconf hj hlt hpc hon hserv =>
    rename_i pc j
    have hpaged : i ≠ j → P (s.paged pc) := fun hij => by
      refine hk.congr hp rfl rfl ?_
      change pc.services.uiStates i = _
      rw [hserv]
      unfold taken ServicesState.confirmed
      dsimp only
      rw [hj, Int.toNat_natCast, Function.update_of_ne hij]
    exact hk.congr (hk.submit (h.paged hpc) hlt hpaged _ env) rfl rfl rfl

theorem Kept.tick (hk : Kept n i P) (h : Ready n s) (hp : P s) {cfg : List CStr}
    (hcfg : cfg.length = n) (nowMs queryNowMs : UInt64) (env : ℕ → CallEnv) :
    P (s.tick cfg nowMs queryNowMs env) := by
  have hticked : P (s.ticked nowMs) :=
    hk.congr hp rfl rfl (congrFun (uiStates_tick h nowMs) i)
  obtain ⟨s₁, changed, hp₁, heq, -⟩ :=
    h.tick_keeps hk.quiet hk.called hcfg nowMs queryNowMs env hticked
  rw [heq]
  exact hk.congr hp₁ rfl rfl rfl

/-! ## Runs -/

theorem Ready.step (h : Ready n s) (hn : n ≤ maxMonitoredServices) {cfg : List CStr}
    (hcfg : cfg.length = n) (e : Event) : Ready n (UiSys.step cfg s e) := by
  cases e with
  | button key longPress nowMs env => exact (h.handleButton hn key longPress nowMs env).render nowMs
  | timer nowMs queryNowMs env => exact (h.tick hcfg nowMs queryNowMs env).render nowMs
  | complete call a => exact h.deliver call a

theorem ready_init (cfg : List CStr) : Ready cfg.length (uiControllerInit cfg true true) where
  count := by
    unfold uiControllerInit updateLocal
    rfl
  dialog := dialogInv_init cfg
  power := rfl
  statusCtx := rfl
  display := rfl
  callbacks r hr := by cases hr

end UiSys

end NanoHat
