import NanoHat.Ui.UiSteps

/-!
# Reachable states of the UI

What holds of the page controller and the pages in every state of a run, also when the status
context or the display is missing: the invariant of the controller, the page list, and that the
dialog is open only while the services page is entered and nothing moves (`dialogInv_called`,
`dialogInv_reached`).
-/

namespace NanoHat.UiSys

open Sys

/-- What holds of the UI in every state, for `n` services. -/
structure Held (n : ℕ) (s : UiSys) : Prop where
  dialog : s.client.pageCtrl.DialogInv n
  callbacks : ∀ r ∈ s.outstanding, ∀ index start cb, r.ctx = .control index start cb →
    cb = some (Ui.uiServicesControlCb r.call)

variable {n : ℕ} {s s' : UiSys}

/-! ## Moves -/

theorem Held.congr (h : Held n s) (hpc : s'.client.pageCtrl = s.client.pageCtrl)
    (hout : ∀ r ∈ s'.outstanding, r ∈ s.outstanding) : Held n s' where
  dialog := by
    rw [hpc]
    exact h.dialog
  callbacks r hr := h.callbacks r (hout r hr)

theorem Held.notifyFailed (h : Held n s) (call : Option ℕ) (index : ℤ) :
    Held n (s.notifyFailed call index) :=
  ⟨dialogInv_notify h.dialog ⟨call, index, false⟩, h.callbacks⟩

theorem Held.quiet (h : Held n s) (hq : Quiet s s') : Held n s' where
  dialog := by
    rw [hq.client]
    exact h.dialog
  callbacks r hr index start cb hctx :=
    h.callbacks r (hq.mem_outstanding hr hctx) index start cb hctx

theorem Held.deliver (h : Held n s) (call : ℕ) (a : Answer) : Held n (s.deliver call a) := by
  have hd := deliver_cases s call a
  generalize s.deliver call a = s' at hd ⊢
  have hsub : ∀ {r : HalRequest Ui} {l₁ l₂}, s.outstanding = l₁ ++ r :: l₂ →
      ∀ r' ∈ l₁ ++ l₂, r' ∈ s.outstanding := by
    intro r l₁ l₂ hout r' hr'
    rw [hout]
    exact ((List.Sublist.refl _).append (List.sublist_cons_self _ _)).subset hr'
  cases hd with
  | nothing => exact h
  | stale hout => exact h.congr rfl (hsub hout)
  | answer hout hi => exact h.congr rfl (hsub hout)
  | control hout =>
    rename_i call index start cb service l₁ l₂
    have hcb := h.callbacks ⟨call, service, .control index start cb⟩
      (by rw [hout]; exact List.mem_append_right _ List.mem_cons_self) index start cb rfl
    dsimp only at hcb
    subst hcb
    unfold serviceControlCb
    dsimp only
    split
    · exact ⟨dialogInv_notify h.dialog ⟨some call, index, a.success⟩, fun r hr =>
        h.callbacks r (hsub hout r hr)⟩
    · exact ⟨dialogInv_notify h.dialog ⟨some call, index, a.success⟩, fun r hr =>
        h.callbacks r (hsub hout r hr)⟩

theorem Held.deliverAll (h : Held n s) (completions : List (ℕ × Answer)) :
    Held n (s.deliverAll completions) :=
  deliverAll_moves (P := Held n) (fun _ call a h => h.deliver call a) h completions

theorem Held.requested (h : Held n s) (index : ℤ) (start : Bool) (env : CallEnv) :
    Held n (s.controlAsked index start (some (Ui.uiServicesControlCb s.calls)) env) where
  dialog := h.dialog
  callbacks r hr := by
    rcases mem_controlAsked hr with hr | rfl
    · exact h.callbacks r hr
    · intro index start cb hctx
      injection hctx with hindex hstart hcb
      exact hcb.symm

theorem Held.submit (h : Held n s) (index : ℤ) (start : Bool) (env : CallEnv) :
    Held n (s.submit index start env) := by
  have hall := (h.requested index start env).deliverAll env.completions
  unfold UiSys.submit
  split
  · exact h.notifyFailed none index
  dsimp only
  rcases controlService_cases s index start (some (Ui.uiServicesControlCb s.calls)) env with
    ⟨-, heq⟩ | ⟨-, -, -, -, heq⟩ | ⟨-, -, -, -, heq⟩
  · rw [heq]
    exact h.notifyFailed _ index
  · rw [heq]
    exact (hall.congr rfl fun _ => id : Held n (Sys.logs _ _)).notifyFailed _ index
  · rw [heq]
    exact hall

/-! ## Steps -/

/-- A key press, and then the intent of a confirmed dialog is taken. -/
theorem dialogInv_take (ui : Ui) {pc : PageController PagesState} (h : pc.DialogInv n)
    (hn : n ≤ maxMonitoredServices) {key : UInt8} {longPress : Bool} {nowMs : UInt64}
    (hui : ui.pageCtrl = (pc.handleKey key longPress nowMs).2) :
    (ui.takeControlRequest nowMs).2.pageCtrl.DialogInv n := by
  have hinv := h.inv.handleKey key longPress nowMs
  have hpages := (PageController.pages_handleKey _ key longPress nowMs).trans h.pages
  have ho := h.handleKey_outcome key longPress nowMs
  rw [← hui] at hinv hpages ho
  rcases ho.cases h.ok hinv hpages with ⟨-, hpc, -⟩ | ⟨hconf, -, hserv, hon⟩
  · rw [takeControlRequest_idle ui hpc.ok.idle nowMs]
    exact hpc
  · have hok := h.ok
    have hlt := hok.selected_lt (hok.nonempty hconf.1)
    rw [takeControlRequest_confirmed ui hserv hok.selected_nonneg (by omega) nowMs]
    exact dialogInv_taken ui hinv hpages hon hok nowMs

theorem Held.handleButton (h : Held n s) (hn : n ≤ maxMonitoredServices) (key : UInt8)
    (longPress : Bool) (nowMs : UInt64) (env : CallEnv) :
    Held n (s.handleButton key longPress nowMs env) := by
  have htake := dialogInv_take { s.client with
      pageCtrl := (s.client.pageCtrl.handleKey key longPress nowMs).2
      powerOn := (s.client.pageCtrl.handleKey key longPress nowMs).2.isScreenOn } h.dialog hn rfl
  unfold UiSys.handleButton
  generalize s.client.pageCtrl.handleKey key longPress nowMs = r at htake ⊢
  obtain ⟨changed, pc⟩ := r
  dsimp only at htake ⊢
  generalize Ui.takeControlRequest _ nowMs = t at htake ⊢
  obtain ⟨request, ui⟩ := t
  have hs : Held n ({ s with client := ui } : UiSys) := ⟨htake, h.callbacks⟩
  have hflag : ∀ {s' : UiSys}, Held n s' →
      Held n (if changed then { s' with client := { s'.client with needsRender := true } } else s') := by
    intro s' h'
    split
    · exact ⟨h'.dialog, h'.callbacks⟩
    · exact h'
  cases request with
  | none => exact hflag hs
  | some request => exact hflag (hs.submit request.1 request.2 env)

theorem Held.updateLocal (h : Held n s) (cfg : List CStr) : Held n (s.updateLocal cfg) := by
  have h : Held n s.sampled := h.congr rfl fun _ => id
  unfold Sys.updateLocal
  generalize s.sampled = s at h ⊢
  dsimp only
  split
  · exact h.congr rfl fun _ => id
  · exact h

theorem Held.tick (h : Held n s) (cfg : List CStr) (nowMs queryNowMs : UInt64)
    (env : ℕ → CallEnv) : Held n (s.tick cfg nowMs queryNowMs env) := by
  have hticked : Held n (s.ticked nowMs) := ⟨h.dialog.tick nowMs, h.callbacks⟩
  have hlocal := hticked.updateLocal cfg
  rw [tick_eq]
  split
  · split
    · have hround := queryServices_moves (P := Held n) (fun _ _ hq h => h.quiet hq)
        (fun _ call a h => h.deliver call a) hlocal queryNowMs env
      exact hround.congr rfl fun _ => id
    · exact hlocal.congr rfl fun _ => id
  · exact hticked.congr rfl fun _ => id

theorem dialogInv_render {pc : PageController PagesState} (h : pc.DialogInv n)
    (status : SysStatus) (nowMs : UInt64) : (pc.render status nowMs).DialogInv n := by
  rcases h.render_eq status nowMs with ⟨-, heq⟩ | ⟨-, heq⟩
  · rw [heq]
    exact h.drawServices status nowMs
  · rw [heq]
    exact h

theorem Held.render (h : Held n s) (nowMs : UInt64) : Held n (s.render nowMs) := by
  have hui : (s.client.render s.status nowMs).2.pageCtrl.DialogInv n := by
    unfold Ui.render
    split
    · exact h.dialog
    dsimp only
    split
    · exact h.dialog
    split
    · exact h.dialog
    · exact dialogInv_render (dialogInv_clear { s.client with needsRender := false } h.dialog)
        s.status nowMs
  unfold UiSys.render
  generalize s.client.render s.status nowMs = r at hui ⊢
  obtain ⟨frame, ui⟩ := r
  cases frame with
  | none => exact ⟨hui, h.callbacks⟩
  | some drawn => exact ⟨hui, h.callbacks⟩

/-! ## Runs -/

/-- A call of an entry point of `ui_controller.c`, or a completion. -/
inductive Call
  | handleButton (key : UInt8) (longPress : Bool) (nowMs : UInt64) (env : CallEnv)
  | tick (nowMs queryNowMs : UInt64) (env : ℕ → CallEnv)
  | render (nowMs : UInt64)
  | complete (call : ℕ) (a : Answer)

/-- The state after a call. -/
def call (cfg : List CStr) (s : UiSys) : Call → UiSys
  | .handleButton key longPress nowMs env => s.handleButton key longPress nowMs env
  | .tick nowMs queryNowMs env => s.tick cfg nowMs queryNowMs env
  | .render nowMs => s.render nowMs
  | .complete call a => s.deliver call a

/-- The calls that an event consists of. -/
def Event.calls : Event → List Call
  | .button key longPress nowMs env => [.handleButton key longPress nowMs env, .render nowMs]
  | .timer nowMs queryNowMs env => [.tick nowMs queryNowMs env, .render nowMs]
  | .complete call a => [.complete call a]

theorem run_calls (cfg : List CStr) (s : UiSys) (e : Event) :
    Runs.run (call cfg) s e.calls = step cfg s e := by
  cases e with
  | button key longPress nowMs env =>
    simp only [Event.calls, Runs.run_cons, Runs.run_nil, call, step]
  | timer nowMs queryNowMs env =>
    simp only [Event.calls, Runs.run_cons, Runs.run_nil, call, step]
  | complete i a => simp only [Event.calls, Runs.run_cons, Runs.run_nil, call, step]

theorem Held.call (h : Held n s) (hn : n ≤ maxMonitoredServices) (cfg : List CStr) (c : Call) :
    Held n (call cfg s c) := by
  cases c with
  | handleButton key longPress nowMs env => exact h.handleButton hn key longPress nowMs env
  | tick nowMs queryNowMs env => exact h.tick cfg nowMs queryNowMs env
  | render nowMs => exact h.render nowMs
  | complete call a => exact h.deliver call a

theorem held_init (cfg : List CStr) (statusCtx displayReady : Bool) :
    Held cfg.length (uiControllerInit cfg statusCtx displayReady) := by
  have hstart : Held cfg.length ({ client :=
      { pageCtrl := (PageController.init (pagesGetList cfg.length) ⟨false, {}⟩).setIdleTimeout 30000
        statusCtx := statusCtx
        displayReady := displayReady } } : UiSys) :=
    ⟨dialogInv_init cfg, nofun⟩
  unfold uiControllerInit
  dsimp only
  split
  · exact hstart.updateLocal cfg
  · exact hstart

/-- The state after calls in any order, whether or not the status context and the display are
there. -/
abbrev called (cfg : List CStr) (statusCtx displayReady : Bool) (calls : List Call) : UiSys :=
  Runs.run (call cfg) (uiControllerInit cfg statusCtx displayReady) calls

/-- The state after the events `es` of `main.c`. -/
abbrev reached (cfg : List CStr) (statusCtx displayReady : Bool) (es : List Event) : UiSys :=
  Runs.run (step cfg) (uiControllerInit cfg statusCtx displayReady) es

theorem reached_eq_called (cfg : List CStr) (statusCtx displayReady : Bool) (es : List Event) :
    reached cfg statusCtx displayReady es =
      called cfg statusCtx displayReady (es.flatMap Event.calls) := by
  unfold reached called
  generalize uiControllerInit cfg statusCtx displayReady = s
  induction es generalizing s with
  | nil => rfl
  | cons e es ih => rw [List.flatMap_cons, Runs.run_append, run_calls, Runs.run_cons, ih]

/-- **After all calls**, in any order, the controller and the pages satisfy their invariant. -/
theorem dialogInv_called (servicesStr : CStr) (statusCtx displayReady : Bool)
    (calls : List Call) :
    let cfg := serviceConfigInit servicesStr
    (called cfg statusCtx displayReady calls).client.pageCtrl.DialogInv cfg.length := by
  intro cfg
  have hn := (ServiceConfig.valid_serviceConfigInit servicesStr).length
  exact (Runs.run_invariant (P := Held cfg.length) (fun _ c h => h.call hn _ c)
    (held_init _ statusCtx displayReady) calls).dialog

/-- They do so in every state of every run. -/
theorem dialogInv_reached (servicesStr : CStr) (statusCtx displayReady : Bool) (es : List Event) :
    let cfg := serviceConfigInit servicesStr
    (reached cfg statusCtx displayReady es).client.pageCtrl.DialogInv cfg.length := by
  intro cfg
  rw [reached_eq_called]
  exact dialogInv_called servicesStr statusCtx displayReady _

end NanoHat.UiSys
