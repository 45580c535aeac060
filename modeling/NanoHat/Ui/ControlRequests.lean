import NanoHat.Ui.UiSteps

/-!
# Control requests of the user

A service is controlled when, and only when, the user confirms the dialog: a short K2 while the
newest frame shows the dialog with Yes highlighted makes one call of `control_service_async`, for the
service and in the direction that this frame shows, unless there is no memory for it; no other event
makes a call (`requests`). Every call is answered by at most one call of
`page_services_notify_control_result` (`controls_after`). The links are that a frame shows what the
page state describes (`Shown`), and that control calls are either outstanding or notified
(`Accounted`).
-/

namespace NanoHat.UiSys

open Sys Runs

/-! ## The record -/

/-- The dialog in the newest frame. -/
def lastDialog : List (Obs UiObs) → Option DialogView
  | [] => none
  | .client (.frame drawn) :: _ => drawn.findSome? ServicesFrame.dialog
  | _ :: past => lastDialog past

/-- The call of `control_service_async` that an entry records: its number, service and direction. -/
def controlCall : Obs UiObs → Option (ℕ × ℕ × Bool)
  | .controlCalled call i start => some (call, i, start)
  | _ => none

/-- The calls of `control_service_async`, newest first. -/
def controlCalls (log : List (Obs UiObs)) : List (ℕ × ℕ × Bool) := log.filterMap controlCall

/-- The dialog that an event confirms with Yes, as the newest frame shows it. -/
def confirms (s : UiSys) : Event → Option (DialogView × CallEnv)
  | .button key longPress _ env =>
    (lastDialog s.log).bind fun d =>
      if d.selection = 1 ∧ key = keyK2 ∧ longPress = false then some (d, env) else none
  | _ => none

/-- The control call that an event makes. -/
def requests (s : UiSys) (e : Event) : List (ℕ × ℕ × Bool) :=
  match confirms s e with
  | none => []
  | some (d, env) => if env.alloc then [(s.calls, d.index, d.action = .start)] else []

/-- The control request with number `call` is outstanding. -/
def Awaited (s : UiSys) (call : ℕ) : Prop :=
  ∃ r ∈ s.outstanding, r.call = call ∧ ∃ index start cb, r.ctx = .control index start cb

/-- The calls of `page_services_notify_control_result` about the control call number `call`. -/
def noticesFor (s : UiSys) (call : ℕ) : List Notice :=
  s.client.notices.filter (·.call = some call)

variable {n : ℕ} {s s' : UiSys}

/-! ## Frames -/

/-- The newest frame shows the dialog that the page state describes. -/
def Shown (s : UiSys) : Prop := lastDialog s.log = s.client.services.view s.status

/-- What callbacks and queries leave alone. -/
structure Calm (s s' : UiSys) : Prop where
  dialog : lastDialog s'.log = lastDialog s.log
  view : s'.client.services.view s'.status = s.client.services.view s.status
  calls : controlCalls s'.log = controlCalls s.log
  power : s'.client.powerOn = s.client.powerOn

theorem Calm.refl (s : UiSys) : Calm s s := ⟨rfl, rfl, rfl, rfl⟩

theorem view_congr (st : ServicesState) {status status' : SysStatus}
    (hname : ∀ i, (status'.services i).name = (status.services i).name) :
    st.view status' = st.view status := by
  unfold ServicesState.view
  rw [hname]

theorem view_notify (ui : Ui) (m : Notice) (status : SysStatus) :
    (ui.notify m).services.view status = ui.services.view status := by
  change (ui.services.notifyControlResult m.index m.success).view status = _
  rw [ServicesState.notifyControlResult_eq]
  rfl

theorem Calm.quiet {s₀ : UiSys} (h : Calm s₀ s) (hq : Quiet s s') : Calm s₀ s' := by
  have hlog : lastDialog s'.log = lastDialog s.log ∧ controlCalls s'.log = controlCalls s.log := by
    rcases hq.log with heq | ⟨o, ho, heq⟩
    · rw [heq]
      exact ⟨rfl, rfl⟩
    · rw [heq]
      cases o
      all_goals first | exact ⟨rfl, rfl⟩ | exact ho.elim
  refine ⟨hlog.1.trans h.dialog, ?_, hlog.2.trans h.calls, ?_⟩
  · rw [hq.client, view_congr _ hq.name, h.view]
  · rw [hq.client, h.power]

theorem Calm.called {s₀ : UiSys} {a : Answer} (h : Calm s₀ s) (hc : Called n s a s') :
    Calm s₀ s' := by
  cases hc with
  | nothing => exact h
  | query written hout hstatus hlt =>
    refine ⟨h.dialog, ?_, h.calls, h.power⟩
    rw [← h.view]
    refine view_congr _ fun i => ?_
    rw [hstatus]
    cases written with
    | none => rfl
    | some j => exact s.status.modify_keeps ServiceStatus.name (name_writeAnswer a _) i
  | control hout hlt =>
    refine ⟨h.dialog, ?_, h.calls, h.power⟩
    rw [← h.view]
    refine (view_notify _ _ _).trans (view_congr _ fun i => ?_)
    exact s.status.modify_keeps ServiceStatus.name (name_writeControl _ _ _) i

theorem calm_deliverAll (h : Ready n s) (completions : List (ℕ × Answer)) :
    Calm s (s.deliverAll completions) :=
  h.deliverAll_keeps Calm.called (.refl s) completions

/-- A frame is due, or the newest one still shows the dialog. -/
def Fresh (s : UiSys) : Prop :=
  s.client.needsRender = true ∧ s.client.powerOn = true ∨ Shown s

/-- **What the user sees** is what the page state describes. -/
theorem Fresh.render (h : Ready n s) (hn : n ≤ maxMonitoredServices) (hf : Fresh s)
    (nowMs : UInt64) : Shown (s.render nowMs) := by
  have hr := h.rendered nowMs
  generalize s.render nowMs = s' at hr ⊢
  cases hr with
  | skipped hskip =>
    rcases hf with ⟨hneeds, hpower⟩ | hshown
    · rw [hneeds, hpower] at hskip
      exact absurd hskip (by decide)
    · exact hshown
  | other hneeds hpower hshows hpc hscreen hserv =>
    have hclosed : s.client.services.dialog = .none :=
      PageController.dialog_none_of_not h.dialog fun hon => hshows hon.shows
    unfold Shown
    exact (ServicesState.view_none (by rw [← hclosed, ← hserv]; rfl) _).symm
  | services hneeds hpower hshows hpc hscreen hserv =>
    rename_i pc
    have hview := ServicesState.servicesRender_view h.dialog.ok h.count hn
      s.client.pageCtrl.pageMode nowMs
    have hnew : (s.sent pc [(s.client.services.servicesRender s.status s.client.pageCtrl.pageMode
        nowMs).1]).client.services = s.client.services.sync s.status := hserv
    unfold Shown
    rw [hnew]
    change List.findSome? _ [_] = _
    rw [List.findSome?_singleton]
    exact hview

/-! ## Calls -/

theorem submit_calls (h : Ready n s) {i : ℕ} (hi : i < n) (start : Bool) (env : CallEnv) :
    controlCalls (s.submit (Nat.cast i) start env).log =
        (if env.alloc then [(s.calls, i, start)] else []) ++ controlCalls s.log ∧
      (s.submit (Nat.cast i) start env).client.powerOn = s.client.powerOn := by
  have hs := h.submitted hi start env
  have hall := calm_deliverAll (h.requested hi start env) env.completions
  generalize s.submit (Nat.cast i) start env = s' at hs ⊢
  cases hs with
  | noMemory halloc =>
    rw [halloc]
    exact ⟨rfl, rfl⟩
  | refused halloc href =>
    rw [if_pos halloc]
    exact ⟨hall.calls, hall.power⟩
  | accepted halloc href =>
    rw [if_pos halloc]
    exact ⟨hall.calls, hall.power⟩

/-- The key that confirms the dialog confirms the one in the newest frame. -/
theorem confirms_of (h : Shown s) {key : UInt8} {longPress : Bool} (nowMs : UInt64) (env : CallEnv)
    (hc : s.client.services.Confirms key longPress) :
    let i := s.client.services.selectedIndex.toNat
    confirms s (.button key longPress nowMs env) =
      some (⟨i, (s.status.services i).name,
        if s.client.services.cachedRunning i then .stop else .start, 1⟩, env) := by
  obtain ⟨hdialog, hyes, rfl, rfl⟩ := hc
  unfold confirms
  dsimp only
  rw [h, ServicesState.view, if_pos hdialog, Option.bind_some, hyes]
  rfl

theorem confirms_none (h : Shown s) {key : UInt8} {longPress : Bool} (nowMs : UInt64)
    (env : CallEnv) (hc : ¬s.client.services.Confirms key longPress) :
    confirms s (.button key longPress nowMs env) = none := by
  unfold confirms
  dsimp only
  rw [h, ServicesState.view]
  split
  · rename_i hdialog
    exact if_neg fun hyes => hc ⟨hdialog, hyes⟩
  · rfl

theorem calls_render (h : Ready n s) (nowMs : UInt64) :
    controlCalls (s.render nowMs).log = controlCalls s.log := by
  have hr := h.rendered nowMs
  generalize s.render nowMs = s' at hr ⊢
  cases hr with
  | skipped => rfl
  | other => rfl
  | services => rfl

/-- A button event before its render. -/
theorem calls_handleButton (h : Ready n s) (hn : n ≤ maxMonitoredServices) (hshown : Shown s)
    (key : UInt8) (longPress : Bool) (nowMs : UInt64) (env : CallEnv) :
    controlCalls (s.handleButton key longPress nowMs env).log =
        requests s (.button key longPress nowMs env) ++ controlCalls s.log ∧
      Fresh (s.handleButton key longPress nowMs env) := by
  have hs := h.handled hn key longPress nowMs env
  unfold requests
  generalize s.handleButton key longPress nowMs env = s' at hs ⊢
  cases hs with
  | other hnot hpc hstill hview hscreen =>
    rename_i changed pc
    rw [confirms_none hshown nowMs env hnot]
    refine ⟨rfl, ?_⟩
    rcases hview with ⟨rfl, hon⟩ | hview
    · refine Or.inl ⟨rfl, ?_⟩
      exact decide_eq_true hon
    · exact Or.inr (hshown.trans (hview s.status).symm)
  | confirm hconf hi hlt hpc hon hserv =>
    rename_i pc i
    obtain ⟨hcalls, hpower⟩ := submit_calls (h.paged hpc) hlt (!s.client.services.cachedRunning i) env
    rw [confirms_of hshown nowMs env hconf, hi, Int.toNat_natCast]
    refine ⟨hcalls.trans ?_, Or.inl ⟨rfl, hpower.trans (decide_eq_true hon.on)⟩⟩
    dsimp only
    cases s.client.services.cachedRunning i with
    | true => rfl
    | false => rfl

/-- A tick before its render. -/
theorem calls_tick (h : Ready n s) (hshown : Shown s) {cfg : List CStr} (hcfg : cfg.length = n)
    (nowMs queryNowMs : UInt64) (env : ℕ → CallEnv) :
    controlCalls (s.tick cfg nowMs queryNowMs env).log = controlCalls s.log ∧
      Fresh (s.tick cfg nowMs queryNowMs env) := by
  obtain ⟨s₁, changed, hcalm, heq, hchanged⟩ := h.tick_keeps (P := Calm (s.ticked nowMs))
    Calm.quiet Calm.called hcfg nowMs queryNowMs env (.refl _)
  rw [heq]
  refine ⟨hcalm.calls, ?_⟩
  have hsame : (s.ticked nowMs).client.services.view s.status = s.client.services.view s.status →
      Fresh (s₁.flag changed) := fun hview =>
    Or.inr (hcalm.dialog.trans (hshown.trans (hcalm.view.trans hview).symm))
  have ho := h.dialog.tick_outcome nowMs
  cases hr : s.client.pageCtrl.tick nowMs with
  | mk changed' pc =>
    have hpc : (s.ticked nowMs).client.services = pc.services := by
      rw [ticked, hr]
      rfl
    rw [hr] at ho hchanged
    cases ho with
    | closed hd hserv => exact hsame (by rw [hpc, hserv]; rfl)
    | keep hserv hon => exact hsame (by rw [hpc, hserv]; rfl)
    | exit hserv hon =>
      refine Or.inl ⟨?_, hcalm.power.trans ?_⟩
      · change (changed || _) = true
        rw [hchanged rfl]
        rfl
      · rw [ticked, hr]
        exact decide_eq_true hon

/-- **One event** makes the control calls that it should, and the next frame is right again. -/
theorem calls_step (h : Ready n s) (hn : n ≤ maxMonitoredServices) (hshown : Shown s)
    {cfg : List CStr} (hcfg : cfg.length = n) (e : Event) :
    controlCalls (step cfg s e).log = requests s e ++ controlCalls s.log ∧
      Shown (step cfg s e) := by
  cases e with
  | button key longPress nowMs env =>
    have hready := h.handleButton hn key longPress nowMs env
    obtain ⟨hcalls, hfresh⟩ := calls_handleButton h hn hshown key longPress nowMs env
    exact ⟨(calls_render hready nowMs).trans hcalls, hfresh.render hready hn nowMs⟩
  | timer nowMs queryNowMs env =>
    have hready := h.tick hcfg nowMs queryNowMs env
    obtain ⟨hcalls, hfresh⟩ := calls_tick h hshown hcfg nowMs queryNowMs env
    exact ⟨(calls_render hready nowMs).trans hcalls, hfresh.render hready hn nowMs⟩
  | complete call a =>
    have hc := (Calm.refl s).called (h.called call a)
    exact ⟨hc.calls, hc.dialog.trans (hshown.trans hc.view.symm)⟩

/-! ## Notices -/

/-- The number and the index of an outstanding control request. -/
def awaitedCall (r : HalRequest Ui) : Option (ℕ × ℤ) :=
  match r.ctx with
  | .query .. => none
  | .control index _ _ => some (r.call, index)

/-- The number and the index that a notice is about. -/
def noticedCall (m : Notice) : Option (ℕ × ℤ) := m.call.map fun call => (call, m.index)

/-- The number and the index of a control call. -/
def calledIndex (c : ℕ × ℕ × Bool) : ℕ × ℤ := (c.1, c.2.1)

/-- Every control call is outstanding, notified or just being refused (`busy`). -/
structure Accounted (busy : List (ℕ × ℤ)) (s : UiSys) : Prop where
  parts : ((controlCalls s.log).map calledIndex).Perm
    (s.outstanding.filterMap awaitedCall ++ s.client.notices.filterMap noticedCall ++ busy)
  fresh : ∀ c ∈ controlCalls s.log, c.1 < s.calls
  nodup : ((controlCalls s.log).map Prod.fst).Nodup

variable {busy : List (ℕ × ℤ)}

theorem Accounted.quiet (h : Accounted busy s) (hq : Quiet s s') : Accounted busy s' := by
  have hcalm := (Calm.refl s).quiet hq
  have hout : s'.outstanding.filterMap awaitedCall = s.outstanding.filterMap awaitedCall := by
    rcases hq.outstanding with heq | ⟨service, requestId, i, -, heq⟩
    · rw [heq]
    · rw [heq, List.filterMap_append]
      exact List.append_nil _
  refine ⟨?_, fun c hc => ?_, ?_⟩
  · rw [hcalm.calls, hout, hq.client]
    exact h.parts
  · rw [hcalm.calls] at hc
    exact (h.fresh c hc).trans_le hq.calls
  · rw [hcalm.calls]
    exact h.nodup

theorem Accounted.called {a : Answer} (h : Accounted busy s) (hc : Called n s a s') :
    Accounted busy s' := by
  cases hc with
  | nothing => exact h
  | query written hout hstatus hlt =>
    refine ⟨?_, h.fresh, h.nodup⟩
    have hparts := h.parts
    rw [hout, List.filterMap_append] at hparts
    rw [List.filterMap_append]
    exact hparts
  | control hout hlt =>
    rename_i call i start service l₁ l₂ queries
    refine ⟨?_, h.fresh, h.nodup⟩
    have hparts := h.parts
    rw [hout, List.filterMap_append] at hparts
    refine hparts.trans ?_
    change ((l₁.filterMap awaitedCall ++ (call, (i : ℤ)) :: l₂.filterMap awaitedCall) ++
      s.client.notices.filterMap noticedCall ++ busy).Perm
      ((l₁ ++ l₂).filterMap awaitedCall ++
        (call, (i : ℤ)) :: s.client.notices.filterMap noticedCall ++ busy)
    rw [List.filterMap_append]
    refine List.Perm.append_right _ ?_
    exact (List.perm_middle.append_right _).trans List.perm_middle.symm

theorem Accounted.deliverAll (hready : Ready n s) (h : Accounted busy s)
    (completions : List (ℕ × Answer)) : Accounted busy (s.deliverAll completions) :=
  hready.deliverAll_keeps Accounted.called h completions

/-- What leaves calls, requests and notices alone. -/
theorem Accounted.congr (h : Accounted busy s) (hlog : controlCalls s'.log = controlCalls s.log)
    (hcalls : s'.calls = s.calls) (hout : s'.outstanding = s.outstanding)
    (hnotices : s'.client.notices.filterMap noticedCall =
      s.client.notices.filterMap noticedCall) : Accounted busy s' := by
  refine ⟨?_, fun c hc => ?_, ?_⟩
  · rw [hlog, hout, hnotices]
    exact h.parts
  · rw [hcalls]
    exact h.fresh c (hlog ▸ hc)
  · rw [hlog]
    exact h.nodup

theorem Accounted.requested (h : Accounted [] s) (i : ℕ) (start : Bool) (env : CallEnv) :
    Accounted (if env.refused then [(s.calls, (i : ℤ))] else []) (s.requested i start env) := by
  have hnew : controlCalls (s.requested i start env).log =
      (s.calls, i, start) :: controlCalls s.log := rfl
  refine ⟨?_, fun c hc => ?_, ?_⟩
  · rw [hnew]
    refine (h.parts.cons _).trans ?_
    rw [List.append_nil]
    change ((s.calls, (i : ℤ)) :: (s.outstanding.filterMap awaitedCall ++
        s.client.notices.filterMap noticedCall)).Perm
      ((if env.refused then s.outstanding else s.outstanding ++ [_]).filterMap awaitedCall ++
        s.client.notices.filterMap noticedCall ++ _)
    split
    · exact (List.perm_append_singleton _ _).symm
    · rw [List.append_nil, List.filterMap_append, List.append_assoc]
      exact List.perm_middle.symm
  · rw [hnew] at hc
    change c.1 < s.calls + 1
    rcases List.mem_cons.1 hc with rfl | hc
    · exact Nat.lt_succ_self _
    · exact (h.fresh c hc).trans (Nat.lt_succ_self _)
  · rw [hnew, List.map_cons]
    refine List.nodup_cons.2 ⟨fun hmem => ?_, h.nodup⟩
    obtain ⟨c, hc, heq⟩ := List.mem_map.1 hmem
    have hlt := h.fresh c hc
    rw [heq] at hlt
    exact lt_irrefl _ hlt

theorem Accounted.submit (hready : Ready n s) (h : Accounted [] s) {i : ℕ} (hi : i < n)
    (start : Bool) (env : CallEnv) : Accounted [] (s.submit (Nat.cast i) start env) := by
  have hs := hready.submitted hi start env
  have hall := (h.requested i start env).deliverAll (hready.requested hi start env) env.completions
  generalize s.submit (Nat.cast i) start env = s' at hs ⊢
  cases hs with
  | noMemory => exact h.congr rfl rfl rfl rfl
  | refused halloc href =>
    rw [href] at hall
    refine ⟨?_, hall.fresh, hall.nodup⟩
    refine hall.parts.trans ?_
    change List.Perm _ (_ ++ (s.calls, (i : ℤ)) :: _ ++ [])
    rw [List.append_nil]
    exact (List.perm_append_singleton _ _).trans List.perm_middle.symm
  | accepted halloc href =>
    rw [href] at hall
    exact hall

theorem Accounted.render (hready : Ready n s) (h : Accounted [] s) (nowMs : UInt64) :
    Accounted [] (s.render nowMs) := by
  have hr := hready.rendered nowMs
  generalize s.render nowMs = s' at hr ⊢
  cases hr with
  | skipped => exact h.congr rfl rfl rfl rfl
  | other => exact h.congr rfl rfl rfl rfl
  | services => exact h.congr rfl rfl rfl rfl

theorem Accounted.handleButton (hready : Ready n s) (hn : n ≤ maxMonitoredServices)
    (h : Accounted [] s) (key : UInt8) (longPress : Bool) (nowMs : UInt64) (env : CallEnv) :
    Accounted [] (s.handleButton key longPress nowMs env) := by
  have hs := hready.handled hn key longPress nowMs env
  generalize s.handleButton key longPress nowMs env = s' at hs ⊢
  cases hs with
  | other => exact h.congr rfl rfl rfl rfl
  | confirm hconf hi hlt hpc hon hserv =>
    rename_i pc i
    have hpaged : Accounted [] (s.paged pc) := h.congr rfl rfl rfl rfl
    exact (hpaged.submit (hready.paged hpc) hlt _ env).congr rfl rfl rfl rfl

theorem Accounted.tick (hready : Ready n s) (h : Accounted [] s) {cfg : List CStr}
    (hcfg : cfg.length = n) (nowMs queryNowMs : UInt64) (env : ℕ → CallEnv) :
    Accounted [] (s.tick cfg nowMs queryNowMs env) := by
  have hticked : Accounted [] (s.ticked nowMs) := h.congr rfl rfl rfl rfl
  obtain ⟨s₁, changed, hall, heq, -⟩ :=
    hready.tick_keeps Accounted.quiet Accounted.called hcfg nowMs queryNowMs env hticked
  rw [heq]
  exact hall.congr rfl rfl rfl rfl

theorem Accounted.step (hready : Ready n s) (hn : n ≤ maxMonitoredServices) (h : Accounted [] s)
    {cfg : List CStr} (hcfg : cfg.length = n) (e : Event) : Accounted [] (step cfg s e) := by
  cases e with
  | button key longPress nowMs env =>
    exact (h.handleButton hready hn key longPress nowMs env).render
      (hready.handleButton hn key longPress nowMs env) nowMs
  | timer nowMs queryNowMs env =>
    exact (h.tick hready hcfg nowMs queryNowMs env).render (hready.tick hcfg nowMs queryNowMs env)
      nowMs
  | complete call a => exact h.called (hready.called call a)

/-- Of notices with different numbers, one at most has a given number. -/
theorem notices_eq {notices : List Notice} (hnd : (notices.filterMap Notice.call).Nodup)
    {m : Notice} (hm : m ∈ notices) {call : ℕ} (hcall : m.call = some call) :
    notices.filter (·.call = some call) = [m] := by
  induction notices with
  | nil => cases hm
  | cons m' notices ih =>
    have hmem : ∀ k ∈ notices, k.call = some call → call ∈ notices.filterMap Notice.call :=
      fun k hk hkc => List.mem_filterMap.2 ⟨k, hk, hkc⟩
    rcases List.mem_cons.1 hm with rfl | hm
    · rw [List.filterMap_cons_some hcall] at hnd
      rw [List.filter_cons_of_pos (by simpa using hcall)]
      congr 1
      refine List.filter_eq_nil_iff.2 fun k hk hkc => ?_
      exact (List.nodup_cons.1 hnd).1 (hmem k hk (by simpa using hkc))
    · cases hc' : m'.call with
      | none =>
        rw [List.filterMap_cons_none hc'] at hnd
        rw [List.filter_cons_of_neg (by simp [hc']), ih hnd hm]
      | some call' =>
        rw [List.filterMap_cons_some hc'] at hnd
        obtain ⟨hnew, hnd⟩ := List.nodup_cons.1 hnd
        have hne : call' ≠ call := fun heq => hnew (heq ▸ hmem m hm hcall)
        rw [List.filter_cons_of_neg (by simpa [hc'] using hne), ih hnd hm]

theorem awaited_iff (call : ℕ) :
    Awaited s call ↔ call ∈ (s.outstanding.filterMap awaitedCall).map Prod.fst := by
  constructor
  · rintro ⟨r, hr, rfl, index, start, cb, hctx⟩
    refine List.mem_map.2 ⟨(r.call, index), List.mem_filterMap.2 ⟨r, hr, ?_⟩, rfl⟩
    unfold awaitedCall
    rw [hctx]
  · intro hmem
    obtain ⟨c, hc, rfl⟩ := List.mem_map.1 hmem
    obtain ⟨⟨call, service, ctx⟩, hr, heq⟩ := List.mem_filterMap.1 hc
    cases ctx with
    | query requestId k => cases heq
    | control index start cb =>
      obtain rfl := Option.some.inj heq
      exact ⟨_, hr, rfl, index, start, cb, rfl⟩

theorem map_noticedCall (notices : List Notice) :
    (notices.filterMap noticedCall).map Prod.fst = notices.filterMap Notice.call := by
  rw [List.map_filterMap]
  congr 1
  funext m
  unfold noticedCall
  cases m.call <;> rfl

/-- What becomes of a control call: it is outstanding, or there is one notice about it. -/
theorem Accounted.fate (h : Accounted [] s) {call i : ℕ} {start : Bool}
    (hc : (call, i, start) ∈ controlCalls s.log) :
    (Awaited s call ∧ s.noticesFor call = []) ∨
      (¬Awaited s call ∧ ∃ success, s.noticesFor call = [⟨some call, i, success⟩]) := by
  have hparts := h.parts
  rw [List.append_nil] at hparts
  have hids : ((s.outstanding.filterMap awaitedCall).map Prod.fst ++
      s.client.notices.filterMap Notice.call).Nodup := by
    have hnd := (hparts.map Prod.fst).nodup_iff.1 (by rw [List.map_map]; exact h.nodup)
    rw [List.map_append, map_noticedCall] at hnd
    exact hnd
  obtain ⟨-, hnd, hdisjoint⟩ := List.nodup_append.1 hids
  have hmem : (call, (i : ℤ)) ∈ s.outstanding.filterMap awaitedCall ++
      s.client.notices.filterMap noticedCall :=
    hparts.subset (List.mem_map.2 ⟨_, hc, rfl⟩)
  rcases List.mem_append.1 hmem with hout | hnote
  · have hawaited := List.mem_map_of_mem (f := Prod.fst) hout
    refine Or.inl ⟨(awaited_iff call).2 hawaited, ?_⟩
    refine List.filter_eq_nil_iff.2 fun m hm hmc => ?_
    have hcall : m.call = some call := by simpa using hmc
    exact hdisjoint _ hawaited _ (List.mem_filterMap.2 ⟨m, hm, hcall⟩) rfl
  · obtain ⟨⟨callOf, index, success⟩, hm, heq⟩ := List.mem_filterMap.1 hnote
    obtain ⟨call', hcall, hpair⟩ := Option.map_eq_some_iff.1 heq
    obtain ⟨rfl, hindex⟩ := Prod.mk.inj hpair
    dsimp only at hcall hindex
    subst hcall hindex
    have heq' := notices_eq hnd hm rfl
    refine Or.inr ⟨fun hawaited => ?_, success, heq'⟩
    exact hdisjoint _ ((awaited_iff _).1 hawaited) _ (List.mem_filterMap.2 ⟨_, hm, rfl⟩) rfl

/-! ## Runs -/

/-- What the user and the services page may rely on, for the configuration `cfg`. -/
structure Controlled (cfg : List CStr) (s : UiSys) : Prop where
  /-- Every event makes the control call that it confirms, and no other. -/
  calls : ∀ e, controlCalls (step cfg s e).log = requests s e ++ controlCalls s.log
  /-- The dialog names the service that is controlled. -/
  name : ∀ d ∈ lastDialog s.log, (s.status.services d.index).name = d.serviceName
  /-- A control call is outstanding, or the services page has been notified of it once. -/
  notices : ∀ call i start, (call, i, start) ∈ controlCalls s.log →
    (Awaited s call ∧ s.noticesFor call = []) ∨
      (¬Awaited s call ∧ ∃ success, s.noticesFor call = [⟨some call, i, success⟩])

theorem shown_accounted_after (servicesStr : CStr) (es : List Event) :
    let cfg := serviceConfigInit servicesStr
    Ready cfg.length (after cfg es) ∧ Shown (after cfg es) ∧ Accounted [] (after cfg es) := by
  intro cfg
  have hn : cfg.length ≤ maxMonitoredServices :=
    (ServiceConfig.valid_serviceConfigInit servicesStr).length
  refine run_invariant (P := fun s => Ready cfg.length s ∧ Shown s ∧ Accounted [] s) ?_ ?_ es
  · rintro s e ⟨hready, hshown, hall⟩
    exact ⟨hready.step hn rfl e, (calls_step hready hn hshown rfl e).2, hall.step hready hn rfl e⟩
  · exact ⟨ready_init cfg, rfl, List.Perm.refl _, (fun _ hc => nomatch hc), List.nodup_nil⟩

/-- **Control requests.** After every run, for every value of `MONITORED_SERVICES`, every event
makes exactly the control call that it confirms, and every call is notified of once. -/
theorem controlled_after (servicesStr : CStr) (es : List Event) :
    Controlled (serviceConfigInit servicesStr) (after (serviceConfigInit servicesStr) es) := by
  obtain ⟨hready, hshown, hall⟩ := shown_accounted_after servicesStr es
  have hn := (ServiceConfig.valid_serviceConfigInit servicesStr).length
  refine ⟨fun e => (calls_step hready hn hshown rfl e).1, fun d hd => ?_, fun call i start hc =>
    hall.fate hc⟩
  rw [hshown, ServicesState.view] at hd
  split at hd
  · obtain rfl := Option.mem_some.1 hd
    rfl
  · cases hd

/-- The keys that open the dialog of the first service, with Yes highlighted. -/
def openDialog : List Event :=
  [.button keyK3 false 1000 {}, .timer 1300 1300 fun _ => {},
    .button keyK3 false 2000 {}, .timer 2300 2300 fun _ => {},
    .button keyK2 true 3000 {}, .timer 3300 3300 fun _ => {},
    .button keyK2 false 4000 {}, .button keyK1 false 5000 {}]

/-- Without memory for its context a confirmed request makes no control call. -/
theorem confirmed_noMemory :
    let cfg := serviceConfigInit ['c', 'r', 'o', 'n']
    let s := after cfg openDialog
    let e := Event.button keyK2 false 6000 { alloc := false }
    (confirms s e).isSome ∧ controlCalls (step cfg s e).log = [] := by
  decide +kernel

end NanoHat.UiSys
