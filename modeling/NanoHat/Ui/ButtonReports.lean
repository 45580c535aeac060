import NanoHat.Ui.Reachable

/-!
# What a button event reports

`ui_controller_handle_button` returns whether a frame is due. A key press that returns false has
changed nothing that a frame shows, unless no handler takes it and it ends an animation that is over
and that no tick has ended yet (`reported_iff`).
-/

namespace NanoHat

/-! ## Handlers -/

/-- A key press that the handlers act on: K1, K2 and K3 short, and K2 long. -/
def Bound (key : UInt8) (longPress : Bool) : Prop :=
  if longPress then key = keyK2 else key = keyK1 ∨ key = keyK2 ∨ key = keyK3

instance (key : UInt8) (longPress : Bool) : Decidable (Bound key longPress) :=
  inferInstanceAs (Decidable (if longPress then key = keyK2 else _))

theorem bound_long (key : UInt8) : Bound key true ↔ key = keyK2 := Iff.rfl

theorem bound_short (key : UInt8) :
    Bound key false ↔ key = keyK1 ∨ key = keyK2 ∨ key = keyK3 := Iff.rfl

/-- In enter mode the services page acts on the short keys, if there are services. -/
theorem servicesOnKey_fst (n : ℕ) (st : ServicesState) (key : UInt8) (longPress : Bool) :
    (st.servicesOnKey n key longPress .enter).1 = true ↔
      n ≠ 0 ∧ longPress = false ∧ Bound key false := by
  unfold ServicesState.servicesOnKey
  rw [if_neg fun h => h rfl, bound_short]
  by_cases hn : n = 0
  · rw [if_pos (by exact_mod_cast hn)]
    exact iff_of_false Bool.false_ne_true fun h => h.1 hn
  rw [if_neg (by exact_mod_cast hn)]
  cases longPress with
  | true =>
    refine iff_of_false ?_ fun h => Bool.noConfusion h.2.1
    split
    · unfold ServicesState.dialogOnKey
      rw [if_neg (by simp), if_neg (by simp)]
      exact Bool.false_ne_true
    · exact Bool.false_ne_true
  | false =>
    split
    · unfold ServicesState.dialogOnKey
      split
      · rename_i hkey
        exact iff_of_true rfl ⟨hn, rfl, hkey.1.imp_right Or.inr⟩
      rename_i hside
      split
      · rename_i hkey
        rw [apply_ite Prod.fst, ite_self]
        exact iff_of_true rfl ⟨hn, rfl, Or.inr (Or.inl hkey.1)⟩
      · rename_i hkey
        refine iff_of_false Bool.false_ne_true fun h => ?_
        rcases h.2.2 with h1 | h2 | h3
        · exact hside ⟨Or.inl h1, rfl⟩
        · exact hkey ⟨h2, rfl⟩
        · exact hside ⟨Or.inr h3, rfl⟩
    · unfold ServicesState.listOnKey
      split_ifs <;> simp_all

/-- In enter mode the settings page acts on the short keys. -/
theorem settingsOnKey_fst (g : PagesGlobals) (key : UInt8) (longPress : Bool) :
    (settingsOnKey key longPress .enter g).1 = true ↔ longPress = false ∧ Bound key false := by
  unfold settingsOnKey
  rw [bound_short]
  split_ifs <;> simp_all

namespace PageController

variable {n : ℕ} {pc pc' : PageController PagesState}

/-- No handler takes the key press: it is none of the bound ones, or the services page is entered
and has no services. -/
def Unhandled (n : ℕ) (pc : PageController PagesState) (key : UInt8) (longPress : Bool) : Prop :=
  ¬Bound key longPress ∨
    pc.pageMode = .enter ∧ pc.currentPage = servicesPage ∧ n = 0 ∧ longPress = false

theorem pageOnKey_view (h : DialogInv n pc) (hmode : pc.pageMode = .view) (key : UInt8)
    (longPress : Bool) : (pc.pageOnKey key longPress).1 = false := by
  unfold pageOnKey
  rw [hmode]
  by_cases h3 : pc.currentPage = servicesPage
  · rw [getCurrentPage_services h.pages h3]
    rfl
  by_cases h4 : pc.currentPage = settingsPage
  · rw [getCurrentPage_settings h.pages h4]
    rfl
  cases hcur : pc.getCurrentPage with
  | none => rfl
  | some page =>
    rw [getCurrentPage_plain h.pages h3 h4 page hcur]
    rfl

theorem pageOnKey_enter (h : DialogInv n pc) (hmode : pc.pageMode = .enter) (key : UInt8)
    (longPress : Bool) : (pc.pageOnKey key longPress).1 = true ↔
      longPress = false ∧ Bound key false ∧ ¬(pc.currentPage = servicesPage ∧ n = 0) := by
  unfold pageOnKey
  rw [hmode]
  rcases h.enter hmode with h3 | h4
  · rw [getCurrentPage_services h.pages h3, h3]
    refine (servicesOnKey_fst n pc.services key longPress).trans ?_
    tauto
  · rw [getCurrentPage_settings h.pages h4, h4]
    refine (settingsOnKey_fst pc.globals key longPress).trans ?_
    have hne : settingsPage ≠ servicesPage := by decide
    tauto

/-- In view mode trying to enter a page is always reported. -/
theorem tryEnterMode_fst (h : DialogInv n pc) (nowMs : UInt64) :
    (pc.tryEnterMode nowMs).1 = true := by
  have hpage : pc.getCurrentPage ≠ none := by
    obtain ⟨h0, hlt⟩ := h.inv.range
    obtain ⟨k, hk⟩ := Int.eq_ofNat_of_zero_le h0
    rw [pageCount_of_pages h.pages, hk] at hlt
    unfold getCurrentPage
    rw [pageCount_of_pages h.pages, h.pages, hk, if_neg (by omega)]
    obtain rfl | rfl | rfl | rfl | rfl : k = 0 ∨ k = 1 ∨ k = 2 ∨ k = 3 ∨ k = 4 := by omega
    all_goals exact Option.some_ne_none _
  unfold tryEnterMode
  split
  · rfl
  split
  · rename_i hnone
    exact absurd hnone hpage
  split
  · rfl
  · dsimp only
    split <;> rfl

/-- A key press in view mode. -/
theorem handleViewKey_fst (h : DialogInv n pc) (hmode : pc.pageMode = .view) (key : UInt8)
    (longPress : Bool) (nowMs : UInt64) :
    (pc.handleViewKey key longPress nowMs).1 = true ↔ Bound key longPress := by
  have hpage := pageOnKey_view h hmode key longPress
  unfold handleViewKey
  cases longPress with
  | true =>
    rw [if_neg fun hc => Bool.noConfusion hc.2, if_neg fun hc => Bool.noConfusion hc.2, bound_long]
    by_cases hkey : key = keyK2
    · rw [if_pos hkey, if_pos rfl]
      exact iff_of_true (tryEnterMode_fst h nowMs) hkey
    · rw [if_neg hkey, hpage]
      exact iff_of_false Bool.false_ne_true hkey
  | false =>
    rw [bound_short]
    by_cases h1 : key = keyK1
    · rw [if_pos ⟨h1, rfl⟩]
      exact iff_of_true rfl (Or.inl h1)
    rw [if_neg fun hc => h1 hc.1]
    by_cases h3 : key = keyK3
    · rw [if_pos ⟨h3, rfl⟩]
      exact iff_of_true rfl (Or.inr (Or.inr h3))
    rw [if_neg fun hc => h3 hc.1]
    by_cases h2 : key = keyK2
    · rw [if_pos h2, if_neg Bool.false_ne_true]
      exact iff_of_true rfl (Or.inr (Or.inl h2))
    · rw [if_neg h2, hpage]
      exact iff_of_false Bool.false_ne_true fun hc => hc.elim h1 fun hc => hc.elim h2 h3

/-- A key press in enter mode. -/
theorem handleEnterKey_fst (h : DialogInv n pc) (hmode : pc.pageMode = .enter) (key : UInt8)
    (longPress : Bool) (nowMs : UInt64) :
    (if key = keyK2 ∧ longPress then pc.tryEnterMode nowMs
      else pc.pageOnKey key longPress).1 = true ↔
      Bound key longPress ∧ ¬(pc.currentPage = servicesPage ∧ n = 0 ∧ longPress = false) := by
  have hpage := pageOnKey_enter h hmode key longPress
  cases longPress with
  | true =>
    rw [bound_long]
    by_cases hkey : key = keyK2
    · rw [if_pos ⟨hkey, rfl⟩]
      exact iff_of_true (tryEnterMode_fst h nowMs) ⟨hkey, fun hc => Bool.noConfusion hc.2.2⟩
    · rw [if_neg fun hc => hkey hc.1, hpage]
      exact iff_of_false (fun hc => Bool.noConfusion hc.1) fun hc => hkey hc.1
  | false =>
    rw [if_neg fun hc => Bool.noConfusion hc.2, hpage]
    tauto

/-- What a frame shows of the controller. -/
structure SameFrame (pc pc' : PageController PagesState) : Prop where
  screen : pc'.screenState = pc.screenState
  page : pc'.currentPage = pc.currentPage
  mode : pc'.pageMode = pc.pageMode
  anim : pc'.anim.type = pc.anim.type

/-- A key press that no handler takes ends an animation that is over. -/
def EndsUnheard (n : ℕ) (pc : PageController PagesState) (key : UInt8) (longPress : Bool)
    (nowMs : UInt64) : Prop :=
  pc.screenState = .on ∧ pc.anim.type ≠ .none ∧ pc.anim.animIsComplete nowMs = true ∧
    Unhandled n pc key longPress

theorem SameFrame.pageOnKey (pc : PageController PagesState) (key : UInt8) (longPress : Bool) :
    SameFrame pc (pc.pageOnKey key longPress).2 := by
  obtain ⟨-, hmode, hpage, hanim, hscreen⟩ := pages_pageOnKey pc key longPress
  exact ⟨hscreen, hpage, hmode, congrArg AnimState.type hanim⟩

theorem SameFrame.handleViewKey (h : DialogInv n pc) {key : UInt8} {longPress : Bool}
    {nowMs : UInt64} (hres : (pc.handleViewKey key longPress nowMs).1 = false) :
    SameFrame pc (pc.handleViewKey key longPress nowMs).2 := by
  unfold PageController.handleViewKey at hres ⊢
  split at hres
  · cases hres
  rename_i h1
  rw [if_neg h1]
  split at hres
  · cases hres
  rename_i h3
  rw [if_neg h3]
  split at hres
  · split at hres
    · rw [tryEnterMode_fst h nowMs] at hres
      cases hres
    · cases hres
  · rename_i h2
    rw [if_neg h2]
    exact .pageOnKey pc key longPress

theorem SameFrame.handleEnterKey (h : DialogInv n pc) {key : UInt8} {longPress : Bool}
    {nowMs : UInt64}
    (hres : (if key = keyK2 ∧ longPress then pc.tryEnterMode nowMs
      else pc.pageOnKey key longPress).1 = false) :
    SameFrame pc (if key = keyK2 ∧ longPress then pc.tryEnterMode nowMs
      else pc.pageOnKey key longPress).2 := by
  split at hres
  · rw [tryEnterMode_fst h nowMs] at hres
    cases hres
  · rename_i hkey
    rw [if_neg hkey]
    exact .pageOnKey pc key longPress

/-- A key press that is acted on is reported, or no handler takes it and it only ends the
animation. -/
theorem handleKey_idle (h : DialogInv n pc) (hon : pc.screenState = .on) {nowMs : UInt64}
    (hdone : ¬(pc.anim.type ≠ .none ∧ !pc.anim.animIsComplete nowMs)) (key : UInt8)
    (longPress : Bool) :
    ((pc.handleKey key longPress nowMs).1 = false ↔ Unhandled n pc key longPress) ∧
      ((pc.handleKey key longPress nowMs).1 = false →
        SameFrame (pc.clearAnim nowMs) (pc.handleKey key longPress nowMs).2) := by
  have hclear := h.clearAnim nowMs
  unfold Unhandled
  obtain hmode | hmode : pc.pageMode = .enter ∨ pc.pageMode = .view := by
    cases pc.pageMode <;> simp
  · have hstart : DialogInv n { pc.clearAnim nowMs with enterModeStartMs := nowMs } :=
      ⟨hclear.inv.congr rfl rfl rfl rfl (fun _ => rfl) fun _ => hon, h.pages, h.ok, fun hd =>
        ⟨hmode, (h.dialog hd).page, rfl, hon⟩⟩
    rw [handleKey_enter hon hmode hdone]
    refine ⟨?_, fun hres => ?_⟩
    · rw [← Bool.not_eq_true, handleEnterKey_fst hstart hmode]
      change ¬(Bound key longPress ∧
        ¬(pc.currentPage = servicesPage ∧ n = 0 ∧ longPress = false)) ↔ _
      tauto
    · have hsame := SameFrame.handleEnterKey hstart hres
      exact ⟨hsame.screen, hsame.page, hsame.mode, hsame.anim⟩
  · rw [handleKey_view hon hmode hdone]
    refine ⟨?_, fun hres => SameFrame.handleViewKey hclear hres⟩
    rw [← Bool.not_eq_true, handleViewKey_fst hclear hmode]
    refine ⟨Or.inl, fun hc => hc.resolve_right fun hc => ?_⟩
    rw [hmode] at hc
    cases hc.1

/-- **A key press that is not reported** leaves what a frame shows alone, precisely if it does not
end an animation unheard. -/
theorem handleKey_frame (h : DialogInv n pc) (key : UInt8) (longPress : Bool) (nowMs : UInt64) :
    ((pc.handleKey key longPress nowMs).1 = false →
      SameFrame pc (pc.handleKey key longPress nowMs).2) ↔
      ¬EndsUnheard n pc key longPress nowMs := by
  unfold EndsUnheard
  cases hon : pc.screenState with
  | off =>
    have hres : (pc.handleKey key longPress nowMs).1 = true := by
      unfold handleKey
      dsimp only
      rw [if_pos hon]
    rw [hres]
    exact iff_of_true (fun hc => Bool.noConfusion hc) fun hc => ScreenState.noConfusion hc.1
  | on =>
    by_cases hbusy : pc.anim.type ≠ .none ∧ !pc.anim.animIsComplete nowMs
    · have heq : pc.handleKey key longPress nowMs = (false, { pc with lastActivityMs := nowMs }) := by
        unfold handleKey
        dsimp only
        rw [if_neg (by rw [hon]; exact ScreenState.noConfusion), if_pos hbusy]
      rw [heq]
      refine iff_of_true (fun _ => ⟨rfl, rfl, rfl, rfl⟩) fun hc => ?_
      rw [hc.2.2.1] at hbusy
      exact Bool.noConfusion hbusy.2
    · obtain ⟨hres, hframe⟩ := handleKey_idle h hon hbusy key longPress
      constructor
      · rintro hsame ⟨-, hanim, -, hunhandled⟩
        have hfalse := hres.2 hunhandled
        exact hanim ((hsame hfalse).anim.symm.trans (hframe hfalse).anim)
      · intro hnot hfalse
        have hsame := hframe hfalse
        have hnone : pc.anim.type = .none := by
          by_contra hanim
          exact hnot ⟨rfl, hanim, by simpa [hanim] using hbusy, hres.1 hfalse⟩
        exact ⟨hsame.screen, hsame.page, hsame.mode, hsame.anim.trans hnone.symm⟩

end PageController

namespace UiSys

variable {n : ℕ} {s : UiSys}

/-- The value that `ui_controller_handle_button` returns. -/
def buttonResult (s : UiSys) (key : UInt8) (longPress : Bool) (nowMs : UInt64) : Bool :=
  (s.client.pageCtrl.handleKey key longPress nowMs).1

/-- A button event has left the flag to draw and what a frame shows alone. -/
structure Unchanged (s s' : UiSys) : Prop where
  needs : s'.client.needsRender = s.client.needsRender
  frame : s.client.pageCtrl.SameFrame s'.client.pageCtrl

/-- A button event that is not reported only moves the controller. -/
theorem handleButton_unreported (h : s.client.pageCtrl.DialogInv n) {key : UInt8}
    {longPress : Bool} {nowMs : UInt64} (hres : s.buttonResult key longPress nowMs = false)
    (env : CallEnv) : s.handleButton key longPress nowMs env =
      s.paged (s.client.pageCtrl.handleKey key longPress nowMs).2 := by
  have hinv := h.inv.handleKey key longPress nowMs
  have hpages := (PageController.pages_handleKey _ key longPress nowMs).trans h.pages
  have ho := h.handleKey_outcome key longPress nowMs
  unfold buttonResult at hres
  unfold UiSys.handleButton
  generalize s.client.pageCtrl.handleKey key longPress nowMs = r at hres hinv hpages ho ⊢
  obtain ⟨changed, pc⟩ := r
  dsimp only at hres hinv hpages ho ⊢
  subst hres
  rcases ho.cases h.ok hinv hpages with ⟨-, hpc, -⟩ | ⟨-, hchanged, -⟩
  · rw [takeControlRequest_idle { s.client with pageCtrl := pc, powerOn := pc.isScreenOn }
      hpc.ok.idle nowMs]
    rfl
  · cases hchanged

/-- **What a button event reports.** For every value of `MONITORED_SERVICES`, every state of every
run and every button event: if the event is not reported, the flag to draw and what a frame shows
are as before, precisely if the event does not end an animation unheard. -/
theorem reported_iff (servicesStr : CStr) (statusCtx displayReady : Bool) (es : List Event)
    (key : UInt8) (longPress : Bool) (nowMs : UInt64) (env : CallEnv) :
    let cfg := serviceConfigInit servicesStr
    let s := reached cfg statusCtx displayReady es
    (s.buttonResult key longPress nowMs = false →
      s.Unchanged (s.handleButton key longPress nowMs env)) ↔
      ¬s.client.pageCtrl.EndsUnheard cfg.length key longPress nowMs := by
  intro cfg s
  have h : s.client.pageCtrl.DialogInv cfg.length :=
    dialogInv_reached servicesStr statusCtx displayReady es
  rw [← PageController.handleKey_frame h]
  refine forall_congr' fun hres => ?_
  rw [handleButton_unreported h hres]
  exact ⟨fun hu => hu.frame, fun hf => ⟨rfl, hf⟩⟩

/-- The failing input: the title shakes from 1000 ms on, and a long K1 comes at 1405 ms, before the
next tick. -/
theorem shake_ended_unreported :
    let s := reached (serviceConfigInit []) true true
      [.button keyK2 true 1000 {}, .timer 1395 1395 fun _ => {}]
    ¬(s.buttonResult keyK1 true 1405 = false → s.Unchanged (s.handleButton keyK1 true 1405 {})) := by
  intro s h
  have hanim := (h (by decide)).frame.anim
  exact absurd hanim (by decide)

end UiSys

end NanoHat
