import NanoHat.Ui.PageControllerInvariant
import NanoHat.Ui.Pages

/-!
# Timeouts

`page_controller_tick` leaves enter mode and turns the screen off by two timers, which key presses
set. The law is about the key presses and not about the timers: a timeout is over only when its time
has passed since the most recent key press. For the screen it holds in every run, and for enter mode
in every run in which no key press is ignored in enter mode (`lawfulTick_after`); an ignored one does
not set the timer of enter mode.
-/

namespace NanoHat.PageController

open Runs

variable {σ : Type*} {pc pc' : PageController σ}

/-! ## Times of a run -/

/-- The time of a key press. -/
def Event.keyMs : Event → Option UInt64
  | .key _ _ nowMs => some nowMs
  | _ => none

/-- The time of a tick. -/
def Event.tickMs : Event → Option UInt64
  | .tick nowMs => some nowMs
  | _ => none

/-- The times of the key presses and ticks, in processing order. -/
def times (es : List Event) : List UInt64 := es.filterMap fun e => e.keyMs.or e.tickMs

/-- The time of the most recent key press, of any kind. -/
def lastKeyMs (es : List Event) : Option UInt64 := (es.filterMap Event.keyMs).getLast?

/-- The time of the most recent key press, or of the first tick if there is no key press. -/
def lastActivity (es : List Event) : Option UInt64 :=
  (lastKeyMs es).or (es.filterMap Event.tickMs).head?

/-- At least `timeoutMs` have passed since the time `since`. -/
def Passed (since : Option UInt64) (timeoutMs : UInt32) (nowMs : UInt64) : Prop :=
  ∃ t, since = some t ∧ t.toNat + timeoutMs.toNat ≤ nowMs.toNat

/-- A tick after the events `es` leaves enter mode in time only, `pc` being the state before it. -/
def LeavesInTime (es : List Event) (pc : PageController σ) (nowMs : UInt64) : Prop :=
  pc.pageMode = .enter → (pc.tick nowMs).2.pageMode ≠ .enter →
    0 < pc.enterModeTimeoutMs ∧ Passed (lastKeyMs es) pc.enterModeTimeoutMs nowMs

/-- And it turns the screen off in time only. -/
def SleepsInTime (es : List Event) (pc : PageController σ) (nowMs : UInt64) : Prop :=
  pc.screenState = .on → (pc.tick nowMs).2.screenState = .off →
    pc.globals.autoScreenOffEnabled = true ∧ pc.pageMode ≠ .enter ∧ 0 < pc.idleTimeoutMs ∧
      Passed (lastActivity (es ++ [.tick nowMs])) pc.idleTimeoutMs nowMs

structure LawfulTick (es : List Event) (pc : PageController σ) (nowMs : UInt64) : Prop where
  leaves : LeavesInTime es pc nowMs
  sleeps : SleepsInTime es pc nowMs

/-- A key press that finds no animation in progress, if it comes in enter mode. -/
def Heard (pc : PageController σ) : Event → Prop
  | .key _ _ nowMs =>
    pc.pageMode = .enter → pc.anim.animIsComplete nowMs = true
  | _ => True

instance (pc : PageController σ) : (e : Event) → Decidable (pc.Heard e)
  | .key _ _ _ => inferInstanceAs (Decidable (_ → _))
  | .tick _ | .setIdleTimeout _ | .setAutoScreenOff _ => inferInstanceAs (Decidable True)

/-! ## What moves the timers -/

/-- The fields that the timeouts depend on. -/
structure SameTimers (pc pc' : PageController σ) : Prop where
  activity : pc'.lastActivityMs = pc.lastActivityMs
  start : pc'.enterModeStartMs = pc.enterModeStartMs
  screen : pc'.screenState = pc.screenState

theorem sameTimers_exitEnterMode (pc : PageController σ) (nowMs : UInt64) :
    SameTimers pc (pc.exitEnterMode nowMs) ∧ (pc.exitEnterMode nowMs).pageMode = .view := by
  unfold exitEnterMode
  dsimp only
  split
  · exact ⟨⟨rfl, rfl, rfl⟩, rfl⟩
  · exact ⟨⟨rfl, rfl, rfl⟩, rfl⟩

theorem sameTimers_pageOnKey (pc : PageController σ) (key : UInt8) (longPress : Bool) :
    SameTimers pc (pc.pageOnKey key longPress).2 ∧
      (pc.pageOnKey key longPress).2.pageMode = pc.pageMode := by
  unfold pageOnKey
  split
  · exact ⟨⟨rfl, rfl, rfl⟩, rfl⟩
  · exact ⟨⟨rfl, rfl, rfl⟩, rfl⟩

theorem sameTimers_tickAnim (pc : PageController σ) (nowMs : UInt64) :
    SameTimers pc (pc.tickAnim nowMs).2 ∧ (pc.tickAnim nowMs).2.pageMode = pc.pageMode := by
  unfold tickAnim
  split
  · exact ⟨⟨rfl, rfl, rfl⟩, rfl⟩
  split
  · exact ⟨⟨rfl, rfl, rfl⟩, rfl⟩
  · exact ⟨⟨rfl, rfl, rfl⟩, rfl⟩

/-- Enter mode is entered at the time of the key press. -/
theorem start_tryEnterMode (pc : PageController σ) (nowMs : UInt64)
    (hmode : (pc.tryEnterMode nowMs).2.pageMode = .enter) :
    (pc.tryEnterMode nowMs).2.enterModeStartMs = nowMs ∧
      (pc.tryEnterMode nowMs).2.screenState = pc.screenState := by
  revert hmode
  unfold tryEnterMode
  split
  · intro hmode
    rw [(sameTimers_exitEnterMode pc nowMs).2] at hmode
    cases hmode
  rename_i hview
  split
  · exact fun hmode => absurd hmode hview
  split
  · exact fun hmode => absurd hmode hview
  dsimp only
  split
  · exact fun _ => ⟨rfl, rfl⟩
  · exact fun _ => ⟨rfl, rfl⟩

theorem handleKey_activity (pc : PageController σ) (key : UInt8) (longPress : Bool)
    (nowMs : UInt64) : (pc.handleKey key longPress nowMs).2.lastActivityMs = nowMs := by
  rcases handleKey_cases pc key longPress nowMs with ⟨-, heq⟩ | ⟨-, -, heq⟩ | ⟨-, -, he⟩
  · rw [heq]
  · rw [heq]
  · generalize (pc.handleKey key longPress nowMs).2 = pc' at he
    cases he with
    | stay globals startMs => rfl
    | sleep hmode => rfl
    | slide d hd hmode =>
      unfold switchPage
      split
      · rfl
      split <;> rfl
    | tryEnter startMs =>
      unfold tryEnterMode
      split
      · exact (sameTimers_exitEnterMode _ nowMs).1.activity
      split
      · rfl
      split
      · rfl
      dsimp only
      split <;> rfl

theorem start_handleViewKey (hview : pc.pageMode = .view) {key : UInt8} {longPress : Bool}
    {nowMs : UInt64} (hmode' : (pc.handleViewKey key longPress nowMs).2.pageMode = .enter) :
    (pc.handleViewKey key longPress nowMs).2.enterModeStartMs = nowMs ∧
      (pc.handleViewKey key longPress nowMs).2.screenState = pc.screenState := by
  have hslide : ∀ d, (pc.switchPage d nowMs).pageMode = .view := by
    intro d
    unfold switchPage
    split
    · exact hview
    split <;> exact hview
  unfold handleViewKey at hmode' ⊢
  split at hmode'
  · rw [hslide] at hmode'
    cases hmode'
  rename_i h1
  rw [if_neg h1]
  split at hmode'
  · rw [hslide] at hmode'
    cases hmode'
  rename_i h3
  rw [if_neg h3]
  split at hmode'
  · rename_i h2
    rw [if_pos h2]
    split at hmode'
    · rename_i hlong
      rw [if_pos hlong]
      exact start_tryEnterMode pc nowMs hmode'
    · exact PageMode.noConfusion (hview.symm.trans hmode')
  · rw [(sameTimers_pageOnKey pc key longPress).2] at hmode'
    exact PageMode.noConfusion (hview.symm.trans hmode')

/-- A key press that is heard, if it leaves the page in enter mode, has started the timeout anew. -/
theorem start_handleKey (hon : pc.pageMode = .enter → pc.screenState = .on) {key : UInt8}
    {longPress : Bool} {nowMs : UInt64} (hheard : pc.Heard (.key key longPress nowMs))
    (hmode' : (pc.handleKey key longPress nowMs).2.pageMode = .enter) :
    (pc.handleKey key longPress nowMs).2.enterModeStartMs = nowMs ∧
      (pc.handleKey key longPress nowMs).2.screenState = .on := by
  obtain hmode | hmode : pc.pageMode = .enter ∨ pc.pageMode = .view := by
    cases pc.pageMode <;> simp
  · have hdone : ¬(pc.anim.type ≠ .none ∧ !pc.anim.animIsComplete nowMs) := by
      rw [hheard hmode]
      exact fun hc => Bool.noConfusion hc.2
    rw [handleKey_enter (hon hmode) hmode hdone] at hmode' ⊢
    split at hmode'
    · unfold tryEnterMode at hmode'
      rw [if_pos (by exact hmode), (sameTimers_exitEnterMode _ nowMs).2] at hmode'
      cases hmode'
    · rename_i hkey
      rw [if_neg hkey]
      obtain ⟨hsame, -⟩ := sameTimers_pageOnKey
        { pc.clearAnim nowMs with enterModeStartMs := nowMs } key longPress
      exact ⟨hsame.start, hsame.screen.trans (hon hmode)⟩
  · rcases handleKey_cases pc key longPress nowMs with ⟨-, heq⟩ | ⟨-, -, heq⟩ | ⟨hscreen, hdone, -⟩
    · rw [heq] at hmode'
      exact PageMode.noConfusion (hmode.symm.trans hmode')
    · rw [heq] at hmode'
      exact PageMode.noConfusion (hmode.symm.trans hmode')
    · rw [handleKey_view hscreen hmode (by rw [hdone]; exact fun hc => Bool.noConfusion hc.2)]
        at hmode' ⊢
      have hview : (pc.clearAnim nowMs).pageMode = .view := hmode
      obtain ⟨hstart, hscreen'⟩ := start_handleViewKey hview hmode'
      exact ⟨hstart, hscreen'.trans hscreen⟩

/-- What a tick does about the timeouts. -/
structure TickEffect (pc : PageController σ) (nowMs : UInt64) (pc' : PageController σ) : Prop where
  activity : pc'.lastActivityMs = (pc.startActivity nowMs).lastActivityMs
  start : pc'.enterModeStartMs = pc.enterModeStartMs
  screen : pc'.screenState = pc.screenState ∨
    pc.globals.autoScreenOffEnabled = true ∧ pc.pageMode ≠ .enter ∧ 0 < pc.idleTimeoutMs ∧
      pc.idleTimeoutMs.toUInt64 ≤ nowMs - (pc.startActivity nowMs).lastActivityMs
  mode : pc'.pageMode = pc.pageMode ∨ pc'.pageMode = .view ∧ 0 < pc.enterModeTimeoutMs ∧
    pc.enterModeTimeoutMs.toUInt64 ≤ nowMs - pc.enterModeStartMs

theorem startActivity_frame (pc : PageController σ) (nowMs : UInt64) :
    pc.startActivity nowMs =
      { pc with lastActivityMs := (pc.startActivity nowMs).lastActivityMs } := by
  unfold startActivity
  split <;> rfl

theorem tickScreenOff_frame (pc : PageController σ) (nowMs : UInt64) :
    ∃ screen, (pc.tickScreenOff nowMs).2 = { pc with screenState := screen } ∧
      (screen = pc.screenState ∨
        pc.globals.autoScreenOffEnabled = true ∧ pc.pageMode ≠ .enter ∧ 0 < pc.idleTimeoutMs ∧
          pc.idleTimeoutMs.toUInt64 ≤ nowMs - pc.lastActivityMs) := by
  unfold tickScreenOff
  split
  · rename_i hoff
    exact ⟨.off, rfl, Or.inr ⟨hoff.1, hoff.2.2⟩⟩
  · exact ⟨pc.screenState, rfl, Or.inl rfl⟩

theorem tickEnterMode_frame (pc : PageController σ) (nowMs : UInt64) :
    SameTimers pc (pc.tickEnterMode nowMs).2 ∧
      ((pc.tickEnterMode nowMs).2.pageMode = pc.pageMode ∨
        (pc.tickEnterMode nowMs).2.pageMode = .view ∧ 0 < pc.enterModeTimeoutMs ∧
          pc.enterModeTimeoutMs.toUInt64 ≤ nowMs - pc.enterModeStartMs) := by
  unfold tickEnterMode
  split
  · rename_i hleave
    obtain ⟨hsame, hmode⟩ := sameTimers_exitEnterMode pc nowMs
    exact ⟨hsame, Or.inr ⟨hmode, hleave.2⟩⟩
  · exact ⟨⟨rfl, rfl, rfl⟩, Or.inl rfl⟩

theorem tickEffect_tick (pc : PageController σ) (nowMs : UInt64) :
    TickEffect pc nowMs (pc.tick nowMs).2 := by
  obtain ⟨screen, hoff, hscreen⟩ := tickScreenOff_frame (pc.startActivity nowMs) nowMs
  obtain ⟨henter, hmode⟩ :=
    tickEnterMode_frame { pc.startActivity nowMs with screenState := screen } nowMs
  obtain ⟨hanim, hmode'⟩ := sameTimers_tickAnim
    ({ pc.startActivity nowMs with screenState := screen }.tickEnterMode nowMs).2 nowMs
  have hframe := startActivity_frame pc nowMs
  generalize (pc.startActivity nowMs).lastActivityMs = t at hframe
  rw [tick_eq, hoff]
  refine ⟨hanim.activity.trans henter.activity, (hanim.start.trans henter.start).trans ?_, ?_, ?_⟩
  · rw [hframe]
  · rw [hanim.screen, henter.screen]
    rw [hframe] at hscreen ⊢
    exact hscreen
  · rw [hmode']
    rw [hframe] at hmode ⊢
    exact hmode

/-! ## What the timers record -/

/-- What the activity timer has recorded of a run. -/
structure Timed (es : List Event) (pc : PageController σ) : Prop where
  bounded : ∀ t, (∀ u ∈ times es, u ≤ t) → pc.lastActivityMs ≤ t
  activity : ∀ t, lastActivity es = some t → t ≤ pc.lastActivityMs
  idle : lastActivity es = none → pc.lastActivityMs = 0

/-- What the timer of enter mode has recorded, if every key press was heard. -/
structure TimedEnter (es : List Event) (pc : PageController σ) : Prop where
  on : pc.pageMode = .enter → pc.screenState = .on
  entered : pc.pageMode = .enter → lastKeyMs es = some pc.enterModeStartMs

theorem times_concat (es : List Event) (e : Event) :
    times (es ++ [e]) = times es ++ (e.keyMs.or e.tickMs).toList := by
  unfold times
  rw [List.filterMap_append]
  cases e <;> rfl

theorem lastKeyMs_concat_key (es : List Event) (key : UInt8) (longPress : Bool) (nowMs : UInt64) :
    lastKeyMs (es ++ [.key key longPress nowMs]) = some nowMs := by
  unfold lastKeyMs
  rw [List.filterMap_append]
  exact List.getLast?_concat

theorem lastKeyMs_concat {e : Event} (h : e.keyMs = none) (es : List Event) :
    lastKeyMs (es ++ [e]) = lastKeyMs es := by
  unfold lastKeyMs
  rw [List.filterMap_append, List.filterMap_cons_none h, List.filterMap_nil, List.append_nil]

theorem lastActivity_concat_tick (es : List Event) (nowMs : UInt64) :
    lastActivity (es ++ [.tick nowMs]) = (lastActivity es).or (some nowMs) := by
  unfold lastActivity
  rw [lastKeyMs_concat rfl, List.filterMap_append, List.head?_append, Option.or_assoc]
  rfl

theorem lastActivity_concat {e : Event} (hkey : e.keyMs = none) (htick : e.tickMs = none)
    (es : List Event) : lastActivity (es ++ [e]) = lastActivity es := by
  unfold lastActivity
  rw [lastKeyMs_concat hkey, List.filterMap_append, List.filterMap_cons_none htick,
    List.filterMap_nil, List.append_nil]

/-- What leaves the timers alone and passes no time. -/
theorem Timed.congr {es : List Event} (h : Timed es pc) {e : Event} (hkey : e.keyMs = none)
    (htick : e.tickMs = none) (hsame : SameTimers pc pc') : Timed (es ++ [e]) pc' where
  bounded := by
    rw [times_concat, hkey, htick, hsame.activity, Option.or_none, Option.toList_none,
      List.append_nil]
    exact h.bounded
  activity := by
    rw [lastActivity_concat hkey htick, hsame.activity]
    exact h.activity
  idle := by
    rw [lastActivity_concat hkey htick, hsame.activity]
    exact h.idle

theorem TimedEnter.congr {es : List Event} (h : TimedEnter es pc) {e : Event}
    (hkey : e.keyMs = none) (hsame : SameTimers pc pc') (hmode : pc'.pageMode = pc.pageMode) :
    TimedEnter (es ++ [e]) pc' where
  on := by
    rw [hmode, hsame.screen]
    exact h.on
  entered := by
    rw [lastKeyMs_concat hkey, hmode, hsame.start]
    exact h.entered

/-- Every key press sets the activity timer, ignored or not. -/
theorem timed_handleKey (es : List Event) (pc : PageController σ) (key : UInt8) (longPress : Bool)
    (nowMs : UInt64) :
    Timed (es ++ [.key key longPress nowMs]) (pc.handleKey key longPress nowMs).2 := by
  have hact : lastActivity (es ++ [.key key longPress nowMs]) = some nowMs := by
    unfold lastActivity
    rw [lastKeyMs_concat_key]
    rfl
  refine ⟨fun t ht => ?_, fun t ht => ?_, fun hnone => ?_⟩
  · rw [handleKey_activity]
    exact ht nowMs (by rw [times_concat]; exact List.mem_append_right _ List.mem_cons_self)
  · rw [handleKey_activity]
    rw [hact] at ht
    exact UInt64.le_of_eq (Option.some.inj ht).symm
  · rw [hact] at hnone
    cases hnone

theorem TimedEnter.handleKey {es : List Event} (h : TimedEnter es pc) {key : UInt8}
    {longPress : Bool} {nowMs : UInt64} (hheard : pc.Heard (.key key longPress nowMs)) :
    TimedEnter (es ++ [.key key longPress nowMs]) (pc.handleKey key longPress nowMs).2 where
  on hmode := (start_handleKey h.on hheard hmode).2
  entered hmode := by rw [lastKeyMs_concat_key, (start_handleKey h.on hheard hmode).1]

/-- The activity time that a tick compares with. -/
theorem Timed.startActivity {es : List Event} (h : Timed es pc) (nowMs : UInt64) :
    (∀ t, lastActivity (es ++ [.tick nowMs]) = some t →
        t ≤ (pc.startActivity nowMs).lastActivityMs) ∧
      ∀ t, (∀ u ∈ times (es ++ [.tick nowMs]), u ≤ t) →
        (pc.startActivity nowMs).lastActivityMs ≤ t := by
  have hmem : times (es ++ [.tick nowMs]) = times es ++ [nowMs] := times_concat es _
  rw [lastActivity_concat_tick, hmem]
  unfold PageController.startActivity
  split
  · rename_i hzero
    refine ⟨fun t ht => ?_, fun t ht => ht nowMs (List.mem_append_right _ List.mem_cons_self)⟩
    cases hact : lastActivity es with
    | none =>
      rw [hact] at ht
      exact UInt64.le_of_eq (Option.some.inj ht).symm
    | some t₀ =>
      have hle := h.activity t₀ hact
      rw [hact, Option.some_or] at ht
      rw [hzero, Option.some.inj ht] at hle
      exact UInt64.le_trans hle UInt64.zero_le
  · rename_i hne
    refine ⟨fun t ht => ?_, fun t ht => h.bounded t fun u hu => ht u (List.mem_append_left _ hu)⟩
    cases hact : lastActivity es with
    | none => exact absurd (h.idle hact) hne
    | some t₀ =>
      rw [hact, Option.some_or] at ht
      exact h.activity t (hact.trans ht)

theorem Timed.tick {es : List Event} (h : Timed es pc) (nowMs : UInt64) :
    Timed (es ++ [.tick nowMs]) (pc.tick nowMs).2 := by
  have he := tickEffect_tick pc nowMs
  obtain ⟨hactivity, hbounded⟩ := h.startActivity nowMs
  rw [← he.activity] at hactivity hbounded
  refine ⟨hbounded, hactivity, fun hnone => ?_⟩
  rw [lastActivity_concat_tick] at hnone
  cases hact : lastActivity es with
  | none =>
    rw [hact] at hnone
    cases hnone
  | some t =>
    rw [hact] at hnone
    cases hnone

theorem TimedEnter.tick {es : List Event} (h : TimedEnter es pc) (nowMs : UInt64) :
    TimedEnter (es ++ [.tick nowMs]) (pc.tick nowMs).2 := by
  have he := tickEffect_tick pc nowMs
  have henter : (pc.tick nowMs).2.pageMode = .enter → pc.pageMode = .enter := by
    intro hmode
    rcases he.mode with heq | ⟨hview, -⟩
    · exact heq.symm.trans hmode
    · exact PageMode.noConfusion (hview.symm.trans hmode)
  refine ⟨fun hmode => ?_, fun hmode => ?_⟩
  · rcases he.screen with heq | ⟨-, hnot, -⟩
    · exact heq.trans (h.on (henter hmode))
    · exact absurd (henter hmode) hnot
  · rw [lastKeyMs_concat rfl, he.start]
    exact h.entered (henter hmode)

theorem Timed.step {es : List Event} (h : Timed es pc) (e : Event) :
    Timed (es ++ [e]) (pc.step e) := by
  cases e with
  | key key longPress nowMs => exact timed_handleKey es pc key longPress nowMs
  | tick nowMs => exact h.tick nowMs
  | setIdleTimeout timeoutMs => exact h.congr rfl rfl ⟨rfl, rfl, rfl⟩
  | setAutoScreenOff enabled => exact h.congr rfl rfl ⟨rfl, rfl, rfl⟩

theorem TimedEnter.step {es : List Event} (h : TimedEnter es pc) {e : Event} (hheard : pc.Heard e) :
    TimedEnter (es ++ [e]) (pc.step e) := by
  cases e with
  | key key longPress nowMs => exact h.handleKey hheard
  | tick nowMs => exact h.tick nowMs
  | setIdleTimeout timeoutMs => exact h.congr rfl ⟨rfl, rfl, rfl⟩ rfl
  | setAutoScreenOff enabled => exact h.congr rfl ⟨rfl, rfl, rfl⟩ rfl

theorem timed_after (h : Timed [] pc) (es : List Event) : Timed es (run step pc es) := by
  induction es using List.reverseRecOn with
  | nil => exact h
  | append_singleton es e ih =>
    rw [run_append]
    exact ih.step e

theorem timedEnter_after {es : List Event} (h : TimedEnter [] pc) (hheard : Along step Heard pc es) :
    TimedEnter es (run step pc es) := by
  induction es using List.reverseRecOn with
  | nil => exact h
  | append_singleton es e ih =>
    obtain ⟨hes, he, -⟩ := (along_append es [e]).1 hheard
    rw [run_append]
    exact (ih hes).step he

/-- A difference of times that are in order, and a timeout. -/
theorem passed_of_le {t nowMs : UInt64} {timeoutMs : UInt32} (hle : t ≤ nowMs)
    (h : timeoutMs.toUInt64 ≤ nowMs - t) : t.toNat + timeoutMs.toNat ≤ nowMs.toNat := by
  rw [UInt64.le_iff_toNat_le, UInt64.toNat_sub_of_le _ _ hle, UInt32.toNat_toUInt64] at h
  have hle := UInt64.le_iff_toNat_le.1 hle
  omega

theorem mem_times_of_lastKeyMs {es : List Event} {t : UInt64} (h : lastKeyMs es = some t) :
    t ∈ times es := by
  obtain ⟨e, he, hkey⟩ := List.mem_filterMap.1 (List.mem_of_getLast? h)
  exact List.mem_filterMap.2 ⟨e, he, by rw [hkey]; rfl⟩

theorem TimedEnter.leavesInTime {es : List Event} (h : TimedEnter es pc) {nowMs : UInt64}
    (hlast : ∀ u ∈ times es, u ≤ nowMs) : LeavesInTime es pc nowMs := by
  intro hmode hleft
  rcases (tickEffect_tick pc nowMs).mode with heq | ⟨-, hpos, htimeout⟩
  · exact absurd (heq.trans hmode) hleft
  · have hkey := h.entered hmode
    have hle := hlast _ (mem_times_of_lastKeyMs hkey)
    exact ⟨hpos, _, hkey, passed_of_le hle htimeout⟩

theorem Timed.sleepsInTime {es : List Event} (h : Timed es pc) {nowMs : UInt64}
    (hlast : ∀ u ∈ times es, u ≤ nowMs) : SleepsInTime es pc nowMs := by
  intro hon hoff
  obtain ⟨hactivity, hbounded⟩ := h.startActivity nowMs
  rcases (tickEffect_tick pc nowMs).screen with heq | ⟨hauto, hmode, hpos, htimeout⟩
  · exact ScreenState.noConfusion ((heq.trans hon).symm.trans hoff)
  · refine ⟨hauto, hmode, hpos, ?_⟩
    have hle : (pc.startActivity nowMs).lastActivityMs ≤ nowMs := by
      refine hbounded nowMs fun u hu => ?_
      rw [times_concat, List.mem_append] at hu
      rcases hu with hu | hu
      · exact hlast u hu
      · obtain rfl := List.mem_singleton.1 hu
        exact UInt64.le_refl _
    obtain ⟨t, ht⟩ : ∃ t, lastActivity (es ++ [.tick nowMs]) = some t := by
      rw [lastActivity_concat_tick]
      cases lastActivity es with
      | none => exact ⟨nowMs, rfl⟩
      | some t => exact ⟨t, rfl⟩
    refine ⟨t, ht, ?_⟩
    have hpassed := passed_of_le hle htimeout
    have hge := UInt64.le_iff_toNat_le.1 (hactivity t ht)
    omega

/-- **Timeouts.** In a run whose times are in order, a tick turns the screen off only when the
timeout has passed since the most recent key press; and if the key presses in enter mode are heard,
it leaves enter mode only then too. -/
theorem lawfulTick_after (pages : List (Option (Page σ))) (globals : Globals σ)
    (idleTimeoutMs enterModeTimeoutMs : UInt32) (es : List Event) (nowMs : UInt64) :
    let start : PageController σ := { init pages globals with
      idleTimeoutMs := idleTimeoutMs
      enterModeTimeoutMs := enterModeTimeoutMs }
    (times (es ++ [.tick nowMs])).Pairwise (· ≤ ·) →
      SleepsInTime es (run step start es) nowMs ∧
        (Along step Heard start es → LawfulTick es (run step start es) nowMs) := by
  intro start hordered
  have hlast : ∀ u ∈ times es, u ≤ nowMs := by
    have hmem : times (es ++ [.tick nowMs]) = times es ++ [nowMs] := times_concat es _
    rw [hmem, List.pairwise_append] at hordered
    exact fun u hu => hordered.2.2 u hu nowMs List.mem_cons_self
  have htimed : Timed [] start := ⟨fun t _ => UInt64.zero_le, nofun, fun _ => rfl⟩
  have htimedEnter : TimedEnter [] start :=
    ⟨fun h => PageMode.noConfusion h, fun h => PageMode.noConfusion h⟩
  have hsleeps := (timed_after htimed es).sleepsInTime hlast
  exact ⟨hsleeps, fun hheard => ⟨(timedEnter_after htimedEnter hheard).leavesInTime hlast, hsleeps⟩⟩

/-- The services page is entered at 1800 ms, and a K1 follows at `k1Ms`. -/
def enteredThen (k1Ms : UInt64) : List Event :=
  [.key keyK3 false 1000, .tick 1300, .key keyK3 false 1400, .tick 1700, .key keyK2 true 1800,
    .key keyK1 false k1Ms, .tick 2200]

/-- A K1 after the animation, and a tick 30 s later. -/
theorem lawfulTick_heard :
    LawfulTick (enteredThen 2100) (after (pagesGetList 1) ⟨false, {}⟩ (enteredThen 2100)) 32100 :=
  (lawfulTick_after (pagesGetList 1) ⟨false, {}⟩ 30000 30000 (enteredThen 2100) 32100
    (by decide)).2 (by decide)

/-- The failing input: a K1 during the animation, and a tick 30 s after the page was entered. -/
theorem ignored_key_forgotten :
    (times (enteredThen 1900 ++ [.tick 31800])).Pairwise (· ≤ ·) ∧
      ¬LawfulTick (enteredThen 1900) (after (pagesGetList 1) ⟨false, {}⟩ (enteredThen 1900))
        31800 := by
  refine ⟨by decide, fun h => ?_⟩
  obtain ⟨-, t, ht, hpassed⟩ := h.leaves (by decide) (by decide)
  obtain rfl : (1900 : UInt64) = t := Option.some.inj ht
  exact absurd hpassed (by decide)

end NanoHat.PageController
