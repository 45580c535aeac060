import Mathlib.Logic.Function.Iterate
import NanoHat.Adr0005.UiThread

/-!
# The control channel between the UI thread and the event loop

`event_loop.c`, run by the main thread, and its two callers: the UI thread asks for another tick
through `pending_tick_ms`, signal handlers ask for the end through `shutdown_requested`; both then
write to the eventfd that the loop polls. Stores, exchanges and system calls are steps of their own
and the threads are interleaved in every order; what the loop does for buttons and for the timer
touches nothing here and is one step.

When both threads are at rest the timer is what the screen needs (`timer_follows_screen`), and no
request to shut down is slept through (`shutdown_heard`).
-/

namespace NanoHat.Adr0005

open Runs

/-- `struct timespec` -/
structure Timespec where
  sec : ℤ
  nsec : ℤ
  deriving DecidableEq

/-- The interval of `timerfd_settime` is valid. -/
def Timespec.Valid (t : Timespec) : Prop := 0 ≤ t.sec ∧ 0 ≤ t.nsec ∧ t.nsec < 1000000000

instance (t : Timespec) : Decidable t.Valid := inferInstanceAs (Decidable (_ ∧ _))

/-- What `event_loop_apply_tick` sets the timer to; zero stops it. -/
def tickInterval (tickMs : ℤ) : Timespec :=
  if 0 < tickMs then ⟨tickMs / 1000, tickMs % 1000 * 1000000⟩ else ⟨0, 0⟩

/-- Where the UI thread is in `event_loop_request_tick`. -/
inductive RequestPlace
  | idle
  /-- About to store. -/
  | store (tickMs : ℤ)
  /-- About to write to the eventfd. -/
  | write

/-- Where the main thread is in `event_loop_run`. -/
inductive LoopPlace
  | start
  /-- About to look at `running`. -/
  | test
  | poll
  /-- About to handle buttons and timer, and then the eventfd if it was readable. -/
  | handle (control : Bool)
  /-- In `event_loop_handle_control`: about to read the eventfd, to exchange `pending_tick_ms`, to
  apply what was there, to look at `shutdown_requested`, to push `EVT_SHUTDOWN` and to clear
  `running`. -/
  | drain
  | exchange
  | apply (tickMs : ℤ)
  | loadShutdown
  | push
  | clearRunning
  /-- The loop has returned, with 0 or with -1. -/
  | done
  | failed
  deriving DecidableEq

/-- Both threads and `event_loop_t`. `eventFd` is the counter of the eventfd, `timer` the setting of
the timer, `signals` counts the signal handlers that have not yet written to the eventfd, and
`shutdownEvents` the events `EVT_SHUTDOWN` that were pushed. -/
structure Channel (σ : Type*) where
  ui : UiThread σ
  request : RequestPlace := .idle
  pendingTickMs : ℤ := -1
  shutdownRequested : Bool := false
  running : Bool := false
  eventFd : ℕ := 0
  signals : ℕ := 0
  place : LoopPlace := .start
  tickMs : ℤ := 0
  timer : Timespec := ⟨0, 0⟩
  shutdownEvents : ℕ := 0

/-- `write` of 1 to a non-blocking eventfd. -/
def eventFdWrite (counter : ℕ) : ℕ := if counter < 2 ^ 64 - 2 then counter + 1 else counter

theorem eventFdWrite_pos (counter : ℕ) : 0 < eventFdWrite counter := by
  unfold eventFdWrite
  split <;> omega

/-- Where the UI thread goes with a request. -/
def RequestPlace.of (request : Option ℤ) : RequestPlace := request.elim .idle .store

namespace Channel

variable {σ : Type*}

/-- The next step of `event_loop_request_tick`. -/
def requestStep (s : Channel σ) : Channel σ :=
  match s.request with
  | .idle => s
  | .store tickMs => { s with pendingTickMs := tickMs, request := .write }
  | .write => { s with eventFd := eventFdWrite s.eventFd, request := .idle }

/-- `event_loop_apply_tick` -/
def applyTick (s : Channel σ) (tickMs : ℤ) : Channel σ :=
  if (tickInterval tickMs).Valid then { s with timer := tickInterval tickMs, tickMs := tickMs }
  else s

/-- The next step of `event_loop_run`; `poll` waits for the eventfd. -/
def loopStep (s : Channel σ) : Channel σ :=
  match s.place with
  | .start => { s with running := true, place := .test }
  | .test => { s with place := if s.running then .poll else .done }
  | .poll => if 0 < s.eventFd then { s with place := .handle true } else s
  | .handle control => { s with place := if control then .drain else .test }
  | .drain => if 0 < s.eventFd then { s with eventFd := 0 } else { s with place := .exchange }
  | .exchange => { s with pendingTickMs := -1, place := .apply s.pendingTickMs }
  | .apply tickMs => { if 0 ≤ tickMs then s.applyTick tickMs else s with place := .loadShutdown }
  | .loadShutdown => { s with place := if s.shutdownRequested then .push else .test }
  | .push => { s with shutdownEvents := s.shutdownEvents + 1, place := .clearRunning }
  | .clearRunning => { s with running := false, place := .test }
  | .done | .failed => s

/-- What may happen next. -/
inductive Event
  /-- A step of the UI thread outside `event_loop_request_tick`. -/
  | ui (t : UiTurn)
  /-- `main` calls `ui_thread_stop`, behind the loop. -/
  | uiStop
  | request
  | loop
  /-- `poll` returns for the buttons or the timer, is interrupted, or fails. -/
  | pollOther
  | pollInterrupted
  | pollFails
  /-- A signal handler calls `event_loop_request_shutdown`, and writes to the eventfd. -/
  | signal
  | signalWrite

/-- An event that is not possible leaves the state alone. -/
def step (s : Channel σ) : Event → Channel σ
  | .ui t =>
    match s.request with
    | .idle => { s with ui := (s.ui.turn t).1, request := .of (s.ui.turn t).2 }
    | _ => s
  | .uiStop => if s.place = .done ∨ s.place = .failed then { s with ui := s.ui.stop } else s
  | .request => s.requestStep
  | .loop => s.loopStep
  | .pollOther => if s.place = .poll then { s with place := .handle (0 < s.eventFd) } else s
  | .pollInterrupted => if s.place = .poll then { s with place := .test } else s
  | .pollFails => if s.place = .poll then { s with place := .failed } else s
  | .signal => { s with shutdownRequested := true, signals := s.signals + 1 }
  | .signalWrite =>
    if 0 < s.signals then
      { s with signals := s.signals - 1, eventFd := eventFdWrite s.eventFd }
    else s

/-- `event_loop_init` and `ui_thread_start_default`. -/
def start (pages : List (Option (Page σ))) (pageState : σ) (display : Display) : Channel σ where
  ui := (UiThread.startDefault pages pageState display).1
  request := .of (UiThread.startDefault pages pageState display).2

end Channel

/-! ## What the UI thread asks for -/

namespace UiThread

variable {σ : Type*}

/-- A change of the tick comes with a request for it, which is not negative. -/
def Asks (ui : UiThread σ) (r : UiThread σ × Option ℤ) : Prop :=
  (r.2 = none ∧ r.1.tickMs = ui.tickMs) ∨ (r.2 = some r.1.tickMs ∧ 0 ≤ r.1.tickMs)

theorem asks_applyTick (ui : UiThread σ) {tickMs : ℤ} (h : 0 ≤ tickMs) :
    ui.Asks (ui.applyTick tickMs) := by
  unfold Asks applyTick
  split
  · exact Or.inl ⟨rfl, rfl⟩
  · exact Or.inr ⟨rfl, h⟩

theorem asks_stopTick (ui : UiThread σ) : ui.Asks ui.stopTick := by
  unfold stopTick
  split
  · exact Or.inl ⟨rfl, rfl⟩
  · exact ui.asks_applyTick (Int.le_refl 0)

theorem asks_countTick (ui : UiThread σ) (event : AppEvent) : ui.Asks (ui.countTick event) := by
  have hanim : 0 ≤ uiAnimTickMs := by decide
  have hidle : 0 ≤ uiIdleTickMs := by decide
  unfold countTick
  split
  · exact asks_applyTick { ui with animTicksLeft := uiDefaultAnimTicks } hanim
  split
  · dsimp only
    split
    · exact asks_applyTick { ui with tickActive := true, animTicksLeft := 0 } hidle
    · exact Or.inl ⟨rfl, rfl⟩
  · exact Or.inl ⟨rfl, rfl⟩

theorem asks_defaultHandle (ui : UiThread σ) (event : AppEvent) :
    ui.Asks (ui.defaultHandle event) := by
  have hanim : 0 ≤ uiAnimTickMs := by decide
  unfold defaultHandle
  dsimp only
  split
  · exact asks_stopTick (ui.shownAfter event)
  split
  · exact asks_stopTick (ui.shownAfter event)
  split
  · exact asks_countTick (ui.shownAfter event) event
  split
  · exact asks_applyTick { ui.shownAfter event with
      tickActive := true, animTicksLeft := uiDefaultAnimTicks } hanim
  · exact Or.inl ⟨rfl, rfl⟩

theorem asks_turn (ui : UiThread σ) (t : UiTurn) : ui.Asks (ui.turn t) := by
  unfold turn
  split
  · exact Or.inl ⟨rfl, rfl⟩
  · exact ui.asks_defaultHandle _
  · exact Or.inl ⟨rfl, rfl⟩
  · exact Or.inl ⟨rfl, rfl⟩

end UiThread

/-! ## No request is lost -/

theorem valid_tickInterval (tickMs : ℤ) : (tickInterval tickMs).Valid := by
  unfold tickInterval Timespec.Valid
  split
  · dsimp only
    omega
  · decide

namespace LoopPlace

/-- The loop is about to exchange `pending_tick_ms`. -/
def WillExchange : LoopPlace → Prop
  | .drain | .exchange => True
  | _ => False

/-- The loop is about to look at `shutdown_requested`, or has seen it. -/
def WillShutDown : LoopPlace → Prop
  | .drain | .exchange | .apply _ | .loadShutdown | .push | .clearRunning => True
  | _ => False

/-- The loop has pushed `EVT_SHUTDOWN`. -/
def HasShutDown (place : LoopPlace) (running : Bool) : Prop :=
  place = .clearRunning ∨ running = false ∧ (place = .test ∨ place = .done)

instance (place : LoopPlace) (running : Bool) : Decidable (place.HasShutDown running) :=
  inferInstanceAs (Decidable (_ ∨ _))

end LoopPlace

namespace Channel

variable {σ : Type*} {s : Channel σ}

/-- A tick that was asked for and is not in `pending_tick_ms` any more is set, or about to be. -/
def Arrived (s : Channel σ) : Prop :=
  s.place = .apply s.ui.tickMs ∨ (∀ tickMs, s.place = .apply tickMs → tickMs < 0) ∧
    s.tickMs = s.ui.tickMs

/-- The invariant for the tick. -/
structure TickInv (s : Channel σ) : Prop where
  nonneg : 0 ≤ s.ui.tickMs
  /-- What is about to be stored is what the UI thread counts on. -/
  store : ∀ tickMs, s.request = .store tickMs → tickMs = s.ui.tickMs
  /-- What is stored is on its way, or has arrived. -/
  stored : (∀ tickMs, s.request ≠ .store tickMs) →
    s.pendingTickMs = s.ui.tickMs ∨ s.pendingTickMs = -1 ∧ s.Arrived
  /-- The loop will hear of what is pending. -/
  heard : s.pendingTickMs ≠ -1 → s.request = .write ∨ 0 < s.eventFd ∨ s.place.WillExchange
  timer : s.timer = tickInterval s.tickMs

/-- The invariant for the end. -/
structure ShutdownInv (s : Channel σ) : Prop where
  /-- The loop will hear of the request, or has ended. -/
  heard : s.shutdownRequested = true → 0 < s.signals ∨ 0 < s.eventFd ∨ s.place.WillShutDown ∨
    s.place.HasShutDown s.running
  running : s.running = false → s.place = .start ∨ s.place.HasShutDown s.running
  done : s.place = .done → s.running = false
  seen : s.place = .push ∨ s.place.HasShutDown s.running → s.shutdownRequested = true
  events : s.shutdownEvents = if s.place.HasShutDown s.running then 1 else 0

/-- The loop moves on, but not to or from `event_loop_apply_tick`. -/
theorem TickInv.move (h : s.TickInv) {s' : Channel σ}
    (hsame : s'.ui = s.ui ∧ s'.request = s.request ∧ s'.pendingTickMs = s.pendingTickMs ∧
      s'.tickMs = s.tickMs ∧ s'.timer = s.timer)
    (hold : ∀ tickMs, s.place ≠ .apply tickMs) (hnew : ∀ tickMs, s'.place ≠ .apply tickMs)
    (hheard : 0 < s.eventFd ∨ s.place.WillExchange → 0 < s'.eventFd ∨ s'.place.WillExchange) :
    s'.TickInv := by
  obtain ⟨hui, hrequest, hpending, htick, htimer⟩ := hsame
  refine ⟨?_, ?_, fun hs => ?_, fun hp => ?_, ?_⟩
  · rw [hui]
    exact h.nonneg
  · rw [hui, hrequest]
    exact h.store
  · rw [hrequest] at hs
    rw [hui, hpending]
    refine (h.stored hs).imp_right fun ⟨hnone, harrived⟩ => ⟨hnone, Or.inr ⟨?_, ?_⟩⟩
    · exact fun tickMs hat => absurd hat (hnew tickMs)
    · rw [htick, hui]
      exact (harrived.resolve_left (hold _)).2
  · rw [hpending] at hp
    rw [hrequest]
    exact (h.heard hp).imp_right hheard
  · rw [htimer, htick]
    exact h.timer

theorem TickInv.loopStep (h : s.TickInv) : s.loopStep.TickInv := by
  unfold Channel.loopStep
  cases hplace : s.place with
  | drain =>
    dsimp only
    split
    · exact h.move ⟨rfl, rfl, rfl, rfl, rfl⟩ (by simp [hplace]) nofun fun _ => Or.inr trivial
    · exact h.move ⟨rfl, rfl, rfl, rfl, rfl⟩ (by simp [hplace]) (by simp) fun _ => Or.inr trivial
  | exchange =>
    refine ⟨h.nonneg, h.store, fun hs => Or.inr ⟨rfl, ?_⟩, fun hp => absurd rfl hp, h.timer⟩
    -- what the loop has taken is the tick that was stored, or nothing
    rcases h.stored hs with hpending | ⟨hnone, harrived⟩
    · exact Or.inl (congrArg LoopPlace.apply hpending)
    · refine Or.inr ⟨fun tickMs hat => ?_, (harrived.resolve_left (by simp [hplace])).2⟩
      have htaken : tickMs = -1 := (LoopPlace.apply.inj hat).symm.trans hnone
      omega
  | apply tickMs =>
    have hheard : s.pendingTickMs ≠ -1 → s.request = .write ∨ 0 < s.eventFd := by
      intro hp
      have h := h.heard hp
      rw [hplace] at h
      exact h.imp_right fun hor => hor.resolve_right id
    dsimp only
    split
    · rename_i hpos
      rw [applyTick, if_pos (valid_tickInterval tickMs)]
      refine ⟨h.nonneg, h.store, fun hs => (h.stored hs).imp_right ?_,
        fun hp => (hheard hp).imp_right Or.inl, rfl⟩
      rintro ⟨hnone, hat | ⟨hneg, -⟩⟩
      · rw [hplace] at hat
        exact ⟨hnone, Or.inr ⟨nofun, LoopPlace.apply.inj hat⟩⟩
      · exact absurd (hneg tickMs hplace) (by omega)
    · rename_i hneg
      refine ⟨h.nonneg, h.store, fun hs => (h.stored hs).imp_right ?_,
        fun hp => (hheard hp).imp_right Or.inl, h.timer⟩
      rintro ⟨hnone, hat | ⟨-, htick⟩⟩
      · rw [hplace] at hat
        have hnonneg := h.nonneg
        rw [← LoopPlace.apply.inj hat] at hnonneg
        exact absurd hnonneg hneg
      · exact ⟨hnone, Or.inr ⟨nofun, htick⟩⟩
  | done => exact h
  | failed => exact h
  | start =>
    exact h.move ⟨rfl, rfl, rfl, rfl, rfl⟩ (by simp [hplace]) nofun
      (by simp [hplace, LoopPlace.WillExchange])
  | test =>
    refine h.move ⟨rfl, rfl, rfl, rfl, rfl⟩ (by simp [hplace]) (fun tickMs => ?_)
      (by simp +contextual [hplace, LoopPlace.WillExchange])
    dsimp only
    split <;> nofun
  | poll =>
    dsimp only
    split
    · exact h.move ⟨rfl, rfl, rfl, rfl, rfl⟩ (by simp [hplace]) nofun
        (by simp +contextual [hplace, LoopPlace.WillExchange])
    · exact h
  | handle control =>
    refine h.move ⟨rfl, rfl, rfl, rfl, rfl⟩ (by simp [hplace]) (fun tickMs => ?_)
      (by simp +contextual [hplace, LoopPlace.WillExchange])
    dsimp only
    split <;> nofun
  | loadShutdown =>
    refine h.move ⟨rfl, rfl, rfl, rfl, rfl⟩ (by simp [hplace]) (fun tickMs => ?_)
      (by simp +contextual [hplace, LoopPlace.WillExchange])
    dsimp only
    split <;> nofun
  | push =>
    exact h.move ⟨rfl, rfl, rfl, rfl, rfl⟩ (by simp [hplace]) nofun
      (by simp [hplace, LoopPlace.WillExchange])
  | clearRunning =>
    exact h.move ⟨rfl, rfl, rfl, rfl, rfl⟩ (by simp [hplace]) nofun
      (by simp [hplace, LoopPlace.WillExchange])

theorem TickInv.requestStep (h : s.TickInv) : s.requestStep.TickInv := by
  unfold Channel.requestStep
  cases hrequest : s.request with
  | idle => exact h
  | store tickMs =>
    have hstore := h.store tickMs hrequest
    exact ⟨h.nonneg, nofun, fun _ => Or.inl hstore, fun _ => Or.inl rfl, h.timer⟩
  | write =>
    exact ⟨h.nonneg, nofun, fun _ => h.stored (by simp [hrequest]),
      fun _ => Or.inr (Or.inl (eventFdWrite_pos _)), h.timer⟩

/-- A turn of the UI thread that is not in a request: what it asks for is a request of its own. -/
theorem TickInv.turn (h : s.TickInv) (hrequest : s.request = .idle) (t : UiTurn) :
    TickInv { s with ui := (s.ui.turn t).1, request := .of (s.ui.turn t).2 } := by
  have hheard := h.heard
  rw [hrequest] at hheard
  have hon : s.pendingTickMs ≠ -1 → 0 < s.eventFd ∨ s.place.WillExchange :=
    fun hp => (hheard hp).resolve_left nofun
  have hstored := h.stored (by simp [hrequest])
  rcases s.ui.asks_turn t with ⟨hnone, hsame⟩ | ⟨hsome, hnonneg⟩
  · rw [hnone]
    refine ⟨?_, nofun, fun _ => ?_, fun hp => Or.inr (hon hp), h.timer⟩
    · dsimp only
      rw [hsame]
      exact h.nonneg
    · unfold Arrived at hstored ⊢
      dsimp only
      rw [hsame]
      exact hstored
  · rw [hsome]
    refine ⟨hnonneg, fun tickMs heq => ?_, fun hs => absurd rfl (hs _),
      fun hp => Or.inr (hon hp), h.timer⟩
    exact (RequestPlace.store.inj heq).symm

theorem TickInv.step (h : s.TickInv) (e : Event) : (s.step e).TickInv := by
  unfold Channel.step
  cases e with
  | uiStop =>
    dsimp only
    split
    · exact ⟨h.nonneg, h.store, h.stored, h.heard, h.timer⟩
    · exact h
  | ui t =>
    cases hrequest : s.request with
    | store tickMs => exact h
    | write => exact h
    | idle => exact h.turn hrequest t
  | request => exact h.requestStep
  | loop => exact h.loopStep
  | pollOther =>
    dsimp only
    split
    · rename_i hplace
      exact h.move ⟨rfl, rfl, rfl, rfl, rfl⟩ (by simp [hplace]) nofun
        (by simp +contextual [hplace, LoopPlace.WillExchange])
    · exact h
  | pollInterrupted =>
    dsimp only
    split
    · rename_i hplace
      exact h.move ⟨rfl, rfl, rfl, rfl, rfl⟩ (by simp [hplace]) nofun
        (by simp +contextual [hplace, LoopPlace.WillExchange])
    · exact h
  | pollFails =>
    dsimp only
    split
    · rename_i hplace
      exact h.move ⟨rfl, rfl, rfl, rfl, rfl⟩ (by simp [hplace]) nofun
        (by simp +contextual [hplace, LoopPlace.WillExchange])
    · exact h
  | signal => exact ⟨h.nonneg, h.store, h.stored, h.heard, h.timer⟩
  | signalWrite =>
    dsimp only
    split
    · exact ⟨h.nonneg, h.store, h.stored, fun _ => Or.inr (Or.inl (eventFdWrite_pos _)), h.timer⟩
    · exact h

/-- The UI thread and the requests do not touch what the end is about. -/
theorem ShutdownInv.frame (h : s.ShutdownInv) {s' : Channel σ}
    (hsame : s'.place = s.place ∧ s'.running = s.running ∧ s'.shutdownEvents = s.shutdownEvents)
    (hasked : s'.shutdownRequested = true → s.shutdownRequested = true ∨ 0 < s'.signals)
    (hkept : s.shutdownRequested = true → s'.shutdownRequested = true)
    (hfd : 0 < s.signals ∨ 0 < s.eventFd → 0 < s'.signals ∨ 0 < s'.eventFd) : s'.ShutdownInv := by
  obtain ⟨hplace, hrunning, hevents⟩ := hsame
  refine ⟨fun hs => ?_, ?_, ?_, ?_, ?_⟩
  · rw [hplace, hrunning]
    rcases hasked hs with hold | hsignals
    · rw [← or_assoc]
      exact (or_assoc.2 (h.heard hold)).imp_left hfd
    · exact Or.inl hsignals
  · rw [hplace, hrunning]
    exact h.running
  · rw [hplace, hrunning]
    exact h.done
  · rw [hplace, hrunning]
    exact fun hs => hkept (h.seen hs)
  · rw [hevents, hplace, hrunning]
    exact h.events

/-- The loop moves on while it runs, and not to the end. -/
theorem ShutdownInv.move (h : s.ShutdownInv) {s' : Channel σ}
    (hsame : s'.shutdownRequested = s.shutdownRequested ∧ s'.running = true ∧
      s'.shutdownEvents = s.shutdownEvents ∧ s'.signals = s.signals)
    (hold : ¬s.place.HasShutDown s.running) (hnew : s'.place ≠ .clearRunning ∧ s'.place ≠ .push ∧ s'.place ≠ .done)
    (hheard : s.shutdownRequested = true → 0 < s.eventFd ∨ s.place.WillShutDown →
      0 < s'.eventFd ∨ s'.place.WillShutDown) : s'.ShutdownInv := by
  obtain ⟨hasked, hrunning, hevents, hsignals⟩ := hsame
  have hnot : ¬s'.place.HasShutDown s'.running := by
    rw [hrunning]
    rintro (hc | ⟨hr, -⟩)
    · exact hnew.1 hc
    · cases hr
  refine ⟨fun hs => ?_, fun hs => ?_, fun hs => absurd hs hnew.2.2, fun hs => ?_, ?_⟩
  · rw [hsignals, ← or_assoc (a := 0 < s'.eventFd)]
    rw [hasked] at hs
    refine (h.heard hs).imp_right fun hor => Or.inl (hheard hs ?_)
    rw [← or_assoc] at hor
    exact hor.resolve_right hold
  · rw [hrunning] at hs
    cases hs
  · exact absurd hs (not_or.2 ⟨hnew.2.1, hnot⟩)
  · rw [hevents, h.events, if_neg hold, if_neg hnot]

theorem ShutdownInv.isRunning (h : s.ShutdownInv) (hstart : s.place ≠ .start)
    (hnot : ∀ running, ¬s.place.HasShutDown running) : s.running = true := by
  by_contra hstopped
  exact (h.running (by simpa using hstopped)).elim hstart (hnot _)

theorem ShutdownInv.loopStep (h : s.ShutdownInv) : s.loopStep.ShutdownInv := by
  unfold Channel.loopStep
  cases hplace : s.place with
  | start =>
    exact h.move ⟨rfl, rfl, rfl, rfl⟩ (by simp [hplace, LoopPlace.HasShutDown]) (by simp)
      (by simp [hplace, LoopPlace.WillShutDown])
  | test =>
    cases hrunning : s.running with
    | true =>
      exact h.move ⟨rfl, rfl, rfl, rfl⟩ (by simp [hplace, hrunning, LoopPlace.HasShutDown])
        (by simp) (by simp +contextual [hplace, LoopPlace.WillShutDown])
    | false =>
      have hshut : s.place.HasShutDown s.running := Or.inr ⟨hrunning, Or.inl hplace⟩
      have hshut' : LoopPlace.done.HasShutDown false := Or.inr ⟨rfl, Or.inr rfl⟩
      refine ⟨fun _ => Or.inr (Or.inr (Or.inr hshut')), fun _ => Or.inr hshut', fun _ => rfl,
        fun _ => h.seen (Or.inr hshut), ?_⟩
      have hevents := h.events
      rw [if_pos hshut] at hevents
      exact hevents.trans (if_pos hshut').symm
  | poll =>
    have hrunning := h.isRunning (by simp [hplace]) (by simp [hplace, LoopPlace.HasShutDown])
    dsimp only
    split
    · exact h.move ⟨rfl, hrunning, rfl, rfl⟩ (by simp [hplace, LoopPlace.HasShutDown]) (by simp)
        (by simp +contextual [hplace, LoopPlace.WillShutDown])
    · exact h
  | handle control =>
    have hrunning := h.isRunning (by simp [hplace]) (by simp [hplace, LoopPlace.HasShutDown])
    refine h.move ⟨rfl, hrunning, rfl, rfl⟩ (by simp [hplace, LoopPlace.HasShutDown]) ?_
      (by simp +contextual [hplace, LoopPlace.WillShutDown])
    dsimp only
    split <;> simp
  | drain =>
    have hrunning := h.isRunning (by simp [hplace]) (by simp [hplace, LoopPlace.HasShutDown])
    dsimp only
    split
    · exact h.move ⟨rfl, hrunning, rfl, rfl⟩ (by simp [hplace, LoopPlace.HasShutDown]) (by simp)
        fun _ _ => Or.inr trivial
    · exact h.move ⟨rfl, hrunning, rfl, rfl⟩ (by simp [hplace, LoopPlace.HasShutDown]) (by simp)
        fun _ _ => Or.inr trivial
  | exchange =>
    have hrunning := h.isRunning (by simp [hplace]) (by simp [hplace, LoopPlace.HasShutDown])
    exact h.move ⟨rfl, hrunning, rfl, rfl⟩ (by simp [hplace, LoopPlace.HasShutDown]) (by simp)
      fun _ _ => Or.inr trivial
  | apply tickMs =>
    have hrunning := h.isRunning (by simp [hplace]) (by simp [hplace, LoopPlace.HasShutDown])
    have hsame : ∀ s' : Channel σ, s' = s.applyTick tickMs ∨ s' = s →
        s'.shutdownRequested = s.shutdownRequested ∧ s'.running = s.running ∧
          s'.shutdownEvents = s.shutdownEvents ∧ s'.signals = s.signals := by
      rintro s' (rfl | rfl)
      · unfold applyTick
        split <;> exact ⟨rfl, rfl, rfl, rfl⟩
      · exact ⟨rfl, rfl, rfl, rfl⟩
    obtain ⟨hasked, hrun, hevents, hsignals⟩ :=
      hsame (if 0 ≤ tickMs then s.applyTick tickMs else s) (by split <;> simp)
    exact h.move ⟨hasked, hrun.trans hrunning, hevents, hsignals⟩
      (by simp [hplace, LoopPlace.HasShutDown]) (by simp) fun _ _ => Or.inr trivial
  | loadShutdown =>
    have hrunning := h.isRunning (by simp [hplace]) (by simp [hplace, LoopPlace.HasShutDown])
    have hnot : ¬s.place.HasShutDown s.running := by simp [hplace, LoopPlace.HasShutDown]
    cases hasked : s.shutdownRequested with
    | true =>
      have hnot' : ¬LoopPlace.push.HasShutDown s.running := by simp [LoopPlace.HasShutDown]
      refine ⟨fun _ => Or.inr (Or.inr (Or.inl trivial)), fun hs => ?_, nofun, fun _ => rfl, ?_⟩
      · exact nomatch hrunning.symm.trans hs
      · have hevents := h.events
        rw [if_neg hnot] at hevents
        exact hevents.trans (if_neg hnot').symm
    | false =>
      exact h.move ⟨hasked.symm, hrunning, rfl, rfl⟩ hnot (by simp)
        fun hs => nomatch hasked.symm.trans hs
  | push =>
    have hnot : ¬s.place.HasShutDown s.running := by simp [hplace, LoopPlace.HasShutDown]
    have hshut : LoopPlace.clearRunning.HasShutDown s.running := Or.inl rfl
    refine ⟨fun _ => Or.inr (Or.inr (Or.inl trivial)), fun _ => Or.inr hshut, nofun,
      fun _ => h.seen (Or.inl hplace), ?_⟩
    have hevents := h.events
    rw [if_neg hnot] at hevents
    show s.shutdownEvents + 1 = if LoopPlace.clearRunning.HasShutDown s.running then 1 else 0
    rw [hevents, if_pos hshut]
  | clearRunning =>
    have hshut : s.place.HasShutDown s.running := Or.inl hplace
    have hshut' : LoopPlace.test.HasShutDown false := Or.inr ⟨rfl, Or.inl rfl⟩
    refine ⟨fun _ => Or.inr (Or.inr (Or.inr hshut')), fun _ => Or.inr hshut', nofun,
      fun _ => h.seen (Or.inr hshut), ?_⟩
    have hevents := h.events
    rw [if_pos hshut] at hevents
    exact hevents.trans (if_pos hshut').symm
  | done => exact h
  | failed => exact h

theorem ShutdownInv.step (h : s.ShutdownInv) (e : Event) : (s.step e).ShutdownInv := by
  unfold Channel.step
  cases e with
  | ui t =>
    dsimp only
    split
    · exact h.frame ⟨rfl, rfl, rfl⟩ Or.inl id id
    · exact h
  | uiStop =>
    dsimp only
    split
    · exact h.frame ⟨rfl, rfl, rfl⟩ Or.inl id id
    · exact h
  | request =>
    unfold Channel.requestStep
    cases s.request with
    | idle => exact h
    | store tickMs => exact h.frame ⟨rfl, rfl, rfl⟩ Or.inl id id
    | write =>
      exact h.frame ⟨rfl, rfl, rfl⟩ Or.inl id fun hor => hor.imp_right fun _ => eventFdWrite_pos _
  | loop => exact h.loopStep
  | signal =>
    exact h.frame ⟨rfl, rfl, rfl⟩ (fun _ => Or.inr (Nat.succ_pos _)) (fun _ => rfl)
      fun _ => Or.inl (Nat.succ_pos _)
  | signalWrite =>
    dsimp only
    split
    · exact h.frame ⟨rfl, rfl, rfl⟩ Or.inl id fun _ => Or.inr (eventFdWrite_pos _)
    · exact h
  | pollOther =>
    dsimp only
    split
    · rename_i hplace
      have hrunning := h.isRunning (by simp [hplace]) (by simp [hplace, LoopPlace.HasShutDown])
      exact h.move ⟨rfl, hrunning, rfl, rfl⟩ (by simp [hplace, LoopPlace.HasShutDown]) (by simp)
        (by simp +contextual [hplace, LoopPlace.WillShutDown])
    · exact h
  | pollInterrupted =>
    dsimp only
    split
    · rename_i hplace
      have hrunning := h.isRunning (by simp [hplace]) (by simp [hplace, LoopPlace.HasShutDown])
      exact h.move ⟨rfl, hrunning, rfl, rfl⟩ (by simp [hplace, LoopPlace.HasShutDown]) (by simp)
        (by simp +contextual [hplace, LoopPlace.WillShutDown])
    · exact h
  | pollFails =>
    dsimp only
    split
    · rename_i hplace
      have hrunning := h.isRunning (by simp [hplace]) (by simp [hplace, LoopPlace.HasShutDown])
      exact h.move ⟨rfl, hrunning, rfl, rfl⟩ (by simp [hplace, LoopPlace.HasShutDown]) (by simp)
        (by simp +contextual [hplace, LoopPlace.WillShutDown])
    · exact h

/-! ## Runs -/

variable (pages : List (Option (Page σ))) (pageState : σ) (display : Display)

theorem tickInv_start : (start pages pageState display).TickInv := by
  have hidle : 0 ≤ uiIdleTickMs := by decide
  have hasks : (UiThread.startDefault pages pageState display).2 =
      some (UiThread.startDefault pages pageState display).1.tickMs ∧
      0 ≤ (UiThread.startDefault pages pageState display).1.tickMs := ⟨rfl, hidle⟩
  refine ⟨hasks.2, fun tickMs hstore => ?_, fun hs => ?_, fun hp => absurd rfl hp, rfl⟩
  · rw [start, hasks.1] at hstore
    exact (RequestPlace.store.inj hstore).symm
  · exact absurd (congrArg RequestPlace.of hasks.1) (hs _)

theorem shutdownInv_start : (start pages pageState display).ShutdownInv :=
  ⟨nofun, fun _ => Or.inl rfl, nofun, fun hs => by simp [start, LoopPlace.HasShutDown] at hs,
    by simp [start, LoopPlace.HasShutDown]⟩

/-- The state after the steps `es` of the threads. -/
def after (es : List Event) : Channel σ := run step (start pages pageState display) es

variable {pages pageState display} {es : List Event}

/-- No request is lost: when the UI thread is not in a request and the loop waits in `poll` on an
empty eventfd, the timer is set to what the UI thread counts on. -/
theorem TickInv.arrived (h : s.TickInv) (hidle : s.request = .idle) (hpoll : s.place = .poll)
    (hempty : s.eventFd = 0) : s.timer = tickInterval s.ui.tickMs := by
  have hnone : s.pendingTickMs = -1 := by
    by_contra hpending
    rcases h.heard hpending with hwrite | hpos | hwill
    · rw [hidle] at hwrite
      cases hwrite
    · omega
    · rw [hpoll] at hwill
      exact hwill
  have harrived : s.tickMs = s.ui.tickMs := by
    rcases h.stored (by simp [hidle]) with hpending | ⟨-, hat | ⟨-, htick⟩⟩
    · have hnonneg := h.nonneg
      omega
    · rw [hpoll] at hat
      cases hat
    · exact htick
  rw [h.timer, harrived]

theorem ticking_after
    (hcounted : ∀ event, Event.ui (.event event) ∈ es → UiThread.Counted event) :
    (after pages pageState display es).ui.Ticking := by
  have hstep : ∀ (s : Channel σ) (e : Event), s.ui.Ticking →
      (∀ event, e = .ui (.event event) → UiThread.Counted event) → (s.step e).ui.Ticking := by
    intro s e h hc
    unfold step
    cases e with
    | ui t =>
      dsimp only
      split
      · exact h.step (e := .turn t) fun event heq => hc event (by rw [UiThread.Event.turn.inj heq])
      · exact h
    | uiStop =>
      dsimp only
      split
      · exact h.step (e := .stop) nofun
      · exact h
    | request =>
      unfold requestStep
      dsimp only
      split <;> exact h
    | loop =>
      unfold loopStep applyTick
      dsimp only
      repeat' split
      all_goals exact h
    | signal => exact h
    | _ =>
      dsimp only
      split <;> exact h
  refine run_invariant_along (P := fun s : Channel σ => s.ui.Ticking)
    (G := fun _ e => ∀ event, e = .ui (.event event) → UiThread.Counted event) hstep
    (UiThread.ticking_startDefault pages pageState display) (along_of_forall fun e he event h => ?_)
  subst h
  exact hcounted event he

/-- **The timer follows the screen**, in every interleaving of the UI thread, the event loop and
signal handlers. When the UI thread is not in a request and the loop waits in `poll` on an empty
eventfd, the timer is stopped if the screen is off or the UI thread has handled `EVT_SHUTDOWN`, and
otherwise runs: every 50 ms if something is animated, and every 50 ms or every second if not. -/
theorem timer_follows_screen
    (hcounted : ∀ event, Event.ui (.event event) ∈ es → UiThread.Counted event)
    (hs : after pages pageState display es = s) (hidle : s.request = .idle)
    (hpoll : s.place = .poll) (hempty : s.eventFd = 0) :
    (s.ui.ShutDown ∨ s.ui.controller.pageCtrl.screenState = .off → s.timer = ⟨0, 0⟩) ∧
      (¬s.ui.ShutDown → s.ui.controller.pageCtrl.screenState = .on →
        (s.timer = ⟨0, 50000000⟩ ∨ s.timer = ⟨1, 0⟩) ∧
          (s.ui.controller.pageCtrl.isAnimating = true → s.timer = ⟨0, 50000000⟩)) := by
  have htick : s.TickInv := hs ▸ run_invariant (P := TickInv) (fun _ e h => h.step e)
    (tickInv_start pages pageState display) es
  have hticking : s.ui.Ticking := hs ▸ ticking_after hcounted
  rw [htick.arrived hidle hpoll hempty]
  refine ⟨fun hoff => ?_, fun hrunning hon => ?_⟩
  · rw [hticking.tick_off hoff]
    rfl
  · obtain ⟨hrate, hanim⟩ := hticking.tick_on hrunning hon
    refine ⟨hrate.imp (fun h => ?_) fun h => ?_, fun h => ?_⟩
    · rw [h]
      rfl
    · rw [h]
      rfl
    · rw [hanim h]
      rfl

/-- Both threads come to rest, K1 starts a slide, and both come to rest again. -/
def slideTwice : List Event :=
  [.request, .request] ++ List.replicate 10 .loop ++
    [.ui .test, .ui (.event { type := .btnK1Short, timestampNs := 1000000 }), .request,
      .request] ++
    List.replicate 8 .loop

/-- The timer runs every 50 ms. -/
theorem timer_follows_screen_slide :
    (after [some {}, some {}] () { attached := true, hasU8g2 := true } slideTwice).timer =
      ⟨0, 50000000⟩ :=
  ((timer_follows_screen (by simp [slideTwice, UiThread.Counted]) rfl rfl rfl
    rfl).2 (by decide) rfl).2 rfl

/-- **No request to shut down is slept through, and it is passed on once.** After any steps of the
threads: while the loop waits in `poll` on an empty eventfd and no signal handler is about to write
to it, nobody has asked for the end; `EVT_SHUTDOWN` is pushed at most once, and has been when the
loop returns 0, which it does only if it was asked for. -/
theorem shutdown_heard (hs : after pages pageState display es = s) :
    (s.place = .poll → s.eventFd = 0 → s.signals = 0 → s.shutdownRequested = false) ∧
      s.shutdownEvents ≤ 1 ∧
      (s.place = .done → s.shutdownRequested = true ∧ s.shutdownEvents = 1) := by
  have h : s.ShutdownInv := hs ▸ run_invariant (P := ShutdownInv) (fun _ e h => h.step e)
    (shutdownInv_start pages pageState display) es
  refine ⟨fun hpoll hempty hsignals => ?_, ?_, fun hdone => ?_⟩
  · by_contra hasked
    rcases h.heard (by simpa using hasked) with hpos | hpos | hwill | hhas
    · omega
    · omega
    · rw [hpoll] at hwill
      exact hwill
    · simp [hpoll, LoopPlace.HasShutDown] at hhas
  · rw [h.events]
    split <;> decide
  · have hhas : s.place.HasShutDown s.running := Or.inr ⟨h.done hdone, Or.inr hdone⟩
    exact ⟨h.seen (Or.inr hhas), h.events.trans (if_pos hhas)⟩

/-! ## The end -/

/-- After `n` steps of its own the loop has returned 0. -/
def Ends (n : ℕ) (s : Channel σ) : Prop := (loopStep^[n] s).place = .done

variable {n : ℕ}

theorem Ends.next (h : Ends n s.loopStep) : Ends (n + 1) s := by
  rw [Ends, Function.iterate_succ_apply]
  exact h

theorem Ends.succ (h : Ends n s) : Ends (n + 1) s := by
  unfold Ends at h ⊢
  rw [Function.iterate_succ_apply', loopStep, h]
  exact h

theorem Ends.mono {m : ℕ} (h : Ends n s) (hle : n ≤ m) : Ends m s := by
  induction hle with
  | refl => exact h
  | step _ ih => exact ih.succ

theorem ends_test (hplace : s.place = .test) (hrunning : s.running = false) : Ends 1 s := by
  simp [Ends, loopStep, hplace, hrunning]

theorem ends_clearRunning (hplace : s.place = .clearRunning) : Ends 2 s :=
  (ends_test (by simp [loopStep, hplace]) (by simp [loopStep, hplace])).next

theorem ends_push (hplace : s.place = .push) : Ends 3 s :=
  (ends_clearRunning (by simp [loopStep, hplace])).next

theorem ends_loadShutdown (hplace : s.place = .loadShutdown) (hasked : s.shutdownRequested = true) :
    Ends 4 s := (ends_push (by simp [loopStep, hplace, hasked])).next

theorem shutdownRequested_applyTick (s : Channel σ) (tickMs : ℤ) :
    (s.applyTick tickMs).shutdownRequested = s.shutdownRequested := by
  unfold applyTick
  split <;> rfl

theorem ends_apply {tickMs : ℤ} (hplace : s.place = .apply tickMs)
    (hasked : s.shutdownRequested = true) : Ends 5 s := by
  refine (ends_loadShutdown (by simp [loopStep, hplace]) ?_).next
  simp only [loopStep, hplace]
  split
  · exact (s.shutdownRequested_applyTick tickMs).trans hasked
  · exact hasked

theorem ends_exchange (hplace : s.place = .exchange) (hasked : s.shutdownRequested = true) :
    Ends 6 s := by
  have hat : s.loopStep.place = .apply s.pendingTickMs := by simp [loopStep, hplace]
  exact (ends_apply hat (by simp [loopStep, hplace, hasked])).next

/-- An empty eventfd is read once, another one twice. -/
theorem ends_drain (hplace : s.place = .drain) (hasked : s.shutdownRequested = true) :
    Ends 8 s := by
  have hempty : ∀ s : Channel σ, s.place = .drain → s.shutdownRequested = true → s.eventFd = 0 →
      Ends 7 s := by
    intro s hplace hasked hempty
    exact (ends_exchange (by simp [loopStep, hplace, hempty])
      (by simp [loopStep, hplace, hempty, hasked])).next
  by_cases hpos : 0 < s.eventFd
  · exact (hempty s.loopStep (by simp [loopStep, hplace, hpos])
      (by simp [loopStep, hplace, hpos, hasked]) (by simp [loopStep, hplace, hpos])).next
  · exact (hempty s hplace hasked (by omega)).succ

theorem ends_poll (hplace : s.place = .poll) (hasked : s.shutdownRequested = true)
    (hpos : 0 < s.eventFd) : Ends 10 s := by
  refine Ends.next (Ends.next (ends_drain ?_ ?_))
  · simp [loopStep, hplace, hpos]
  · simp [loopStep, hplace, hpos, hasked]

theorem ends_running (hplace : s.place = .test) (hrunning : s.running = true)
    (hasked : s.shutdownRequested = true) (hpos : 0 < s.eventFd) : Ends 11 s :=
  (ends_poll (by simp [loopStep, hplace, hrunning]) (by simp [loopStep, hplace, hasked])
    (by simp [loopStep, hplace, hpos])).next

/-- **The loop ends.** After any steps of the threads, when somebody has asked for the end and no
signal handler is about to write to the eventfd, the loop left alone returns 0 within twelve steps,
unless `poll` has failed; `EVT_SHUTDOWN` has then been pushed once. -/
theorem shutdown_ends (hs : after pages pageState display es = s)
    (hasked : s.shutdownRequested = true) (hsignals : s.signals = 0) (hplace : s.place ≠ .failed) :
    (loopStep^[12] s).place = .done ∧ (loopStep^[12] s).shutdownEvents = 1 := by
  have h : s.ShutdownInv := hs ▸ run_invariant (P := ShutdownInv) (fun _ e h => h.step e)
    (shutdownInv_start pages pageState display) es
  have hheard := (h.heard hasked).resolve_left (by omega)
  have hpos : ¬s.place.WillShutDown → ¬s.place.HasShutDown s.running → 0 < s.eventFd := by
    intro hwill hhas
    exact hheard.resolve_right (not_or.2 ⟨hwill, hhas⟩)
  have hends : Ends 12 s := by
    cases hat : s.place with
    | start =>
      have hfd := hpos (by simp [hat, LoopPlace.WillShutDown])
        (by simp [hat, LoopPlace.HasShutDown])
      exact (ends_running (by simp [loopStep, hat]) (by simp [loopStep, hat])
        (by simp [loopStep, hat, hasked]) (by simp [loopStep, hat, hfd])).next
    | test =>
      cases hrunning : s.running with
      | false => exact (ends_test hat hrunning).mono (by decide)
      | true =>
        have hfd := hpos (by simp [hat, LoopPlace.WillShutDown])
          (by simp [hat, hrunning, LoopPlace.HasShutDown])
        exact (ends_running hat hrunning hasked hfd).succ
    | poll =>
      have hfd := hpos (by simp [hat, LoopPlace.WillShutDown])
        (by simp [hat, LoopPlace.HasShutDown])
      exact (ends_poll hat hasked hfd).mono (by decide)
    | handle control =>
      have hfd := hpos (by simp [hat, LoopPlace.WillShutDown])
        (by simp [hat, LoopPlace.HasShutDown])
      have hrunning := h.isRunning (by simp [hat]) (by simp [hat, LoopPlace.HasShutDown])
      cases control with
      | true =>
        exact ((ends_drain (by simp [loopStep, hat]) (by simp [loopStep, hat, hasked])).next).mono
          (by decide)
      | false =>
        exact (ends_running (by simp [loopStep, hat]) (by simp [loopStep, hat, hrunning])
          (by simp [loopStep, hat, hasked]) (by simp [loopStep, hat, hfd])).next
    | drain => exact (ends_drain hat hasked).mono (by decide)
    | exchange => exact (ends_exchange hat hasked).mono (by decide)
    | apply tickMs => exact (ends_apply hat hasked).mono (by decide)
    | loadShutdown => exact (ends_loadShutdown hat hasked).mono (by decide)
    | push => exact (ends_push hat).mono (by decide)
    | clearRunning => exact (ends_clearRunning hat).mono (by decide)
    | done => exact Ends.mono (n := 0) hat (by decide)
    | failed => exact absurd hat hplace
  have hinv : ∀ (n : ℕ) (s : Channel σ), s.ShutdownInv → (loopStep^[n] s).ShutdownInv := by
    intro n
    induction n with
    | zero => exact fun s h => h
    | succ n ih => exact fun s h => ih s.loopStep h.loopStep
  have h' := hinv 12 s h
  have hhas : (loopStep^[12] s).place.HasShutDown (loopStep^[12] s).running :=
    Or.inr ⟨h'.done hends, Or.inr hends⟩
  exact ⟨hends, h'.events.trans (if_pos hhas)⟩

/-- A signal while the loop waits in `poll`. -/
def signalled : List Event := List.replicate 2 .loop ++ [.signal, .signalWrite]

theorem shutdown_ends_signalled :
    (loopStep^[12] (after [some {}] () { attached := false, hasU8g2 := false } signalled)).place =
      .done :=
  (shutdown_ends rfl rfl rfl (by decide)).1

theorem shutdown_heard_signalled :
    (after [some {}] () { attached := false, hasU8g2 := false }
      (signalled ++ List.replicate 12 .loop)).shutdownEvents = 1 :=
  ((shutdown_heard rfl).2.2 rfl).2

end Channel

end NanoHat.Adr0005
