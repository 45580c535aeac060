import NanoHat.Adr0005.EventQueue
import NanoHat.Hal.GpioDebounce

/-!
# From the edges of the buttons to the events of the application

The button HAL of the threaded implementation, `hal/gpio_hal_libgpiod.c`, and
`event_loop_handle_gpio`, which asks it for events and posts them to the event queue. This HAL has
no timer: a press is reported when it is released, and is long if it lasted `LONG_PRESS_MS`. Edges,
their types and the queue of pending events are those of the other HAL.

Whatever the edges are, and however they arrive between the reads, every accepted press is reported
once, in order, and as what it was (`presses_posted`). Events that stay pending wait for the next
edge, since the descriptor is not readable for them; that takes a handling that reads more than
thirty edges (`posted_at_once`).
-/

namespace NanoHat.Adr0005

open Runs
open Gpio (EdgeEvent GpioEvent EventType maxPendingEvents edgeBufferCapacity lineEdges lineEvents
  presses held isLong lockedOut debounced ButtonEdge)

/-- `LONG_PRESS_MS` -/
def longPressMs : UInt64 := 600

/-- `DEBOUNCE_MS` -/
def debounceMs : UInt64 := 30

/-- `MAX_GPIO_EVENTS_PER_POLL` -/
def maxGpioEventsPerPoll : ℕ := 16

/-- The entries of `g_press_time_ms`, `g_last_edge_ms` and `g_pressed` of one button. -/
structure Button where
  pressTimeMs : UInt64 := 0
  lastEdgeMs : UInt64 := 0
  pressed : Bool := false
  deriving DecidableEq

/-- The static variables of `gpio_hal_libgpiod.c`, the edges that the kernel holds, those that were
read and the events that were returned. -/
structure GpioHal where
  /-- `g_request` is set -/
  requested : Bool := false
  pressedLevel : ℤ := 0
  useSoftDebounce : Bool := false
  buttons : Fin 3 → Button := fun _ => {}
  pending : Gpio.EventQueue := .empty
  unread : List EdgeEvent := []
  taken : List EdgeEvent := []
  delivered : List GpioEvent := []

/-- What `gpio_hal_libgpiod_wait_event` returns: 1 with an event, 0, or a negative value. -/
inductive WaitResult
  | event (e : GpioEvent)
  | timeout
  | error
  deriving DecidableEq

/-- What one turn of its loop sees: the clock, what `poll` returns, the edges that reach the kernel
before the read is over (a read that finds none waits), and how many edges it yields, if it does not
fail. -/
structure WaitRound where
  nowMs : UInt64 := 0
  poll : ℤ := 1
  arrived : List EdgeEvent := []
  read : Option ℕ

namespace GpioHal

variable (btnOffsets : Fin 3 → ℕ)

def setButton (s : GpioHal) (i : Fin 3) (b : Button) : GpioHal :=
  { s with buttons := Function.update s.buttons i b }

def pendingPush (s : GpioHal) (event : GpioEvent) : GpioHal :=
  { s with pending := s.pending.pendingPush event }

/-- `process_edge_event` -/
def processEdgeEvent (s : GpioHal) (e : EdgeEvent) : GpioHal :=
  match Gpio.State.findLine btnOffsets e.offset with
  | none => s
  | some i =>
    let nowMs := e.timeMs
    let b := s.buttons i
    if s.useSoftDebounce ∧ b.lastEdgeMs ≠ 0 ∧ nowMs - b.lastEdgeMs < debounceMs then s
    else
      let b := { b with lastEdgeMs := nowMs }
      if e.newValue = s.pressedLevel then
        s.setButton i { b with pressed := true, pressTimeMs := nowMs }
      else if b.pressed then
        let elapsed := nowMs - b.pressTimeMs
        (s.setButton i { b with pressed := false }).pendingPush
          { type := Gpio.toButtonEvent i (longPressMs ≤ elapsed), line := i,
            timestampNs := e.timestampNs }
      else s.setButton i b

/-- The loop over the edges of a read that yields `n`. -/
def processEdges (s : GpioHal) (n : ℕ) : GpioHal :=
  (s.unread.take n).foldl (processEdgeEvent btnOffsets)
    { s with unread := s.unread.drop n, taken := s.taken ++ s.unread.take n }

/-- `pending_pop`, for an event that is returned. -/
def pendingPop (s : GpioHal) : Option GpioEvent × GpioHal :=
  match s.pending.pendingPop with
  | some (e, q) => (some e, { s with pending := q, delivered := s.delivered ++ [e] })
  | none => (none, s)

/-- `read_and_process_edges`: `none` for -1, and an event for 1. A read yields at most 16 edges. -/
def readAndProcessEdges (s : GpioHal) (round : WaitRound) :
    Option (Option GpioEvent) × GpioHal :=
  let s := { s with unread := s.unread ++ round.arrived }
  match round.read with
  | none => (none, s)
  | some n =>
    let (e, s) := (s.processEdges btnOffsets (min n edgeBufferCapacity)).pendingPop
    (some e, s)

/-- The loop of `gpio_hal_libgpiod_wait_event`, called at `startMs`; `none` while it waits for the
next turn. -/
def waitLoop (timeoutMs : ℤ) (startMs : UInt64) :
    List WaitRound → GpioHal → Option WaitResult × GpioHal
  | rounds, s =>
    match s.pendingPop with
    | (some e, s) => (some (.event e), s)
    | (none, s) =>
      match rounds with
      | [] => (none, s)
      | round :: rounds =>
        if timeoutMs = 0 then
          match s.readAndProcessEdges btnOffsets round with
          | (none, s) => (some .error, s)
          | (some (some e), s) => (some (.event e), s)
          | (some none, s) => (some .timeout, s)
        else if 0 ≤ timeoutMs ∧ timeoutMs ≤ (round.nowMs - startMs).toNat then (some .timeout, s)
        else if round.poll < 0 then (some .error, s)
        else if round.poll = 0 then (some .timeout, s)
        else
          match s.readAndProcessEdges btnOffsets round with
          | (none, s) => (some .error, s)
          | (some (some e), s) => (some (.event e), s)
          | (some none, s) => waitLoop timeoutMs startMs rounds s

/-- `gpio_hal_libgpiod_wait_event` -/
def waitEvent (timeoutMs : ℤ) (startMs : UInt64) (rounds : List WaitRound) (s : GpioHal) :
    Option WaitResult × GpioHal :=
  if !s.requested then (some .error, s) else waitLoop btnOffsets timeoutMs startMs rounds s

/-- The outcomes of the calls that `gpio_hal_libgpiod_init` makes. -/
structure InitEnv where
  chipOpens : Bool
  /-- the request with hardware debounce -/
  requestDebounced : Bool
  /-- `errno` of a failed request is `ENOTSUP` or `EINVAL` -/
  debounceUnsupported : Bool
  /-- the request without debounce -/
  requestPlain : Bool
  bufferAllocated : Bool
  /-- the line values, negative on failure -/
  values : Fin 3 → ℤ

/-- `gpio_hal_libgpiod_init`; `none` when it fails. -/
def init (env : InitEnv) : Option GpioHal :=
  if !env.chipOpens then none
  else
    let useSoftDebounce := !env.requestDebounced && env.debounceUnsupported
    let requested := env.requestDebounced || (useSoftDebounce && env.requestPlain)
    let pressedLevel := Gpio.State.detectPressedLevel env.values
    if !requested || !env.bufferAllocated then none
    else if pressedLevel < 0 then none
    else some { requested := true, pressedLevel := pressedLevel, useSoftDebounce := useSoftDebounce }

end GpioHal

/-! ## One button -/

namespace Button

/-- What an accepted edge does to its button, and the kind of the press it ends, if it ends one. -/
def edge (b : Button) (e : ButtonEdge) : Button × Option Bool :=
  if e.1 then ({ b with lastEdgeMs := e.2, pressed := true, pressTimeMs := e.2 }, none)
  else if b.pressed then
    ({ b with lastEdgeMs := e.2, pressed := false }, some (longPressMs ≤ e.2 - b.pressTimeMs))
  else ({ b with lastEdgeMs := e.2 }, none)

/-- The entries of a button agree with its accepted edges. -/
structure Tracks (b : Button) (es : List ButtonEdge) : Prop where
  held : held es = if b.pressed then some b.pressTimeMs else none
  last : ∀ e ∈ es.getLast?, b.lastEdgeMs = e.2
  first : es = [] → b.lastEdgeMs = 0

variable {b : Button} {es : List ButtonEdge}

theorem tracks_initial : Tracks {} [] where
  held := rfl
  last := by simp
  first _ := rfl

theorem lastEdgeMs_edge (b : Button) (e : ButtonEdge) : (b.edge e).1.lastEdgeMs = e.2 := by
  unfold edge
  split_ifs <;> rfl

theorem tracks_edge (b : Button) (es : List ButtonEdge) (e : ButtonEdge) :
    Tracks (b.edge e).1 (es ++ [e]) where
  held := by
    obtain ⟨press, t⟩ := e
    rw [Gpio.held_concat]
    unfold Button.edge
    cases press with
    | true => simp
    | false => cases b.pressed <;> simp
  last := by
    intro e' he'
    simp only [List.getLast?_append, List.getLast?_singleton, Option.some_or,
      Option.mem_some_iff] at he'
    rw [lastEdgeMs_edge, he']
  first := by simp

/-- The press that an edge ends is the one that was held. -/
theorem Tracks.presses_concat (h : Tracks b es) (e : ButtonEdge) :
    (presses (es ++ [e])).map isLong = (presses es).map isLong ++ (b.edge e).2.toList := by
  obtain ⟨press, t⟩ := e
  have hheld : Gpio.heldFrom none es = if b.pressed then some b.pressTimeMs else none := h.held
  rw [presses, Gpio.pressesFrom_append, List.map_append, hheld]
  congr 1
  unfold Button.edge
  cases press with
  | true => rfl
  | false => cases hpressed : b.pressed <;> rfl

/-- The lockout looks at the last edge that was accepted. -/
theorem Tracks.debounced_concat (h : Tracks b (debounced es)) (e : ButtonEdge) :
    debounced (es ++ [e]) =
      debounced es ++ if lockedOut b.lastEdgeMs e.2 then [] else [e] := by
  rw [debounced, Gpio.debouncedFrom_append [e] h.last h.first]
  rfl

/-- A press counts for one half of an event. -/
theorem weight_edge (b : Button) (e : ButtonEdge) :
    2 * (b.edge e).2.toList.length + (b.edge e).1.pressed.toNat ≤ b.pressed.toNat + 1 := by
  unfold edge
  split_ifs with hpress hpressed
  · simp
  · simp [hpressed]
  · simp

end Button

/-! ## The accepted edges -/

namespace GpioHal

variable {btnOffsets : Fin 3 → ℕ} {s s' : GpioHal} {seen : List EdgeEvent}

/-- The events that were produced so far. -/
def produced (s : GpioHal) : List GpioEvent := s.delivered ++ s.pending.contents

/-- The edges of button `i` that are accepted among `es`. -/
def accepted (btnOffsets : Fin 3 → ℕ) (s : GpioHal) (i : Fin 3) (es : List EdgeEvent) :
    List ButtonEdge :=
  if s.useSoftDebounce then debounced (lineEdges btnOffsets s.pressedLevel i es)
  else lineEdges btnOffsets s.pressedLevel i es

/-- How many buttons are pressed. -/
def heldCount (s : GpioHal) : ℕ := (List.finRange 3).countP fun i => (s.buttons i).pressed

theorem heldCount_setButton (s : GpioHal) (i : Fin 3) (b : Button) :
    (s.setButton i b).heldCount + (s.buttons i).pressed.toNat =
      s.heldCount + b.pressed.toNat := by
  have hsum (f : Fin 3 → Bool) :
      (List.finRange 3).countP f = (f 0).toNat + (f 1).toNat + (f 2).toNat := by
    cases h₀ : f 0 <;> cases h₁ : f 1 <;> cases h₂ : f 2 <;>
      simp [List.finRange_succ, h₀, h₁, h₂]
  unfold heldCount setButton
  rw [hsum, hsum]
  obtain rfl | rfl | rfl : i = 0 ∨ i = 1 ∨ i = 2 := by omega
  · simp
    omega
  · simp
    omega
  · simp
    omega

/-- The entries of the buttons and the events, after the edges `seen`. -/
structure Follows (btnOffsets : Fin 3 → ℕ) (s : GpioHal) (seen : List EdgeEvent) : Prop where
  tracks : ∀ i, (s.buttons i).Tracks (s.accepted btnOffsets i seen)
  events : ∀ i, lineEvents i s.produced = (presses (s.accepted btnOffsets i seen)).map isLong
  typed : ∀ e ∈ s.produced, ∃ longPress, e.type = Gpio.toButtonEvent e.line longPress

/-- What the edges `es` leave alone, and how much they can produce. -/
structure Frame (s s' : GpioHal) (n : ℕ) : Prop where
  requested : s'.requested = s.requested
  pressedLevel : s'.pressedLevel = s.pressedLevel
  useSoftDebounce : s'.useSoftDebounce = s.useSoftDebounce
  delivered : s'.delivered = s.delivered
  taken : s'.taken = s.taken
  room : s'.pending.contents.length ≤ s.pending.contents.length + n
  weight : 2 * s'.pending.contents.length + s'.heldCount ≤
    2 * s.pending.contents.length + s.heldCount + n

theorem Frame.refl (s : GpioHal) (n : ℕ) : Frame s s n where
  requested := rfl
  pressedLevel := rfl
  useSoftDebounce := rfl
  delivered := rfl
  taken := rfl
  room := Nat.le_add_right ..
  weight := Nat.le_add_right ..

theorem Frame.trans {s'' : GpioHal} {m n : ℕ} (h : Frame s s' m) (h' : Frame s' s'' n) :
    Frame s s'' (m + n) where
  requested := h'.requested.trans h.requested
  pressedLevel := h'.pressedLevel.trans h.pressedLevel
  useSoftDebounce := h'.useSoftDebounce.trans h.useSoftDebounce
  delivered := h'.delivered.trans h.delivered
  taken := h'.taken.trans h.taken
  room := by
    have hroom := h.room
    have hroom' := h'.room
    omega
  weight := by
    have hweight := h.weight
    have hweight' := h'.weight
    omega

theorem Frame.accepted {n : ℕ} (h : Frame s s' n) (i : Fin 3) (es : List EdgeEvent) :
    s'.accepted btnOffsets i es = s.accepted btnOffsets i es := by
  unfold GpioHal.accepted
  rw [h.useSoftDebounce, h.pressedLevel]

/-- The edge that `e` is for button `i`. -/
def buttonEdge (s : GpioHal) (e : EdgeEvent) : ButtonEdge :=
  (decide (e.newValue = s.pressedLevel), e.timeMs)

/-- The edge is dropped by the software debounce. -/
def bounces (s : GpioHal) (i : Fin 3) (e : EdgeEvent) : Bool :=
  s.useSoftDebounce && lockedOut (s.buttons i).lastEdgeMs e.timeMs

/-- The state after an edge of button `i` that is accepted. -/
def accept (s : GpioHal) (i : Fin 3) (e : EdgeEvent) : GpioHal :=
  let (b, longPress) := (s.buttons i).edge (s.buttonEdge e)
  match longPress with
  | none => s.setButton i b
  | some longPress => (s.setButton i b).pendingPush
      { type := Gpio.toButtonEvent i longPress, line := i, timestampNs := e.timestampNs }

theorem processEdgeEvent_none (s : GpioHal) {e : EdgeEvent}
    (h : Gpio.State.findLine btnOffsets e.offset = none) :
    s.processEdgeEvent btnOffsets e = s := by
  simp [processEdgeEvent, h]

theorem processEdgeEvent_some (s : GpioHal) {e : EdgeEvent} {i : Fin 3}
    (h : Gpio.State.findLine btnOffsets e.offset = some i) :
    s.processEdgeEvent btnOffsets e = if s.bounces i e then s else s.accept i e := by
  have hiff : (s.useSoftDebounce ∧ (s.buttons i).lastEdgeMs ≠ 0 ∧
      e.timeMs - (s.buttons i).lastEdgeMs < debounceMs) ↔ s.bounces i e = true := by
    simp only [bounces, lockedOut, Bool.and_eq_true, bne_iff_ne, decide_eq_true_eq]
    rfl
  simp only [processEdgeEvent, h, hiff]
  split_ifs with hbounces hpress hpressed
  · rfl
  · simp [accept, Button.edge, buttonEdge, hpress]
  · simp [accept, Button.edge, buttonEdge, hpress, hpressed]
  · simp [accept, Button.edge, buttonEdge, hpress, hpressed]

/-- The event of an accepted edge, if it has one. -/
def answer (s : GpioHal) (i : Fin 3) (e : EdgeEvent) : List GpioEvent :=
  ((s.buttons i).edge (s.buttonEdge e)).2.toList.map fun longPress =>
    { type := Gpio.toButtonEvent i longPress, line := i, timestampNs := e.timestampNs }

theorem accept_eq (s : GpioHal) (i : Fin 3) (e : EdgeEvent) :
    s.accept i e = { s.setButton i ((s.buttons i).edge (s.buttonEdge e)).1 with
      pending := (s.accept i e).pending } := by
  unfold accept
  dsimp only
  cases ((s.buttons i).edge (s.buttonEdge e)).2 with
  | none => rfl
  | some longPress => rfl

theorem contents_accept (hroom : s.pending.contents.length < maxPendingEvents) (i : Fin 3)
    (e : EdgeEvent) :
    (s.accept i e).pending.contents = s.pending.contents ++ s.answer i e := by
  unfold accept answer
  dsimp only
  cases ((s.buttons i).edge (s.buttonEdge e)).2 with
  | none => simp [setButton]
  | some longPress => exact Gpio.EventQueue.contents_pendingPush hroom _

theorem produced_accept (hroom : s.pending.contents.length < maxPendingEvents) (i : Fin 3)
    (e : EdgeEvent) : (s.accept i e).produced = s.produced ++ s.answer i e := by
  unfold produced
  rw [contents_accept hroom, ← List.append_assoc, accept_eq]
  rfl

theorem frame_accept (hroom : s.pending.contents.length < maxPendingEvents) (i : Fin 3)
    (e : EdgeEvent) : Frame s (s.accept i e) 1 := by
  have hcontents := contents_accept hroom i e
  have hanswer : (s.answer i e).length =
      ((s.buttons i).edge (s.buttonEdge e)).2.toList.length := List.length_map ..
  have hweight := (s.buttons i).weight_edge (s.buttonEdge e)
  have hheld := s.heldCount_setButton i ((s.buttons i).edge (s.buttonEdge e)).1
  have hcount : (s.accept i e).heldCount =
      (s.setButton i ((s.buttons i).edge (s.buttonEdge e)).1).heldCount := by
    rw [accept_eq]
    rfl
  have hone : ((s.buttons i).edge (s.buttonEdge e)).2.toList.length ≤ 1 := by
    cases ((s.buttons i).edge (s.buttonEdge e)).2 <;> simp
  constructor
  · rw [accept_eq]
    rfl
  · rw [accept_eq]
    rfl
  · rw [accept_eq]
    rfl
  · rw [accept_eq]
    rfl
  · rw [accept_eq]
    rfl
  · rw [hcontents, List.length_append]
    omega
  · rw [hcontents, List.length_append]
    omega

/-- An edge that belongs to no button, or that bounces. -/
theorem Follows.skip (h : Follows btnOffsets s seen) {e : EdgeEvent}
    (hskip : ∀ i, s.accepted btnOffsets i (seen ++ [e]) = s.accepted btnOffsets i seen) :
    Follows btnOffsets s (seen ++ [e]) where
  tracks i := by
    rw [hskip]
    exact h.tracks i
  events i := by
    rw [hskip]
    exact h.events i
  typed := h.typed

theorem lineEdges_single (e : EdgeEvent) (i : Fin 3) (pressedLevel : ℤ) :
    lineEdges btnOffsets pressedLevel i [e] =
      if Gpio.State.findLine btnOffsets e.offset = some i then
        [(decide (e.newValue = pressedLevel), e.timeMs)] else [] := by
  simp only [lineEdges, List.filterMap_cons, List.filterMap_nil]
  split_ifs <;> rfl

/-- An edge is added to those of its button, unless it bounces. -/
theorem Follows.accepted_concat (h : Follows btnOffsets s seen) (e : EdgeEvent) (i : Fin 3) :
    s.accepted btnOffsets i (seen ++ [e]) = s.accepted btnOffsets i seen ++
      if Gpio.State.findLine btnOffsets e.offset = some i ∧ s.bounces i e = false then
        [s.buttonEdge e] else [] := by
  have htracks := h.tracks i
  unfold accepted at htracks ⊢
  rw [Gpio.lineEdges_append, lineEdges_single]
  unfold bounces
  cases hsoft : s.useSoftDebounce with
  | false =>
    simp only [Bool.false_eq_true, if_false, Bool.false_and, and_true]
    rfl
  | true =>
    rw [hsoft] at htracks
    simp only [if_true, Bool.true_and] at htracks ⊢
    split_ifs with hline hlocked hlocked
    · rw [htracks.debounced_concat, hlocked.2]
      rfl
    · rw [htracks.debounced_concat]
      simp_all
    · simp_all
    · simp

theorem Follows.accept (h : Follows btnOffsets s seen)
    (hroom : s.pending.contents.length < maxPendingEvents) {e : EdgeEvent} {i : Fin 3}
    (hline : Gpio.State.findLine btnOffsets e.offset = some i) (hbounces : s.bounces i e = false) :
    Follows btnOffsets (s.accept i e) (seen ++ [e]) := by
  have hframe := frame_accept hroom i e
  have haccepted : ∀ j, (s.accept i e).accepted btnOffsets j (seen ++ [e]) =
      s.accepted btnOffsets j seen ++ if j = i then [s.buttonEdge e] else [] := by
    intro j
    rw [hframe.accepted, h.accepted_concat, hline]
    by_cases hj : j = i
    · simp [hj, hbounces]
    · simp [hj, Ne.symm hj]
  have hbuttons : (s.accept i e).buttons =
      Function.update s.buttons i ((s.buttons i).edge (s.buttonEdge e)).1 := by
    rw [accept_eq]
    rfl
  refine ⟨fun j => ?_, fun j => ?_, fun event hevent => ?_⟩
  · rw [haccepted, hbuttons]
    by_cases hj : j = i
    · subst hj
      rw [Function.update_self, if_pos rfl]
      exact Button.tracks_edge ..
    · rw [Function.update_of_ne hj, if_neg hj, List.append_nil]
      exact h.tracks j
  · rw [haccepted, produced_accept hroom, Gpio.lineEvents_append, h.events]
    by_cases hj : j = i
    · subst hj
      rw [if_pos rfl, (h.tracks j).presses_concat]
      congr 1
      unfold answer
      cases ((s.buttons j).edge (s.buttonEdge e)).2 with
      | none => rfl
      | some longPress => simp [lineEvents, Gpio.ofButton_toButtonEvent]
    · rw [if_neg hj, List.append_nil]
      unfold answer
      cases ((s.buttons i).edge (s.buttonEdge e)).2 with
      | none => simp [lineEvents]
      | some longPress => simp [lineEvents, Gpio.ofButton_toButtonEvent, hj]
  · rw [produced_accept hroom, List.mem_append] at hevent
    rcases hevent with hold | hnew
    · exact h.typed event hold
    · obtain ⟨longPress, -, rfl⟩ := List.mem_map.1 hnew
      exact ⟨longPress, rfl⟩

/-- The case split of `process_edge_event`. -/
theorem Follows.processEdgeEvent (h : Follows btnOffsets s seen)
    (hroom : s.pending.contents.length < maxPendingEvents) (e : EdgeEvent) :
    Follows btnOffsets (s.processEdgeEvent btnOffsets e) (seen ++ [e]) ∧
      Frame s (s.processEdgeEvent btnOffsets e) 1 := by
  cases hline : Gpio.State.findLine btnOffsets e.offset with
  | none =>
    rw [processEdgeEvent_none s hline]
    refine ⟨h.skip fun i => ?_, .refl s 1⟩
    simp [h.accepted_concat, hline]
  | some i =>
    rw [processEdgeEvent_some s hline]
    cases hbounces : s.bounces i e with
    | true =>
      refine ⟨h.skip fun j => ?_, .refl s 1⟩
      rw [h.accepted_concat, hline]
      by_cases hj : i = j
      · subst hj
        simp [hbounces]
      · simp [hj]
    | false => exact ⟨h.accept hroom hline hbounces, frame_accept hroom i e⟩

/-- The edges of one read. -/
theorem Follows.edges (es : List EdgeEvent) (h : Follows btnOffsets s seen)
    (hroom : s.pending.contents.length + es.length ≤ maxPendingEvents) :
    Follows btnOffsets (es.foldl (GpioHal.processEdgeEvent btnOffsets) s) (seen ++ es) ∧
      Frame s (es.foldl (GpioHal.processEdgeEvent btnOffsets) s) es.length := by
  induction es generalizing s seen with
  | nil => exact ⟨by simpa using h, .refl s 0⟩
  | cons e es ih =>
    rw [List.length_cons] at hroom
    obtain ⟨hnext, hframe⟩ := h.processEdgeEvent (by omega) e
    have hlength := hframe.room
    obtain ⟨hrest, hframe'⟩ := ih hnext (by omega)
    rw [List.append_assoc] at hrest
    rw [List.length_cons, Nat.add_comm]
    exact ⟨hrest, hframe.trans hframe'⟩

/-! ### The calls -/

/-- Between two calls. -/
structure Rests (btnOffsets : Fin 3 → ℕ) (s : GpioHal) : Prop where
  requested : s.requested = true
  follows : Follows btnOffsets s s.taken
  room : s.pending.contents.length ≤ edgeBufferCapacity

/-- From `s` to `s'`, a call has handed out `event`; if it handed out none, nothing is pending. Two
edges were read for each event produced, but for the buttons that were pressed before. -/
structure Call (btnOffsets : Fin 3 → ℕ) (s : GpioHal) (event : Option GpioEvent) (s' : GpioHal) :
    Prop where
  rests : Rests btnOffsets s'
  delivered : s'.delivered = s.delivered ++ event.toList
  drained : event = none → s'.pending.contents = []
  weight : 2 * s'.produced.length + s'.heldCount + s.taken.length ≤
    2 * s.produced.length + s.heldCount + s'.taken.length

theorem Call.trans {s'' : GpioHal} {event : Option GpioEvent} (h : Call btnOffsets s none s')
    (h' : Call btnOffsets s' event s'') : Call btnOffsets s event s'' where
  rests := h'.rests
  delivered := by rw [h'.delivered, h.delivered, Option.toList_none, List.append_nil]
  drained := h'.drained
  weight := by
    have hweight := h.weight
    have hweight' := h'.weight
    omega

theorem Rests.idle (h : Rests btnOffsets s) (hempty : s.pending.contents = []) :
    Call btnOffsets s none s where
  rests := h
  delivered := by simp
  drained _ := hempty
  weight := le_rfl

/-- `pending_pop` -/
theorem Rests.pendingPop (h : Rests btnOffsets s) :
    Call btnOffsets s s.pendingPop.1 s.pendingPop.2 := by
  unfold GpioHal.pendingPop
  rcases s.pending.pendingPop_cases with ⟨hpop, hempty⟩ | ⟨e, q, hpop, hcontents⟩
  · rw [hpop]
    exact h.idle hempty
  · rw [hpop]
    dsimp only
    have hproduced : { s with pending := q, delivered := s.delivered ++ [e] }.produced =
        s.produced := by simp [produced, hcontents]
    refine ⟨⟨h.requested, ⟨h.follows.tracks, ?_, ?_⟩, ?_⟩, rfl, by simp, ?_⟩
    · rw [hproduced]
      exact h.follows.events
    · rw [hproduced]
      exact h.follows.typed
    · have hroom := h.room
      rw [hcontents, List.length_cons] at hroom
      exact (Nat.le_succ _).trans hroom
    · rw [hproduced]
      exact le_rfl

/-- The edges of one read, when nothing is pending; no event overwrites another. -/
theorem Rests.processEdges (h : Rests btnOffsets s) (hempty : s.pending.contents = []) {n : ℕ}
    (hn : n ≤ edgeBufferCapacity) :
    Rests btnOffsets (s.processEdges btnOffsets n) ∧
      (s.processEdges btnOffsets n).delivered = s.delivered ∧
      2 * (s.processEdges btnOffsets n).produced.length +
          (s.processEdges btnOffsets n).heldCount + s.taken.length ≤
        2 * s.produced.length + s.heldCount + (s.processEdges btnOffsets n).taken.length := by
  have hlength : (s.unread.take n).length ≤ edgeBufferCapacity :=
    (List.length_take_le ..).trans hn
  have hstart : Follows btnOffsets
      { s with unread := s.unread.drop n, taken := s.taken ++ s.unread.take n } s.taken :=
    ⟨h.follows.tracks, h.follows.events, h.follows.typed⟩
  have hbatch := hstart.edges (s.unread.take n) (by
    change s.pending.contents.length + _ ≤ _
    rw [hempty, List.length_nil, Nat.zero_add]
    exact hlength.trans (by decide))
  change Follows btnOffsets (s.processEdges btnOffsets n) _ ∧
    Frame _ (s.processEdges btnOffsets n) _ at hbatch
  obtain ⟨hfollows, hframe⟩ := hbatch
  have htaken : (s.processEdges btnOffsets n).taken = s.taken ++ s.unread.take n := hframe.taken
  have hdelivered : (s.processEdges btnOffsets n).delivered = s.delivered := hframe.delivered
  have hroom := hframe.room
  have hweight := hframe.weight
  change (s.processEdges btnOffsets n).pending.contents.length ≤
    s.pending.contents.length + _ at hroom
  change 2 * (s.processEdges btnOffsets n).pending.contents.length +
    (s.processEdges btnOffsets n).heldCount ≤
      2 * s.pending.contents.length + s.heldCount + _ at hweight
  refine ⟨⟨hframe.requested.trans h.requested, ?_, ?_⟩, hdelivered, ?_⟩
  · rw [htaken]
    exact hfollows
  · rw [hempty] at hroom
    simp only [List.length_nil] at hroom
    omega
  · unfold produced
    rw [htaken, hdelivered, List.length_append, List.length_append, List.length_append]
    omega

theorem Rests.readAndProcessEdges (h : Rests btnOffsets s) (hempty : s.pending.contents = [])
    (round : WaitRound) :
    Call btnOffsets s ((s.readAndProcessEdges btnOffsets round).1.getD none)
      (s.readAndProcessEdges btnOffsets round).2 := by
  unfold GpioHal.readAndProcessEdges
  have hwaiting : Rests btnOffsets { s with unread := s.unread ++ round.arrived } :=
    ⟨h.requested, ⟨h.follows.tracks, h.follows.events, h.follows.typed⟩, h.room⟩
  have hwait : Call btnOffsets s none { s with unread := s.unread ++ round.arrived } :=
    ⟨hwaiting, by simp, fun _ => hempty, le_rfl⟩
  cases round.read with
  | none => exact hwait
  | some n =>
    obtain ⟨hrests, hdelivered, hweight⟩ :=
      hwaiting.processEdges hempty (Nat.min_le_right n edgeBufferCapacity)
    have hpop := hrests.pendingPop
    dsimp only
    refine ⟨hpop.rests, ?_, hpop.drained, ?_⟩
    · rw [hpop.delivered, hdelivered]
      rfl
    · have hweight' := hpop.weight
      change _ + s.taken.length ≤ 2 * s.produced.length + s.heldCount + _ at hweight
      change 2 * _ + _ + s.taken.length ≤ _
      omega

/-- The event that a call returned. -/
def eventOf : Option WaitResult → Option GpioEvent
  | some (.event e) => some e
  | _ => none

theorem Rests.waitLoop (timeoutMs : ℤ) (startMs : UInt64) (rounds : List WaitRound)
    (h : Rests btnOffsets s) :
    Call btnOffsets s (eventOf (s.waitLoop btnOffsets timeoutMs startMs rounds).1)
      (s.waitLoop btnOffsets timeoutMs startMs rounds).2 := by
  induction rounds generalizing s with
  | nil =>
    have hpop := h.pendingPop
    unfold GpioHal.waitLoop
    cases hpopped : s.pendingPop with
    | mk event s' =>
      rw [hpopped] at hpop
      cases event with
      | none => exact hpop
      | some e => exact hpop
  | cons round rounds ih =>
    have hpop := h.pendingPop
    unfold GpioHal.waitLoop
    cases hpopped : s.pendingPop with
    | mk event s' =>
      rw [hpopped] at hpop
      cases event with
      | some e => exact hpop
      | none =>
        have hread := hpop.rests.readAndProcessEdges (hpop.drained rfl) round
        dsimp only at hpop ⊢
        cases hanswer : s'.readAndProcessEdges btnOffsets round with
        | mk answer s'' =>
          rw [hanswer] at hread
          dsimp only at hread ⊢
          split_ifs
          · obtain _ | _ | e := answer
            · exact hpop.trans hread
            · exact hpop.trans hread
            · exact hpop.trans hread
          · exact hpop
          · exact hpop
          · exact hpop
          · obtain _ | _ | e := answer
            · exact hpop.trans hread
            · exact (hpop.trans hread).trans (ih hread.rests)
            · exact hpop.trans hread

/-- `gpio_hal_libgpiod_wait_event` -/
theorem Rests.waitEvent (h : Rests btnOffsets s) (timeoutMs : ℤ) (startMs : UInt64)
    (rounds : List WaitRound) :
    Call btnOffsets s (eventOf (s.waitEvent btnOffsets timeoutMs startMs rounds).1)
      (s.waitEvent btnOffsets timeoutMs startMs rounds).2 := by
  unfold GpioHal.waitEvent
  rw [h.requested]
  exact h.waitLoop timeoutMs startMs rounds

theorem init_eq {env : InitEnv} (hinit : init env = some s) :
    ∃ pressedLevel useSoftDebounce, s =
      { requested := true, pressedLevel := pressedLevel, useSoftDebounce := useSoftDebounce } := by
  unfold init at hinit
  dsimp only at hinit
  split_ifs at hinit
  injection hinit with hinit
  exact ⟨_, _, hinit.symm⟩

theorem rests_init {env : InitEnv} (hinit : init env = some s) : Rests btnOffsets s := by
  obtain ⟨pressedLevel, useSoftDebounce, rfl⟩ := init_eq hinit
  refine ⟨rfl, ⟨fun i => ?_, fun i => ?_, fun e he => ?_⟩, Nat.zero_le _⟩
  · simp only [accepted, lineEdges, List.filterMap_nil, debounced, Gpio.debouncedFrom, ite_self]
    exact Button.tracks_initial
  · simp [accepted, lineEdges, Gpio.debouncedFrom, produced, lineEvents, Gpio.pressesFrom]
  · simp [produced] at he

end GpioHal

/-! ## The event loop -/

/-- `to_app_event_type` -/
def toAppEventType : EventType → AppEventType
  | .btnK1Short => .btnK1Short
  | .btnK2Short => .btnK2Short
  | .btnK3Short => .btnK3Short
  | .btnK1Long => .btnK1Long
  | .btnK2Long => .btnK2Long
  | .btnK3Long => .btnK3Long
  | .none => .none

/-- The HAL and what the event loop has pushed to the event queue. -/
structure GpioLoop where
  hal : GpioHal
  posted : List AppEvent := []

namespace GpioLoop

variable (btnOffsets : Fin 3 → ℕ)

/-- The body of the loop of `event_loop_handle_gpio`, at `nowNs`. -/
def post (s : GpioLoop) (e : GpioEvent) (nowNs : UInt64) : GpioLoop :=
  if toAppEventType e.type ≠ .none then
    { s with posted := s.posted ++ [{
        type := toAppEventType e.type, line := UInt8.ofNat e.line, timestampNs := nowNs }] }
  else s

/-- The loop of `event_loop_handle_gpio`, with `n` turns left; `env n` is what the next one sees. -/
def handleLoop (env : ℕ → WaitRound × UInt64) : ℕ → GpioLoop → GpioLoop
  | 0, s => s
  | n + 1, s =>
    match s.hal.waitEvent btnOffsets 0 (env n).1.nowMs [(env n).1] with
    | (some (.event e), hal) => handleLoop env n ({ s with hal := hal }.post e (env n).2)
    | (_, hal) => { s with hal := hal }

/-- `event_loop_handle_gpio` -/
def handleGpio (s : GpioLoop) (env : ℕ → WaitRound × UInt64) : GpioLoop :=
  handleLoop btnOffsets env maxGpioEventsPerPoll s

/-- An edge reaches the kernel, or the event loop finds the buttons readable. -/
inductive Event
  | edge (e : EdgeEvent)
  | gpio (env : ℕ → WaitRound × UInt64)

def step (s : GpioLoop) : Event → GpioLoop
  | .edge e => { s with hal := { s.hal with unread := s.hal.unread ++ [e] } }
  | .gpio env => s.handleGpio btnOffsets env

variable {btnOffsets : Fin 3 → ℕ} {s : GpioLoop}

/-- The presses of button `i` among the events of the application: `true` is a long press. -/
def appPresses (i : Fin 3) (events : List AppEvent) : List Bool :=
  events.filterMap fun e =>
    if e.type = toAppEventType (Gpio.toButtonEvent i true) then some true
    else if e.type = toAppEventType (Gpio.toButtonEvent i false) then some false
    else none

theorem toAppEventType_inj : ∀ {a b : EventType}, toAppEventType a = toAppEventType b ↔ a = b := by
  intro a b
  cases a <;> cases b <;> decide

/-- What has been pushed is what the HAL has returned, and nothing else. -/
structure Posts (btnOffsets : Fin 3 → ℕ) (s : GpioLoop) : Prop where
  rests : s.hal.Rests btnOffsets
  posted : s.posted.map (fun e => (e.type, e.line)) =
    s.hal.delivered.map fun e => (toAppEventType e.type, UInt8.ofNat e.line)

theorem Posts.appPresses (h : Posts btnOffsets s) (i : Fin 3) :
    appPresses i s.posted = lineEvents i s.hal.delivered := by
  have hkinds : GpioLoop.appPresses i s.posted = (s.posted.map fun e => (e.type, e.line)).filterMap
      fun e => if e.1 = toAppEventType (Gpio.toButtonEvent i true) then some true
        else if e.1 = toAppEventType (Gpio.toButtonEvent i false) then some false
        else none := by
    rw [List.filterMap_map]
    rfl
  rw [hkinds, h.posted, List.filterMap_map]
  unfold lineEvents
  congr 1
  funext e
  simp only [Function.comp_apply, toAppEventType_inj]
  rfl

/-- An event of the HAL has a type for the application, and is pushed. -/
theorem post_eq {e : GpioEvent} (htyped : ∃ longPress, e.type = Gpio.toButtonEvent e.line longPress)
    (s : GpioLoop) (nowNs : UInt64) : s.post e nowNs = { s with posted := s.posted ++ [
      { type := toAppEventType e.type, line := UInt8.ofNat e.line, timestampNs := nowNs }] } := by
  have hne : ∀ (i : Fin 3) (longPress : Bool),
      toAppEventType (Gpio.toButtonEvent i longPress) ≠ .none := by decide
  obtain ⟨longPress, htype⟩ := htyped
  unfold post
  rw [if_pos]
  rw [htype]
  exact hne e.line longPress

/-- The loop posts one event for each turn, or stops because nothing is pending. -/
theorem Posts.handleLoop (env : ℕ → WaitRound × UInt64) (n : ℕ) (h : Posts btnOffsets s) :
    Posts btnOffsets (s.handleLoop btnOffsets env n) ∧
      ((s.handleLoop btnOffsets env n).hal.pending.contents = [] ∨
        (s.handleLoop btnOffsets env n).hal.delivered.length = s.hal.delivered.length + n) ∧
      2 * (s.handleLoop btnOffsets env n).hal.produced.length +
          (s.handleLoop btnOffsets env n).hal.heldCount + s.hal.taken.length ≤
        2 * s.hal.produced.length + s.hal.heldCount +
          (s.handleLoop btnOffsets env n).hal.taken.length := by
  induction n generalizing s with
  | zero => exact ⟨h, .inr rfl, le_rfl⟩
  | succ n ih =>
    have hwait := h.rests.waitEvent 0 (env n).1.nowMs [(env n).1]
    unfold GpioLoop.handleLoop
    cases hanswer : s.hal.waitEvent btnOffsets 0 (env n).1.nowMs [(env n).1] with
    | mk answer hal =>
      rw [hanswer] at hwait
      dsimp only at hwait
      have hstop (hnone : GpioHal.eventOf answer = none) :
          Posts btnOffsets { s with hal := hal } ∧ hal.pending.contents = [] := by
        have hdelivered := hwait.delivered
        rw [hnone, Option.toList_none, List.append_nil] at hdelivered
        exact ⟨⟨hwait.rests, by rw [hdelivered]; exact h.posted⟩, hwait.drained hnone⟩
      obtain _ | ⟨e⟩ | _ | _ := answer
      · exact ⟨(hstop rfl).1, .inl (hstop rfl).2, hwait.weight⟩
      · have hdelivered : hal.delivered = s.hal.delivered ++ [e] := hwait.delivered
        have htyped := hwait.rests.follows.typed e (by simp [GpioHal.produced, hdelivered])
        have hposts : Posts btnOffsets ({ s with hal := hal }.post e (env n).2) := by
          rw [post_eq htyped]
          refine ⟨hwait.rests, ?_⟩
          dsimp only
          rw [hdelivered, List.map_append, List.map_append, h.posted]
          rfl
        have hrest := ih hposts
        have hhal : ({ s with hal := hal }.post e (env n).2).hal = hal := by
          rw [post_eq htyped]
        rw [hhal, hdelivered, List.length_append, List.length_singleton] at hrest
        obtain ⟨hposts', hdone, hweight'⟩ := hrest
        have hweight := hwait.weight
        refine ⟨hposts', hdone.imp_right fun hlength => ?_, ?_⟩
        · dsimp only
          omega
        · dsimp only
          omega
      · exact ⟨(hstop rfl).1, .inl (hstop rfl).2, hwait.weight⟩
      · exact ⟨(hstop rfl).1, .inl (hstop rfl).2, hwait.weight⟩

theorem Posts.step (h : Posts btnOffsets s) (e : Event) : Posts btnOffsets (s.step btnOffsets e) := by
  cases e with
  | edge e =>
    obtain ⟨⟨hrequested, ⟨htracks, hevents, htyped⟩, hroom⟩, hposted⟩ := h
    exact ⟨⟨hrequested, ⟨htracks, hevents, htyped⟩, hroom⟩, hposted⟩
  | gpio env => exact (h.handleLoop env maxGpioEventsPerPoll).1

theorem posts_init {env : GpioHal.InitEnv} {hal : GpioHal} (hinit : GpioHal.init env = some hal) :
    Posts btnOffsets { hal := hal } where
  rests := GpioHal.rests_init hinit
  posted := by
    obtain ⟨pressedLevel, useSoftDebounce, rfl⟩ := GpioHal.init_eq hinit
    rfl

/-- **Every press is posted, once and as what it was.** In every run after a successful
initialisation, for arbitrary edges, reads and failures: the events posted for a button and those
that are pending are, in order, the presses that its accepted edges complete, with their kinds; an
event carries the line of its button; and the queue of pending events never overflows. -/
theorem presses_posted (btnOffsets : Fin 3 → ℕ) {env : GpioHal.InitEnv} {hal : GpioHal}
    (hinit : GpioHal.init env = some hal) (es : List Event) :
    (∀ i, appPresses i (run (step btnOffsets) { hal := hal } es).posted ++
        lineEvents i (run (step btnOffsets) { hal := hal } es).hal.pending.contents =
      (presses ((run (step btnOffsets) { hal := hal } es).hal.accepted btnOffsets i
        (run (step btnOffsets) { hal := hal } es).hal.taken)).map isLong) ∧
    (∀ e ∈ (run (step btnOffsets) { hal := hal } es).posted, ∃ (i : Fin 3) (longPress : Bool),
      e.type = toAppEventType (Gpio.toButtonEvent i longPress) ∧ e.line = UInt8.ofNat i) ∧
    (run (step btnOffsets) { hal := hal } es).hal.pending.contents.length ≤ edgeBufferCapacity := by
  have hposts : Posts btnOffsets (run (step btnOffsets) { hal := hal } es) :=
    run_invariant (P := Posts btnOffsets) (fun _ e h => h.step e) (posts_init hinit) es
  refine ⟨fun i => ?_, fun e he => ?_, hposts.rests.room⟩
  · rw [hposts.appPresses, ← Gpio.lineEvents_append]
    exact hposts.rests.follows.events i
  · have hmem := List.mem_map_of_mem (f := fun e : AppEvent => (e.type, e.line)) he
    rw [hposts.posted] at hmem
    obtain ⟨event, hevent, heq⟩ := List.mem_map.1 hmem
    obtain ⟨longPress, htype⟩ :=
      hposts.rests.follows.typed event (List.mem_append_left _ hevent)
    injection heq with htype' hline
    exact ⟨event.line, longPress, by rw [← htype', htype], hline.symm⟩

/-! ## Events that stay pending -/

/-- The handling reads at most thirty edges. -/
def ReadsFew (btnOffsets : Fin 3 → ℕ) (s : GpioLoop) : Event → Prop
  | .edge _ => True
  | .gpio env =>
    (s.handleGpio btnOffsets env).hal.taken.length ≤ s.hal.taken.length + 30

instance : DecidableRel (ReadsFew btnOffsets)
  | _, .edge _ => isTrue trivial
  | _, .gpio _ => inferInstanceAs (Decidable (_ ≤ _))

theorem heldCount_le (hal : GpioHal) : hal.heldCount ≤ 3 := List.countP_le_length

/-- Sixteen turns are enough for the presses that thirty edges can end. -/
theorem Posts.drains (h : Posts btnOffsets s) (hempty : s.hal.pending.contents = []) {e : Event}
    (hfew : ReadsFew btnOffsets s e) : (s.step btnOffsets e).hal.pending.contents = [] := by
  cases e with
  | edge e => exact hempty
  | gpio env =>
    obtain ⟨-, hdone, hweight⟩ := h.handleLoop env maxGpioEventsPerPoll
    change (s.handleGpio btnOffsets env).hal.pending.contents = [] ∨ _ at hdone
    rcases hdone with hdone | hdone
    · exact hdone
    · change (s.handleGpio btnOffsets env).hal.delivered.length = _ + 16 at hdone
      change 2 * (s.handleGpio btnOffsets env).hal.produced.length + _ + _ ≤
        _ + (s.handleGpio btnOffsets env).hal.taken.length at hweight
      have hheld := heldCount_le s.hal
      unfold GpioHal.produced at hweight
      rw [List.length_append, List.length_append, hempty, List.length_nil] at hweight
      change _ ≤ _ + 30 at hfew
      refine List.eq_nil_of_length_eq_zero ?_
      change (s.handleGpio btnOffsets env).hal.pending.contents.length = 0
      omega

/-- **No press waits for another edge.** In every run whose handlings read at most thirty edges
each, nothing is pending between them: the events posted for a button are, in order, all the presses
that its accepted edges have completed. -/
theorem posted_at_once (btnOffsets : Fin 3 → ℕ) {env : GpioHal.InitEnv} {hal : GpioHal}
    (hinit : GpioHal.init env = some hal) {es : List Event}
    (hfew : Along (step btnOffsets) (ReadsFew btnOffsets) { hal := hal } es) :
    (run (step btnOffsets) { hal := hal } es).hal.pending.contents = [] ∧
      ∀ i, appPresses i (run (step btnOffsets) { hal := hal } es).posted =
        (presses ((run (step btnOffsets) { hal := hal } es).hal.accepted btnOffsets i
          (run (step btnOffsets) { hal := hal } es).hal.taken)).map isLong := by
  have hfirst : ({ hal := hal } : GpioLoop).hal.pending.contents = [] := by
    obtain ⟨pressedLevel, useSoftDebounce, rfl⟩ := GpioHal.init_eq hinit
    rfl
  have hrun : Posts btnOffsets (run (step btnOffsets) { hal := hal } es) ∧
      (run (step btnOffsets) { hal := hal } es).hal.pending.contents = [] :=
    run_invariant_along (P := fun s => Posts btnOffsets s ∧ s.hal.pending.contents = [])
      (fun _ e h hfew => ⟨h.1.step e, h.1.drains h.2 hfew⟩) ⟨posts_init hinit, hfirst⟩ hfew
  refine ⟨hrun.2, fun i => ?_⟩
  rw [hrun.1.appPresses, ← hrun.1.rests.follows.events, GpioHal.produced, hrun.2, List.append_nil]

/-! ### Concrete runs -/

/-- Everything opens, and the lines idle at 0. -/
def readyEnv : GpioHal.InitEnv where
  chipOpens := true
  requestDebounced := true
  debounceUnsupported := false
  requestPlain := false
  bufferAllocated := true
  values _ := 0

def ready : GpioHal := { requested := true, pressedLevel := 1 }

/-- A press edge of the line at `offset`. -/
def rising (offset : ℕ) (ms : UInt64) : Event := .edge ⟨offset, .rising, ms * 1000000⟩

/-- A release edge. -/
def falling (offset : ℕ) (ms : UInt64) : Event := .edge ⟨offset, .falling, ms * 1000000⟩

/-- A handling whose first turns read, and whose other turns fail to. -/
def handling (reads : ℕ) : Event :=
  .gpio fun n => ({ read := if maxGpioEventsPerPoll - reads ≤ n then some 16 else none }, 0)

/-- K1 is pressed for 100 ms and then for 800 ms, and K2 for 800 ms in between. -/
def twoPresses : List Event :=
  [rising 0 1000, falling 0 1100, rising 2 1200, handling 2, rising 0 1300, falling 2 2000,
    handling 2, falling 0 2100, handling 2]

theorem presses_posted_two :
    appPresses 0 (run (step Gpio.State.defaultBtnOffsets) { hal := ready } twoPresses).posted ++
        lineEvents 0
          (run (step Gpio.State.defaultBtnOffsets) { hal := ready } twoPresses).hal.pending.contents =
      [false, true] :=
  have hinit : GpioHal.init readyEnv = some ready := rfl
  ((presses_posted Gpio.State.defaultBtnOffsets hinit twoPresses).1 0).trans (by decide +kernel)

theorem posted_at_once_two :
    (run (step Gpio.State.defaultBtnOffsets) { hal := ready } twoPresses).hal.pending.contents = [] ∧
      appPresses 1 (run (step Gpio.State.defaultBtnOffsets) { hal := ready } twoPresses).posted =
        [true] := by
  have hinit : GpioHal.init readyEnv = some ready := rfl
  have hfew : Along (step Gpio.State.defaultBtnOffsets) (ReadsFew Gpio.State.defaultBtnOffsets)
      { hal := ready } twoPresses := by decide +kernel
  obtain ⟨hempty, hposted⟩ := posted_at_once Gpio.State.defaultBtnOffsets hinit hfew
  exact ⟨hempty, (hposted 1).trans (by decide +kernel)⟩

/-- With three buttons held, thirty-one edges are too many: one press stays pending. -/
example :
    (run (step Gpio.State.defaultBtnOffsets) { hal := ready }
      ([rising 0 1, rising 2 2, rising 3 3, handling 1, falling 0 4, falling 2 5, falling 3 6] ++
        (List.replicate 14 [rising 0 7, falling 0 8]).flatten ++
        [handling 16])).hal.pending.contents.length = 1 := by
  decide +kernel

end GpioLoop

end NanoHat.Adr0005
