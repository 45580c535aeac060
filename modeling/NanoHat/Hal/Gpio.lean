import Mathlib.Data.Fin.VecNotation
import NanoHat.Foundations.Ring
import NanoHat.Foundations.Runs

/-!
# The button HAL over libgpiod

Edges of the three button lines wait in the kernel until `libgpiod_read_event` reads them, sixteen
at a time. Every call hands out one pending event; when none is pending it first looks at the clock
and sends the long presses that are due (`handleLongPressTimer`), and only when that produces
nothing it reads edges (`processEdgeEvent`). A release produces a short press unless the long press
has already been sent.

`State` is the static state of the file after `libgpiod_init`, together with the edges that the
kernel holds and two histories that no code reads: the edges read so far and the events handed out
so far. The clock readings of a call are its arguments (`ReadEnv`).
-/

namespace NanoHat.Gpio

/-! ## Events and edges -/

def gpioLongPressMs : UInt64 := 600

def gpioDebounceMs : UInt64 := 30

def maxPendingEvents : ℕ := 32

/-- The number of edges that one read asks for. -/
def edgeBufferCapacity : ℕ := 16

/-- `gpio_event_type_t` -/
inductive EventType
  | none | btnK1Short | btnK2Short | btnK3Short | btnK1Long | btnK2Long | btnK3Long
  deriving DecidableEq, Repr

/-- `gpio_event_t`; the lines are numbered K1 = 0, K2 = 1, K3 = 2. -/
structure GpioEvent where
  type : EventType := .none
  line : Fin 3 := 0
  timestampNs : UInt64 := 0
  deriving DecidableEq, Repr

def toButtonEvent (line : Fin 3) (longPress : Bool) : EventType :=
  match line with
  | 0 => if longPress then .btnK1Long else .btnK1Short
  | 1 => if longPress then .btnK2Long else .btnK2Short
  | 2 => if longPress then .btnK3Long else .btnK3Short

inductive EdgeType
  | falling | rising
  deriving DecidableEq, Repr

/-- `struct gpiod_edge_event` as far as the code reads it. -/
structure EdgeEvent where
  offset : ℕ
  type : EdgeType
  timestampNs : UInt64
  deriving DecidableEq, Repr

/-- The time of an edge in the milliseconds that the code computes. -/
def EdgeEvent.timeMs (e : EdgeEvent) : UInt64 := e.timestampNs / 1000000

def EdgeEvent.newValue (e : EdgeEvent) : ℤ := if e.type = .falling then 0 else 1

/-! ## The pending queue -/

/-- `event_queue_t` with the invariant of its indices. -/
structure EventQueue where
  events : ℕ → GpioEvent
  head : ℕ
  tail : ℕ
  count : ℕ
  head_lt : head < maxPendingEvents
  count_le : count ≤ maxPendingEvents
  tail_eq : tail = (head + count) % maxPendingEvents

namespace EventQueue

/-- The queue after `reset_state`. -/
def empty : EventQueue where
  events _ := {}
  head := 0
  tail := 0
  count := 0
  head_lt := by decide
  count_le := by decide
  tail_eq := rfl

/-- The events in the queue, oldest first. -/
def contents (q : EventQueue) : List GpioEvent :=
  Ring.entries maxPendingEvents q.events q.head q.count

/-- The first branch of `pending_push`: a full queue loses its oldest event. -/
def makeRoom (q : EventQueue) : EventQueue :=
  if h : maxPendingEvents ≤ q.count then
    { q with
      head := (q.head + 1) % maxPendingEvents
      count := q.count - 1
      head_lt := Nat.mod_lt _ (by decide)
      count_le := (Nat.sub_le ..).trans q.count_le
      tail_eq := by
        have hcount : 0 < q.count := lt_of_lt_of_le (by decide) h
        rw [q.tail_eq, Nat.mod_add_mod]
        congr 1
        omega }
  else q

theorem makeRoom_count_lt (q : EventQueue) : q.makeRoom.count < maxPendingEvents := by
  have hle := q.count_le
  unfold makeRoom maxPendingEvents at *
  split
  · dsimp only
    omega
  · omega

def pendingPush (q : EventQueue) (event : GpioEvent) : EventQueue where
  events := Function.update q.makeRoom.events q.makeRoom.tail event
  head := q.makeRoom.head
  tail := (q.makeRoom.tail + 1) % maxPendingEvents
  count := q.makeRoom.count + 1
  head_lt := q.makeRoom.head_lt
  count_le := q.makeRoom_count_lt
  tail_eq := by rw [q.makeRoom.tail_eq, Nat.mod_add_mod, Nat.add_assoc]

def pendingPop (q : EventQueue) : Option (GpioEvent × EventQueue) :=
  if h : q.count = 0 then none
  else some (q.events q.head,
    { q with
      head := (q.head + 1) % maxPendingEvents
      count := q.count - 1
      head_lt := Nat.mod_lt _ (by decide)
      count_le := (Nat.sub_le ..).trans q.count_le
      tail_eq := by
        rw [q.tail_eq, Nat.mod_add_mod]
        congr 1
        omega })

theorem length_contents (q : EventQueue) : q.contents.length = q.count :=
  Ring.length_entries ..

@[simp] theorem contents_empty : empty.contents = [] := rfl

/-- Below the capacity a push appends. -/
theorem contents_pendingPush {q : EventQueue} (h : q.contents.length < maxPendingEvents)
    (event : GpioEvent) : (q.pendingPush event).contents = q.contents ++ [event] := by
  rw [length_contents] at h
  have hroom : q.makeRoom = q := dif_neg (by omega)
  change Ring.entries _ (Function.update q.makeRoom.events q.makeRoom.tail event)
    q.makeRoom.head (q.makeRoom.count + 1) = _
  rw [hroom, q.tail_eq]
  exact Ring.entries_push _ _ h _

/-- A pop takes the oldest event. -/
theorem pendingPop_cases (q : EventQueue) :
    q.pendingPop = none ∧ q.contents = [] ∨
      ∃ event r, q.pendingPop = some (event, r) ∧ q.contents = event :: r.contents := by
  unfold pendingPop
  split_ifs with h
  · exact Or.inl ⟨rfl, List.eq_nil_of_length_eq_zero (q.length_contents.trans h)⟩
  · refine Or.inr ⟨_, _, rfl, ?_⟩
    obtain ⟨k, hk⟩ : ∃ k, q.count = k + 1 := ⟨q.count - 1, by omega⟩
    unfold contents
    simp only [hk, Nat.add_sub_cancel]
    rw [Ring.entries_succ, Nat.mod_eq_of_lt q.head_lt]

end EventQueue

/-! ## State -/

/-- The entries of `g_press_time_ms`, `g_last_edge_ms`, `g_pressed` and `g_long_sent` of one
line. -/
structure Line where
  pressTimeMs : UInt64 := 0
  lastEdgeMs : UInt64 := 0
  pressed : Bool := false
  longSent : Bool := false
  deriving DecidableEq, Repr

/-- `it_value` of the timer; zero is disarmed. -/
structure Timespec where
  tvSec : UInt64 := 0
  tvNsec : UInt64 := 0
  deriving DecidableEq, Repr

structure State where
  /-- `g_request` is set -/
  requested : Bool := false
  /-- `g_timer_fd >= 0` -/
  timerOpen : Bool := false
  timer : Timespec := {}
  pressedLevel : ℤ := 0
  useSoftDebounce : Bool := false
  lines : Fin 3 → Line := fun _ => {}
  pending : EventQueue := .empty
  /-- the edges that the kernel holds -/
  unread : List EdgeEvent := []
  /-- history: the edges that have been read -/
  taken : List EdgeEvent := []
  /-- history: the events that `read_event` has returned -/
  delivered : List GpioEvent := []
  /-- history: the last clock reading of `handle_long_press_timer_locked` -/
  clockMs : UInt64 := 0

namespace State

def setLine (s : State) (i : Fin 3) (l : Line) : State :=
  { s with lines := Function.update s.lines i l }

def pendingPush (s : State) (event : GpioEvent) : State :=
  { s with pending := s.pending.pendingPush event }

/-- The loop of `update_long_press_timer_locked`: `has_pending` and `next_delay_ms`. -/
def nextDelay (s : State) (nowMs : UInt64) : Bool × UInt64 :=
  (List.finRange 3).foldl (fun (hasPending, nextDelayMs) i =>
    if (s.lines i).pressed && !(s.lines i).longSent then
      let deadline := (s.lines i).pressTimeMs + gpioLongPressMs
      let remaining := if deadline > nowMs then deadline - nowMs else 0
      (true, if nextDelayMs = 0 || remaining < nextDelayMs then remaining else nextDelayMs)
    else (hasPending, nextDelayMs)) (false, 0)

def updateLongPressTimer (s : State) (nowMs : UInt64) : State :=
  if !s.timerOpen then s
  else
    let (hasPending, nextDelayMs) := s.nextDelay nowMs
    if hasPending then
      let nextDelayMs := if nextDelayMs = 0 then 1 else nextDelayMs
      { s with timer := ⟨nextDelayMs / 1000, nextDelayMs % 1000 * 1000000⟩ }
    else { s with timer := {} }

/-- The condition of `handle_long_press_timer_locked` for one line. -/
def due (l : Line) (nowMs : UInt64) : Bool :=
  l.pressed && !l.longSent && decide (gpioLongPressMs ≤ nowMs - l.pressTimeMs)

/-- The body of the loop of `handle_long_press_timer_locked`. -/
def sendLongPress (nowMs nowNs : UInt64) (s : State) (i : Fin 3) : State :=
  if due (s.lines i) nowMs then
    (s.setLine i { s.lines i with longSent := true }).pendingPush
      { type := toButtonEvent i true, line := i, timestampNs := nowNs }
  else s

/-- The clock readings of one call of `libgpiod_read_event` and the outcome of its read. -/
structure ReadEnv where
  nowMs : UInt64
  nowNs : UInt64
  /-- the reading of `update_long_press_timer_locked` in the timer handler -/
  armMs : UInt64
  /-- the reading of `update_long_press_timer_locked` at the `k`-th edge -/
  edgeArmMs : ℕ → UInt64
  /-- the read fails otherwise than with `EAGAIN` -/
  readFails : Bool

def handleLongPressTimer (s : State) (env : ReadEnv) : State :=
  if !s.timerOpen then s
  else
    let s := (List.finRange 3).foldl (sendLongPress env.nowMs env.nowNs)
      { s with clockMs := env.nowMs }
    s.updateLongPressTimer env.armMs

/-- The offsets of K1, K2 and K3 unless the build sets others. -/
def defaultBtnOffsets : Fin 3 → ℕ := ![0, 2, 3]

/-- The search for the button of a line offset. -/
def findLine (btnOffsets : Fin 3 → ℕ) (offset : ℕ) : Option (Fin 3) :=
  (List.finRange 3).find? fun i => btnOffsets i = offset

/-- The software debounce drops the edge. -/
def bounces (s : State) (l : Line) (nowMs : UInt64) : Bool :=
  s.useSoftDebounce && l.lastEdgeMs != 0 && decide (nowMs - l.lastEdgeMs < gpioDebounceMs)

/-- `process_edge_event`; `armMs` is the clock reading of `update_long_press_timer_locked`. -/
def processEdgeEvent (btnOffsets : Fin 3 → ℕ) (s : State) (e : EdgeEvent) (armMs : UInt64) :
    State :=
  match findLine btnOffsets e.offset with
  | none => s
  | some i =>
    let nowMs := e.timeMs
    if s.bounces (s.lines i) nowMs then s
    else
      let l := { s.lines i with lastEdgeMs := nowMs }
      let isPressed := decide (e.newValue = s.pressedLevel)
      if isPressed then
        -- the timer update does nothing without a timer
        (s.setLine i { l with pressed := true, pressTimeMs := nowMs, longSent := false
          }).updateLongPressTimer armMs
      else if !l.pressed then s.setLine i l
      else if !s.timerOpen then
        let elapsed := nowMs - l.pressTimeMs
        (s.setLine i { l with pressed := false }).pendingPush
          { type := toButtonEvent i (decide (gpioLongPressMs ≤ elapsed))
            line := i
            timestampNs := e.timestampNs }
      else
        let s' := s.setLine i { l with pressed := false, longSent := false }
        let s' := if !l.longSent then
            s'.pendingPush
              { type := toButtonEvent i false, line := i, timestampNs := e.timestampNs }
          else s'
        s'.updateLongPressTimer armMs

/-- The loop over the edges of one read; `k` is the index of the first edge. -/
def processEdgeEvents (btnOffsets : Fin 3 → ℕ) (env : ReadEnv) (s : State) (k : ℕ) :
    List EdgeEvent → State
  | [] => s
  | e :: es =>
    processEdgeEvents btnOffsets env (processEdgeEvent btnOffsets s e (env.edgeArmMs k)) (k + 1) es

/-- The edges that `gpiod_line_request_read_edge_events` moves out of the kernel. -/
def takeEdges (s : State) : State :=
  { s with
    unread := s.unread.drop edgeBufferCapacity
    taken := s.taken ++ s.unread.take edgeBufferCapacity }

/-- What `read_event` returns: 1 with an event, 0 or -1. -/
inductive ReadResult
  | event (e : GpioEvent)
  | noEvent
  | error
  deriving DecidableEq, Repr

/-- Return the oldest pending event, else go on with `k`. -/
def popOr (s : State) (k : State → State × ReadResult) : State × ReadResult :=
  match s.pending.pendingPop with
  | some (e, q) => ({ s with pending := q, delivered := s.delivered ++ [e] }, .event e)
  | none => k s

def libgpiodReadEvent (btnOffsets : Fin 3 → ℕ) (s : State) (env : ReadEnv) :
    State × ReadResult :=
  if !s.requested then (s, .error)
  else
    s.popOr fun s =>
    (s.handleLongPressTimer env).popOr fun s =>
    if env.readFails then (s, .error)
    else if s.unread = [] then (s, .noEvent)
    else
      ((s.takeEdges).processEdgeEvents btnOffsets env 0
        (s.unread.take edgeBufferCapacity)).popOr fun s => (s, .noEvent)

/-! ## Initialisation -/

/-- The outcomes of the calls that `libgpiod_init` makes. -/
structure InitEnv where
  chipOpens : Bool
  /-- the request with hardware debounce -/
  requestDebounced : Bool
  /-- `errno` of a failed request is `ENOTSUP` or `EINVAL` -/
  debounceUnsupported : Bool
  /-- the request without debounce -/
  requestPlain : Bool
  bufferAllocated : Bool
  timerCreated : Bool
  /-- the line values, negative on failure -/
  values : Fin 3 → ℤ

/-- The majority of the lines is idle. -/
def detectPressedLevel (values : Fin 3 → ℤ) : ℤ :=
  if (List.finRange 3).any (fun i => values i < 0) then -1
  else
    let zeros := (List.finRange 3).countP fun i => values i = 0
    let ones := (List.finRange 3).countP fun i => values i ≠ 0
    let idleLevel := if ones ≤ zeros then 0 else 1
    1 - idleLevel

/-- `libgpiod_init`; `none` when it fails. -/
def libgpiodInit (env : InitEnv) : Option State :=
  if !env.chipOpens then none
  else
    let useSoftDebounce := !env.requestDebounced && env.debounceUnsupported
    let requested := env.requestDebounced || (useSoftDebounce && env.requestPlain)
    let pressedLevel := detectPressedLevel env.values
    if !requested || !env.bufferAllocated || !env.timerCreated then none
    else if pressedLevel < 0 then none
    else some
      { requested := true, timerOpen := true, pressedLevel := pressedLevel,
        useSoftDebounce := useSoftDebounce }

/-! ## Runs -/

/-- An edge reaches the kernel, or the event loop calls `read_event`. -/
inductive Event
  | edge (e : EdgeEvent)
  | read (env : ReadEnv)

def step (btnOffsets : Fin 3 → ℕ) (s : State) : Event → State
  | .edge e => { s with unread := s.unread ++ [e] }
  | .read env => (s.libgpiodReadEvent btnOffsets env).1

end State

end NanoHat.Gpio
