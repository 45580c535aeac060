import Mathlib.Data.List.Chain
import NanoHat.Hal.Gpio

/-!
# The edges of one button

What happens on one line is a list of presses and releases. `presses` pairs every press with its
release, `lineEvents` is what the code has said about the button, short or long. The code's share
of the work is the automaton `lineRun`: a batch of edges that `process_edge_event` works off moves
every line along its own edges (`processEdgeEvents_lines`), whatever the other lines do.
-/

namespace NanoHat.Gpio

/-! ## Presses and releases -/

/-- An edge of a button: a press or not, and its time in ms. -/
abbrev ButtonEdge := Bool × UInt64

/-- The press that a list of edges leaves unreleased, if `held` was unreleased before. -/
def heldFrom : Option UInt64 → List ButtonEdge → Option UInt64
  | held, [] => held
  | _, (true, t) :: es => heldFrom (some t) es
  | _, (false, _) :: es => heldFrom none es

/-- The presses that a list of edges releases, with the times of both edges. -/
def pressesFrom : Option UInt64 → List ButtonEdge → List (UInt64 × UInt64)
  | _, [] => []
  | _, (true, t) :: es => pressesFrom (some t) es
  | some tp, (false, tr) :: es => (tp, tr) :: pressesFrom none es
  | none, (false, _) :: es => pressesFrom none es

/-- The press still held after the edges. -/
abbrev held (es : List ButtonEdge) : Option UInt64 := heldFrom none es

/-- The presses that have been released. -/
abbrev presses (es : List ButtonEdge) : List (UInt64 × UInt64) := pressesFrom none es

/-- The press of an earlier batch that a batch of edges releases. -/
def straddling (held : Option UInt64) (es : List ButtonEdge) : List (UInt64 × UInt64) :=
  match held, es with
  | some tp, (false, tr) :: _ => [(tp, tr)]
  | _, _ => []

/-- A press of `GPIO_LONG_PRESS_MS` or more. -/
def isLong (press : UInt64 × UInt64) : Bool := decide (gpioLongPressMs ≤ press.2 - press.1)

theorem heldFrom_append (h : Option UInt64) (es fs : List ButtonEdge) :
    heldFrom h (es ++ fs) = heldFrom (heldFrom h es) fs := by
  induction es generalizing h with
  | nil => rfl
  | cons e es ih =>
    obtain ⟨_ | _, t⟩ := e
    · exact ih none
    · exact ih (some t)

theorem pressesFrom_append (h : Option UInt64) (es fs : List ButtonEdge) :
    pressesFrom h (es ++ fs) = pressesFrom h es ++ pressesFrom (heldFrom h es) fs := by
  induction es generalizing h with
  | nil => rfl
  | cons e es ih =>
    obtain ⟨_ | _, t⟩ := e
    · cases h with
      | none => exact ih none
      | some tp => exact congrArg ((tp, t) :: ·) (ih none)
    · exact ih (some t)

/-- Two edges of a button in a row: they alternate and lie the debounce time apart. -/
def Follows (a b : ButtonEdge) : Prop :=
  a.1 ≠ b.1 ∧ a.2 ≤ b.2 ∧ gpioDebounceMs ≤ b.2 - a.2

instance : DecidableRel Follows := fun a b => by unfold Follows; infer_instance

/-- The edges of a button alternate and lie the debounce time apart. -/
abbrev Spaced (es : List ButtonEdge) : Prop := es.IsChain Follows

theorem Spaced.follows {es : List ButtonEdge} {a b : ButtonEdge} (h : Spaced (es ++ [a] ++ [b])) :
    Follows a b := by
  simpa using h.rel_getLast_head_of_append (by simp) (by simp)

theorem held_concat (es : List ButtonEdge) (e : ButtonEdge) :
    held (es ++ [e]) = if e.1 then some e.2 else none := by
  unfold held
  rw [heldFrom_append]
  obtain ⟨_ | _, t⟩ := e <;> rfl

/-- The edge that follows a press still held is its release. -/
theorem released_of_held {es : List ButtonEdge} {e : ButtonEdge} {tp : UInt64}
    (hs : Spaced (es ++ [e])) (hheld : held es = some tp) : e.1 = false := by
  rcases List.eq_nil_or_concat es with rfl | ⟨fs, f, rfl⟩
  · simp [heldFrom] at hheld
  · rw [List.concat_eq_append] at hs hheld
    have hne : f.1 ≠ e.1 := hs.follows.1
    rw [held_concat] at hheld
    cases hf : f.1 with
    | false => simp [hf] at hheld
    | true => simpa [hf] using hne.symm

theorem pressesFrom_held {es fs : List ButtonEdge} (hs : Spaced (es ++ fs)) :
    pressesFrom (held es) fs = straddling (held es) fs ++ presses fs := by
  cases hheld : held es with
  | none => cases fs <;> rfl
  | some tp =>
    cases fs with
    | nil => rfl
    | cons f fs =>
      have hf : f.1 = false := by
        rw [← List.singleton_append, ← List.append_assoc] at hs
        exact released_of_held hs.left_of_append hheld
      obtain ⟨_, tr⟩ := f
      obtain rfl : _ = false := hf
      rfl

/-- A batch of edges releases one press from before, then those of its own. -/
theorem presses_append {es fs : List ButtonEdge} (hs : Spaced (es ++ fs)) :
    presses (es ++ fs) = presses es ++ (straddling (held es) fs ++ presses fs) := by
  rw [← pressesFrom_held hs]
  exact pressesFrom_append none es fs

/-! ## What the code does with the edges of a line -/

/-- The new flags of a line and the short press it produces, if any (`true` is a long press). -/
def lineEdge (l : Line) (e : ButtonEdge) : Line × List Bool :=
  if e.1 then
    ({ pressTimeMs := e.2, lastEdgeMs := e.2, pressed := true, longSent := false }, [])
  else if l.pressed then
    ({ l with lastEdgeMs := e.2, pressed := false, longSent := false },
      if l.longSent then [] else [false])
  else ({ l with lastEdgeMs := e.2 }, [])

/-- A list of edges, oldest first. -/
def lineRun (l : Line) : List ButtonEdge → Line × List Bool
  | [] => (l, [])
  | e :: es => ((lineRun (lineEdge l e).1 es).1, (lineEdge l e).2 ++ (lineRun (lineEdge l e).1 es).2)

theorem lineRun_append (l : Line) (es fs : List ButtonEdge) :
    lineRun l (es ++ fs) =
      ((lineRun (lineRun l es).1 fs).1, (lineRun l es).2 ++ (lineRun (lineRun l es).1 fs).2) := by
  induction es generalizing l with
  | nil => rfl
  | cons e es ih => simp only [List.cons_append, lineRun, ih, List.append_assoc]

/-- The flags of a line agree with the edges read so far. -/
structure Tracks (l : Line) (es : List ButtonEdge) : Prop where
  held : held es = if l.pressed then some l.pressTimeMs else none
  last : ∀ e ∈ es.getLast?, l.lastEdgeMs = e.2
  first : es = [] → l.lastEdgeMs = 0
  sent : l.longSent = true → l.pressed = true

theorem tracks_initial : Tracks {} [] where
  held := rfl
  last := by simp
  first _ := rfl
  sent := by simp

theorem Tracks.edge {l : Line} {es : List ButtonEdge} (h : Tracks l es) (e : ButtonEdge) :
    Tracks (lineEdge l e).1 (es ++ [e]) := by
  have hlast : (lineEdge l e).1.lastEdgeMs = e.2 := by
    unfold lineEdge
    split_ifs <;> rfl
  refine ⟨?_, fun e' he' => ?_, by simp, fun hsent => ?_⟩
  · rw [held_concat]
    unfold lineEdge
    split_ifs with hpress hpressed <;> simp_all
  · simp only [List.getLast?_append, List.getLast?_singleton, Option.some_or,
      Option.mem_some_iff] at he'
    rw [hlast, he']
  · revert hsent
    unfold lineEdge
    split_ifs with hpress hpressed
    · simp
    · simp
    · exact h.sent

theorem Tracks.edges {l : Line} {es : List ButtonEdge} (h : Tracks l es)
    (fs : List ButtonEdge) : Tracks (lineRun l fs).1 (es ++ fs) := by
  induction fs generalizing l es with
  | nil => simpa [lineRun] using h
  | cons f fs ih => simpa [lineRun] using ih (h.edge f)

/-- Without bounces the software debounce drops nothing. -/
theorem Tracks.not_bounces {l : Line} {es : List ButtonEdge} (h : Tracks l es) (s : State)
    {e : ButtonEdge} (hs : Spaced (es ++ [e])) : s.bounces l e.2 = false := by
  rcases List.eq_nil_or_concat es with rfl | ⟨fs, f, rfl⟩
  · simp [State.bounces, h.first rfl]
  · rw [List.concat_eq_append] at hs h
    have hfollows : Follows f e := hs.follows
    have hlast : l.lastEdgeMs = f.2 := h.last f (by simp)
    have hgap : ¬e.2 - f.2 < gpioDebounceMs := UInt64.not_lt.2 hfollows.2.2
    simp [State.bounces, hlast, hgap]

/-- A line that has not sent the long press makes a short press of everything. -/
theorem lineRun_short {l : Line} (h : l.longSent = false) (fs : List ButtonEdge) :
    (lineRun l fs).2 =
      (pressesFrom (if l.pressed then some l.pressTimeMs else none) fs).map fun _ => false := by
  induction fs generalizing l with
  | nil => rfl
  | cons f fs ih =>
    have hsent : (lineEdge l f).1.longSent = false := by
      unfold lineEdge
      split_ifs <;> first | rfl | exact h
    rw [lineRun, ih hsent]
    obtain ⟨_ | _, t⟩ := f
    · cases hp : l.pressed <;> simp [lineEdge, pressesFrom, hp, h]
    · simp [lineEdge, pressesFrom]

theorem lineEdge_longSent {l : Line} {es : List ButtonEdge} (h : Tracks l es) (e : ButtonEdge) :
    (lineEdge l e).1.longSent = false := by
  unfold lineEdge
  split_ifs with hpress hpressed <;> try rfl
  exact Bool.eq_false_iff.2 fun hsent => hpressed (h.sent hsent)

theorem lineRun_longSent {l : Line} {es fs : List ButtonEdge} (h : Tracks l es) (hne : fs ≠ []) :
    (lineRun l fs).1.longSent = false := by
  induction fs generalizing l es with
  | nil => exact absurd rfl hne
  | cons f fs ih =>
    cases fs with
    | nil => exact lineEdge_longSent h f
    | cons g fs => exact ih (h.edge f) (List.cons_ne_nil g fs)

/-- **What a batch says about a button.** Together with a long press already sent, a batch answers
the press that was held before with whatever has been sent, and its own presses with short ones. -/
theorem lineRun_answers {l : Line} {es fs : List ButtonEdge} (h : Tracks l es)
    (hs : Spaced (es ++ fs)) (hne : fs ≠ []) :
    (if l.longSent then [true] else []) ++ (lineRun l fs).2 =
      (straddling (held es) fs).map (fun _ => l.longSent) ++ (presses fs).map fun _ => false := by
  cases hsent : l.longSent with
  | false =>
    rw [lineRun_short hsent, ← h.held, pressesFrom_held hs, List.map_append]
    rfl
  | true =>
    have hheld : held es = some l.pressTimeMs := by rw [h.held, if_pos (h.sent hsent)]
    obtain ⟨f, fs, rfl⟩ := List.exists_cons_of_ne_nil hne
    have hf : f.1 = false := by
      rw [← List.singleton_append, ← List.append_assoc] at hs
      exact released_of_held hs.left_of_append hheld
    obtain ⟨_, tr⟩ := f
    obtain rfl : _ = false := hf
    have hnext : lineEdge l (false, tr) =
        ({ l with lastEdgeMs := tr, pressed := false, longSent := false }, []) := by
      simp [lineEdge, h.sent hsent, hsent]
    rw [hheld, lineRun, hnext, lineRun_short rfl]
    rfl

/-! ## The lines under the operations of the code -/

/-- The edges of button `i` in a list of edge events. -/
def lineEdges (btnOffsets : Fin 3 → ℕ) (pressedLevel : ℤ) (i : Fin 3) (es : List EdgeEvent) :
    List ButtonEdge :=
  es.filterMap fun e =>
    if State.findLine btnOffsets e.offset = some i then
      some (decide (e.newValue = pressedLevel), e.timeMs)
    else none

/-- Whether an event type is one of button `i`, and if so a long press. -/
def ofButton (i : Fin 3) (type : EventType) : Option Bool :=
  if type = toButtonEvent i true then some true
  else if type = toButtonEvent i false then some false
  else none

/-- The events of button `i`: `true` is a long press, `false` a short one. -/
def lineEvents (i : Fin 3) (events : List GpioEvent) : List Bool :=
  events.filterMap fun e => ofButton i e.type

theorem ofButton_toButtonEvent : ∀ (i j : Fin 3) (longPress : Bool),
    ofButton j (toButtonEvent i longPress) = if j = i then some longPress else none := by
  decide

theorem lineEvents_append (i : Fin 3) (es fs : List GpioEvent) :
    lineEvents i (es ++ fs) = lineEvents i es ++ lineEvents i fs := List.filterMap_append

theorem lineEdges_append (btnOffsets : Fin 3 → ℕ) (pressedLevel : ℤ) (i : Fin 3)
    (es fs : List EdgeEvent) : lineEdges btnOffsets pressedLevel i (es ++ fs) =
      lineEdges btnOffsets pressedLevel i es ++ lineEdges btnOffsets pressedLevel i fs :=
  List.filterMap_append

theorem lineEvents_singleton (i j : Fin 3) (longPress : Bool) (timestampNs : UInt64) :
    lineEvents j [{ type := toButtonEvent i longPress, line := i, timestampNs := timestampNs }] =
      if j = i then [longPress] else [] := by
  simp only [lineEvents, List.filterMap_cons, ofButton_toButtonEvent]
  split_ifs <;> rfl

namespace State

/-- What the operations on the lines leave alone. -/
structure Frame (s s' : State) : Prop where
  requested : s'.requested = s.requested
  timerOpen : s'.timerOpen = s.timerOpen
  pressedLevel : s'.pressedLevel = s.pressedLevel
  unread : s'.unread = s.unread
  taken : s'.taken = s.taken
  delivered : s'.delivered = s.delivered

theorem Frame.refl (s : State) : Frame s s := ⟨rfl, rfl, rfl, rfl, rfl, rfl⟩

theorem Frame.trans {s s' s'' : State} (h : Frame s s') (h' : Frame s' s'') : Frame s s'' :=
  ⟨h'.requested.trans h.requested, h'.timerOpen.trans h.timerOpen,
    h'.pressedLevel.trans h.pressedLevel, h'.unread.trans h.unread, h'.taken.trans h.taken,
    h'.delivered.trans h.delivered⟩

/-- `s'` has the lines `r`, and has said `r.2` in addition, in at most `n` events. -/
structure Effect (s s' : State) (r : Fin 3 → Line × List Bool) (n : ℕ) : Prop where
  lines : ∀ j, s'.lines j = (r j).1
  events : ∀ j, lineEvents j s'.pending.contents = lineEvents j s.pending.contents ++ (r j).2
  length : s'.pending.contents.length ≤ s.pending.contents.length + n
  quiet : (∀ j, (r j).2 = []) → s'.pending.contents = s.pending.contents
  clockMs : s'.clockMs = s.clockMs
  frame : Frame s s'

theorem Effect.still {s : State} {r : Fin 3 → Line × List Bool} (h : ∀ j, r j = (s.lines j, []))
    (n : ℕ) : Effect s s r n where
  lines j := by rw [h]
  events j := by rw [h, List.append_nil]
  length := Nat.le_add_right ..
  quiet _ := rfl
  clockMs := rfl
  frame := .refl s

theorem Effect.trans {s s' s'' : State} {r r' r'' : Fin 3 → Line × List Bool} {n n' : ℕ}
    (h : Effect s s' r n) (h' : Effect s' s'' r' n')
    (hr : ∀ j, r'' j = ((r' j).1, (r j).2 ++ (r' j).2)) : Effect s s'' r'' (n + n') where
  lines j := by rw [h'.lines, hr]
  events j := by rw [h'.events, h.events, hr, List.append_assoc]
  length := by
    have h₁ := h.length
    have h₂ := h'.length
    omega
  quiet hquiet := by
    have hparts : ∀ j, (r j).2 = [] ∧ (r' j).2 = [] := fun j =>
      List.append_eq_nil_iff.1 ((congrArg Prod.snd (hr j)).symm.trans (hquiet j))
    rw [h'.quiet fun j => (hparts j).2, h.quiet fun j => (hparts j).1]
  clockMs := h'.clockMs.trans h.clockMs
  frame := h.frame.trans h'.frame

theorem Effect.mono {s s' : State} {r r' : Fin 3 → Line × List Bool} {n n' : ℕ}
    (h : Effect s s' r n) (hr : ∀ j, r' j = r j) (hn : n ≤ n') : Effect s s' r' n' where
  lines j := by rw [hr, h.lines]
  events j := by rw [hr, h.events]
  length := h.length.trans (Nat.add_le_add_left hn _)
  quiet hquiet := h.quiet fun j => by rw [← hr, hquiet]
  clockMs := h.clockMs
  frame := h.frame

/-- Arming the timer changes nothing else. -/
theorem updateLongPressTimer_eq (s : State) (nowMs : UInt64) :
    ∃ t, s.updateLongPressTimer nowMs = { s with timer := t } := by
  unfold updateLongPressTimer
  split
  · exact ⟨s.timer, rfl⟩
  · generalize s.nextDelay nowMs = delay
    obtain ⟨hasPending, nextDelayMs⟩ := delay
    cases hasPending
    · exact ⟨_, rfl⟩
    · exact ⟨_, rfl⟩

/-- Arming the timer is invisible to the lines. -/
theorem Effect.armed {s s' : State} {r : Fin 3 → Line × List Bool} {n : ℕ}
    (h : Effect s s' r n) (nowMs : UInt64) : Effect s (s'.updateLongPressTimer nowMs) r n := by
  obtain ⟨t, ht⟩ := updateLongPressTimer_eq s' nowMs
  rw [ht]
  exact ⟨h.lines, h.events, h.length, h.quiet, h.clockMs, h.frame.trans ⟨rfl, rfl, rfl, rfl, rfl, rfl⟩⟩

/-- The flags of one line change and nothing is said. -/
theorem effect_setLine (s : State) (i : Fin 3) (l : Line) :
    Effect s (s.setLine i l) (fun j => if j = i then (l, []) else (s.lines j, [])) 0 where
  lines j := by
    change Function.update s.lines i l j = _
    rw [Function.update_apply]
    split_ifs <;> rfl
  events j := by split_ifs <;> exact (List.append_nil _).symm
  length := le_rfl
  quiet _ := rfl
  clockMs := rfl
  frame := ⟨rfl, rfl, rfl, rfl, rfl, rfl⟩

/-- An event of a button is queued. -/
theorem effect_pendingPush {s : State} (hroom : s.pending.contents.length < maxPendingEvents)
    (i : Fin 3) (longPress : Bool) (timestampNs : UInt64) :
    Effect s (s.pendingPush
        { type := toButtonEvent i longPress, line := i, timestampNs := timestampNs })
      (fun j => (s.lines j, if j = i then [longPress] else [])) 1 where
  lines _ := rfl
  events j := by
    rw [pendingPush, EventQueue.contents_pendingPush hroom, lineEvents_append,
      lineEvents_singleton]
  length := by
    rw [pendingPush, EventQueue.contents_pendingPush hroom, List.length_append,
      List.length_singleton]
  quiet hquiet := by simpa using hquiet i
  clockMs := rfl
  frame := ⟨rfl, rfl, rfl, rfl, rfl, rfl⟩

/-- Both together. -/
theorem effect_setLine_push {s : State}
    (hroom : s.pending.contents.length < maxPendingEvents) (i : Fin 3) (l : Line)
    (longPress : Bool) (timestampNs : UInt64) :
    Effect s ((s.setLine i l).pendingPush
        { type := toButtonEvent i longPress, line := i, timestampNs := timestampNs })
      (fun j => if j = i then (l, [longPress]) else (s.lines j, [])) 1 :=
  have hset : Effect s (s.setLine i l) _ 0 := effect_setLine s i l
  have hpush := effect_pendingPush (s := s.setLine i l) hroom i longPress timestampNs
  hset.trans hpush fun j => by
    dsimp only
    rw [hset.lines]
    split_ifs <;> rfl

/-! ### The timer handler -/

/-- The body of the loop of the timer handler on its line. -/
def fire (nowMs : UInt64) (l : Line) : Line × List Bool :=
  if due l nowMs then ({ l with longSent := true }, [true]) else (l, [])

theorem fire_fire (nowMs : UInt64) (l : Line) :
    fire nowMs (fire nowMs l).1 = ((fire nowMs l).1, []) := by
  cases hdue : due l nowMs with
  | true => simp [fire, hdue, show due { l with longSent := true } nowMs = false by simp [due]]
  | false => simp [fire, hdue]

theorem effect_sendLongPress {s : State} (hroom : s.pending.contents.length < maxPendingEvents)
    (nowMs nowNs : UInt64) (i : Fin 3) :
    Effect s (sendLongPress nowMs nowNs s i)
      (fun j => if j = i then fire nowMs (s.lines j) else (s.lines j, [])) 1 := by
  have hfire : ∀ j, (if j = i then fire nowMs (s.lines j) else (s.lines j, [])) =
      if j = i then fire nowMs (s.lines i) else (s.lines j, []) := fun j => by
    split_ifs with h
    · rw [h]
    · rfl
  simp only [hfire]
  unfold sendLongPress fire
  split_ifs with hdue
  · exact effect_setLine_push hroom i _ true nowNs
  · refine .still (fun j => ?_) 1
    split_ifs with h
    · rw [h]
    · rfl

/-- The loop of the timer handler fires every line of the list. -/
theorem effect_sendLongPresses (nowMs nowNs : UInt64) (is : List (Fin 3)) {s : State}
    (hroom : s.pending.contents.length + is.length ≤ maxPendingEvents) :
    Effect s (is.foldl (sendLongPress nowMs nowNs) s)
      (fun j => if j ∈ is then fire nowMs (s.lines j) else (s.lines j, [])) is.length := by
  induction is generalizing s with
  | nil => exact .still (fun j => rfl) 0
  | cons i is ih =>
    rw [List.length_cons] at hroom
    have hfirst := effect_sendLongPress (s := s) (by omega) nowMs nowNs i
    have hrest := ih (s := sendLongPress nowMs nowNs s i) (by have := hfirst.length; omega)
    rw [List.length_cons, Nat.add_comm]
    refine hfirst.trans hrest fun j => ?_
    rw [hfirst.lines]
    by_cases hj : j = i
    · simp only [hj, List.mem_cons_self, if_true, fire_fire]
      split_ifs <;> simp
    · simp only [List.mem_cons, hj, false_or, if_false, List.nil_append]

/-- **The timer handler.** With a timer, an empty queue is left with the long presses that are
due. -/
theorem effect_handleLongPressTimer {s : State} (htimer : s.timerOpen = true)
    (hempty : s.pending.contents = []) (env : ReadEnv) :
    Effect { s with clockMs := env.nowMs } (s.handleLongPressTimer env)
      (fun j => fire env.nowMs (s.lines j)) 3 := by
  have hloop := effect_sendLongPresses env.nowMs env.nowNs (List.finRange 3)
    (s := { s with clockMs := env.nowMs }) (by
      change s.pending.contents.length + _ ≤ _
      rw [hempty, List.length_finRange]
      decide)
  simp only [List.mem_finRange, if_true] at hloop
  unfold handleLongPressTimer
  rw [if_neg (by simp [htimer])]
  exact hloop.armed env.armMs

/-! ### Edges -/

/-- One edge on the lines. -/
theorem effect_processEdgeEvent (btnOffsets : Fin 3 → ℕ) {s : State} (htimer : s.timerOpen = true)
    (hroom : s.pending.contents.length < maxPendingEvents) (e : EdgeEvent) (armMs : UInt64)
    (hbounce : ∀ i, findLine btnOffsets e.offset = some i →
      s.bounces (s.lines i) e.timeMs = false) :
    Effect s (s.processEdgeEvent btnOffsets e armMs)
      (fun j => lineRun (s.lines j) (lineEdges btnOffsets s.pressedLevel j [e])) 1 := by
  unfold processEdgeEvent
  cases hline : findLine btnOffsets e.offset with
  | none => exact .still (fun j => by simp [lineEdges, hline, lineRun]) 1
  | some i =>
    set isPressed := decide (e.newValue = s.pressedLevel) with hpress
    have hrun : ∀ j, lineRun (s.lines j) (lineEdges btnOffsets s.pressedLevel j [e]) =
        if j = i then lineEdge (s.lines i) (isPressed, e.timeMs) else (s.lines j, []) := fun j => by
      split_ifs with h
      · simp [lineEdges, hline, h, lineRun, hpress]
      · simp [lineEdges, hline, Ne.symm h, lineRun]
    have hmono : ∀ {s' out n}, Effect s s' (fun j => if j = i then out else (s.lines j, [])) n →
        n ≤ 1 → lineEdge (s.lines i) (isPressed, e.timeMs) = out →
        Effect s s'
          (fun j => lineRun (s.lines j) (lineEdges btnOffsets s.pressedLevel j [e])) 1 :=
      fun h hn hout => h.mono (fun j => (hrun j).trans (by rw [hout])) hn
    simp only [hbounce i hline, htimer, Bool.not_true, Bool.false_eq_true, if_false]
    cases hp : isPressed with
    | true =>
      exact (hmono (effect_setLine s i _) (by omega) (by simp [lineEdge, hp])).armed armMs
    | false =>
      cases hheld : (s.lines i).pressed with
      | false => exact hmono (effect_setLine s i _) (by omega) (by simp [lineEdge, hp, hheld])
      | true =>
        cases hsent : (s.lines i).longSent with
        | false =>
          exact (hmono (effect_setLine_push hroom i _ false e.timestampNs) le_rfl
            (by simp [lineEdge, hp, hheld, hsent])).armed armMs
        | true =>
          exact (hmono (effect_setLine s i _) (by omega)
            (by simp [lineEdge, hp, hheld, hsent])).armed armMs

/-- **A batch of edges** moves every line along its own edges, as long as the queue has room for an
event for each of them. -/
theorem effect_processEdgeEvents (btnOffsets : Fin 3 → ℕ) (env : ReadEnv) {s : State}
    {pressedLevel : ℤ} (hlevel : s.pressedLevel = pressedLevel) (htimer : s.timerOpen = true)
    {read : Fin 3 → List ButtonEdge} (htracks : ∀ j, Tracks (s.lines j) (read j)) (k : ℕ)
    (es : List EdgeEvent) (hroom : s.pending.contents.length + es.length ≤ maxPendingEvents)
    (hspaced : ∀ j, Spaced (read j ++ lineEdges btnOffsets pressedLevel j es)) :
    Effect s (processEdgeEvents btnOffsets env s k es)
      (fun j => lineRun (s.lines j) (lineEdges btnOffsets pressedLevel j es)) es.length := by
  induction es generalizing s k read with
  | nil => exact .still (fun j => rfl) 0
  | cons e es ih =>
    rw [List.length_cons] at hroom
    have hcons : ∀ j, lineEdges btnOffsets pressedLevel j (e :: es) =
        lineEdges btnOffsets pressedLevel j [e] ++ lineEdges btnOffsets pressedLevel j es :=
      fun j => lineEdges_append btnOffsets pressedLevel j [e] es
    simp only [hcons, ← List.append_assoc] at hspaced
    have hfirst := effect_processEdgeEvent btnOffsets htimer (by omega) e (env.edgeArmMs k)
      fun i hi => by
        have hone : lineEdges btnOffsets pressedLevel i [e] =
            [(decide (e.newValue = pressedLevel), e.timeMs)] := by simp [lineEdges, hi]
        have hnext := (hspaced i).left_of_append
        rw [hone] at hnext
        have hnot := (htracks i).not_bounces s hnext
        exact hnot
    rw [hlevel] at hfirst
    have hnext : ∀ j, Tracks ((s.processEdgeEvent btnOffsets e (env.edgeArmMs k)).lines j)
        (read j ++ lineEdges btnOffsets pressedLevel j [e]) := fun j => by
      rw [hfirst.lines]
      exact (htracks j).edges _
    have hrest := ih (hfirst.frame.pressedLevel.trans hlevel) (hfirst.frame.timerOpen.trans htimer)
      hnext (k + 1) (by have := hfirst.length; omega) hspaced
    rw [processEdgeEvents, List.length_cons, Nat.add_comm es.length 1]
    refine hfirst.trans hrest fun j => ?_
    rw [hfirst.lines, hcons, lineRun_append]

end State

end NanoHat.Gpio
