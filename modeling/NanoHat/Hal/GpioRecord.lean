import NanoHat.Hal.GpioClassify

/-!
# One event for each press

A press that is accepted produces one event: the long press when the timer handler gets to it, or
else the short one when its release is processed. The two places share nothing but the flags
`g_pressed` and `g_long_sent`. A `Recorder` runs the code and writes down, in order, the edges that
are accepted and the events that are produced (`state_step`: it does nothing else); `Recorded` says
what the record of every run looks like, whatever the edges, the bounces and the calls. The events
that the calls of `read_event` return are the ones that `delivered` keeps (`delivered_run`).
-/

namespace NanoHat.Gpio

open Runs

/-! ## What the calls return -/

/-- The event that a call of `read_event` hands out. -/
def State.ReadResult.handedOut : State.ReadResult → Option GpioEvent
  | .event e => some e
  | _ => none

namespace State

variable {btnOffsets : Fin 3 → ℕ}

/-- What the calls of `read_event` in a run return, in order. -/
def results (btnOffsets : Fin 3 → ℕ) (s : State) : List Event → List ReadResult
  | [] => []
  | .edge e :: es => results btnOffsets (s.step btnOffsets (.edge e)) es
  | .read env :: es =>
    (s.libgpiodReadEvent btnOffsets env).2 :: results btnOffsets (s.step btnOffsets (.read env)) es

/-- The events among them. -/
def returned (btnOffsets : Fin 3 → ℕ) (s : State) (es : List Event) : List GpioEvent :=
  (s.results btnOffsets es).filterMap ReadResult.handedOut

theorem delivered_handleLongPressTimer (s : State) (env : ReadEnv) :
    (s.handleLongPressTimer env).delivered = s.delivered := by
  have hsend : ∀ (is : List (Fin 3)) (s : State),
      (is.foldl (sendLongPress env.nowMs env.nowNs) s).delivered = s.delivered := by
    intro is
    induction is with
    | nil => exact fun _ => rfl
    | cons i is ih =>
      refine fun s => (ih _).trans ?_
      unfold sendLongPress
      split <;> rfl
  unfold handleLongPressTimer
  split
  · rfl
  · obtain ⟨t, ht⟩ := updateLongPressTimer_eq ((List.finRange 3).foldl
      (sendLongPress env.nowMs env.nowNs) { s with clockMs := env.nowMs }) env.armMs
    dsimp only
    rw [ht]
    exact hsend _ _

theorem delivered_processEdgeEvent (s : State) (e : EdgeEvent) (armMs : UInt64) :
    (s.processEdgeEvent btnOffsets e armMs).delivered = s.delivered := by
  have harm : ∀ s' : State, (s'.updateLongPressTimer armMs).delivered = s'.delivered := by
    intro s'
    obtain ⟨t, ht⟩ := s'.updateLongPressTimer_eq armMs
    rw [ht]
  unfold processEdgeEvent
  split
  · rfl
  dsimp only
  split
  · rfl
  split
  · exact harm _
  split
  · rfl
  split
  · rfl
  · refine (harm _).trans ?_
    split <;> rfl

theorem delivered_processEdgeEvents (env : ReadEnv) (es : List EdgeEvent) (s : State) (k : ℕ) :
    (s.processEdgeEvents btnOffsets env k es).delivered = s.delivered := by
  induction es generalizing s k with
  | nil => rfl
  | cons e es ih => exact (ih _ _).trans (s.delivered_processEdgeEvent e _)

/-- If what follows an empty queue keeps `delivered`, so does the attempt to pop. -/
theorem delivered_popOr {s : State} {k : State → State × ReadResult}
    (hk : (k s).1.delivered = s.delivered ++ (k s).2.handedOut.toList) :
    (s.popOr k).1.delivered = s.delivered ++ (s.popOr k).2.handedOut.toList := by
  unfold popOr
  cases s.pending.pendingPop with
  | some popped => rfl
  | none => exact hk

/-- A call adds to `delivered` the event that it returns, if it returns one. -/
theorem delivered_read (s : State) (env : ReadEnv) :
    (s.libgpiodReadEvent btnOffsets env).1.delivered =
      s.delivered ++ (s.libgpiodReadEvent btnOffsets env).2.handedOut.toList := by
  have hnone : ∀ (s : State) (result : ReadResult), result.handedOut = none →
      s.delivered = s.delivered ++ result.handedOut.toList := fun s result h => by
    rw [h]
    exact (List.append_nil _).symm
  unfold libgpiodReadEvent
  split
  · exact hnone _ _ rfl
  refine delivered_popOr ?_
  rw [← s.delivered_handleLongPressTimer env]
  refine delivered_popOr ?_
  split
  · exact hnone _ _ rfl
  split
  · exact hnone _ _ rfl
  generalize s.handleLongPressTimer env = s'
  have hedges : (s'.takeEdges.processEdgeEvents btnOffsets env 0
      (s'.unread.take edgeBufferCapacity)).delivered = s'.delivered :=
    delivered_processEdgeEvents env _ s'.takeEdges 0
  rw [← hedges]
  exact delivered_popOr (hnone _ _ rfl)

theorem returned_read (s : State) (env : ReadEnv) (es : List Event) :
    s.returned btnOffsets (.read env :: es) =
      (s.libgpiodReadEvent btnOffsets env).2.handedOut.toList ++
        (s.step btnOffsets (.read env)).returned btnOffsets es := by
  unfold returned
  rw [results, List.filterMap_cons]
  cases (s.libgpiodReadEvent btnOffsets env).2.handedOut <;> rfl

/-- **The calls of a run return** what `delivered` keeps. -/
theorem delivered_run (s : State) (es : List Event) :
    (run (step btnOffsets) s es).delivered = s.delivered ++ s.returned btnOffsets es := by
  induction es generalizing s with
  | nil => exact (List.append_nil _).symm
  | cons e es ih =>
    rw [run_cons, ih]
    cases e with
    | edge e => rfl
    | read env =>
      rw [returned_read, ← List.append_assoc, ← s.delivered_read env]
      rfl

end State

/-! ## The record -/

/-- What is written down. -/
inductive Occurrence
  /-- A press edge of a button is accepted. -/
  | press (i : Fin 3)
  | release (i : Fin 3)
  /-- An event is produced; `overwrites` tells whether the queue was full. -/
  | event (e : GpioEvent) (overwrites : Bool)
  deriving DecidableEq

namespace Occurrence

/-- An event of button `i`. -/
def isEventOf (i : Fin 3) : Occurrence → Bool
  | .event e _ => e.line = i
  | _ => false

end Occurrence

open Occurrence

/-- The part of a record, newest first, after the last accepted press edge of button `i`. -/
def since (i : Fin 3) (h : List Occurrence) : List Occurrence := h.takeWhile (· ≠ .press i)

/-- The events of button `i` in this part. -/
def eventsSince (i : Fin 3) (h : List Occurrence) : ℕ := (since i h).countP (isEventOf i)

/-- The events produced, oldest first. -/
def produced : List Occurrence → List GpioEvent
  | [] => []
  | .event e _ :: past => produced past ++ [e]
  | _ :: past => produced past

/-- An event follows an accepted press edge of its button, and is the first one since. -/
def Due : Occurrence → List Occurrence → Prop
  | .event e _, past => .press e.line ∈ past ∧ eventsSince e.line past = 0
  | _, _ => True

/-- Every press whose release has been accepted has one event. -/
def Answered (h : List Occurrence) : Prop :=
  ∀ i, .press i ∈ h → .release i ∈ since i h → eventsSince i h = 1

/-- Before another edge is accepted, all releases have been answered. -/
def Prompt : Occurrence → List Occurrence → Prop
  | .event .., _ => True
  | _, past => Answered past

@[simp] theorem since_press (i : Fin 3) (h : List Occurrence) : since i (.press i :: h) = [] := by
  simp [since]

theorem since_cons {i : Fin 3} {o : Occurrence} (ho : o ≠ .press i) (h : List Occurrence) :
    since i (o :: h) = o :: since i h := by
  simp [since, ho]

theorem eventsSince_cons {i : Fin 3} {o : Occurrence} (ho : o ≠ .press i) (h : List Occurrence) :
    eventsSince i (o :: h) = eventsSince i h + if isEventOf i o then 1 else 0 := by
  unfold eventsSince
  rw [since_cons ho, List.countP_cons]

/-! ## Recording -/

/-- A run of the code with its record, newest first. -/
structure Recorder where
  state : State
  history : List Occurrence := []

namespace Recorder

/-- The push between two states, if there was one. -/
def pushed (s s' : State) : List Occurrence :=
  if s'.pending.tail = s.pending.tail then []
  else
    (s'.pending.contents.getLast?.map fun e =>
      .event e (decide (maxPendingEvents ≤ s.pending.count))).toList

/-- The edge that `process_edge_event` accepts: one of a button, and no bounce. -/
def accepted (btnOffsets : Fin 3 → ℕ) (s : State) (e : EdgeEvent) : List Occurrence :=
  match State.findLine btnOffsets e.offset with
  | none => []
  | some i =>
    if s.bounces (s.lines i) e.timeMs then []
    else [if e.newValue = s.pressedLevel then .press i else .release i]

def sendLongPress (env : State.ReadEnv) (r : Recorder) (i : Fin 3) : Recorder :=
  let s' := r.state.sendLongPress env.nowMs env.nowNs i
  ⟨s', pushed r.state s' ++ r.history⟩

def handleLongPressTimer (r : Recorder) (env : State.ReadEnv) : Recorder :=
  if !r.state.timerOpen then r
  else
    let r := (List.finRange 3).foldl (sendLongPress env)
      { r with state := { r.state with clockMs := env.nowMs } }
    { r with state := r.state.updateLongPressTimer env.armMs }

def processEdgeEvent (btnOffsets : Fin 3 → ℕ) (r : Recorder) (e : EdgeEvent) (armMs : UInt64) :
    Recorder :=
  let s' := r.state.processEdgeEvent btnOffsets e armMs
  ⟨s', pushed r.state s' ++ (accepted btnOffsets r.state e ++ r.history)⟩

def processEdgeEvents (btnOffsets : Fin 3 → ℕ) (env : State.ReadEnv) (r : Recorder) (k : ℕ) :
    List EdgeEvent → Recorder
  | [] => r
  | e :: es =>
    processEdgeEvents btnOffsets env (r.processEdgeEvent btnOffsets e (env.edgeArmMs k)) (k + 1) es

def popOr (r : Recorder) (k : Recorder → Recorder) : Recorder :=
  match r.state.pending.pendingPop with
  | some (e, q) =>
    { r with state := { r.state with pending := q, delivered := r.state.delivered ++ [e] } }
  | none => k r

def libgpiodReadEvent (btnOffsets : Fin 3 → ℕ) (r : Recorder) (env : State.ReadEnv) : Recorder :=
  if !r.state.requested then r
  else
    r.popOr fun r =>
    (r.handleLongPressTimer env).popOr fun r =>
    if env.readFails then r
    else if r.state.unread = [] then r
    else
      (processEdgeEvents btnOffsets env { r with state := r.state.takeEdges } 0
        (r.state.unread.take edgeBufferCapacity)).popOr id

def step (btnOffsets : Fin 3 → ℕ) (r : Recorder) : State.Event → Recorder
  | .edge e => { r with state := { r.state with unread := r.state.unread ++ [e] } }
  | .read env => r.libgpiodReadEvent btnOffsets env

/-! ### Recording changes nothing -/

variable {btnOffsets : Fin 3 → ℕ}

theorem state_sendLongPresses (env : State.ReadEnv) (is : List (Fin 3)) (r : Recorder) :
    (is.foldl (sendLongPress env) r).state =
      is.foldl (State.sendLongPress env.nowMs env.nowNs) r.state := by
  induction is generalizing r with
  | nil => rfl
  | cons i is ih => exact ih (r.sendLongPress env i)

theorem state_handleLongPressTimer (r : Recorder) (env : State.ReadEnv) :
    (r.handleLongPressTimer env).state = r.state.handleLongPressTimer env := by
  unfold handleLongPressTimer State.handleLongPressTimer
  split
  · rfl
  · dsimp only
    rw [state_sendLongPresses]

theorem state_processEdgeEvents (env : State.ReadEnv) (es : List EdgeEvent) (r : Recorder) (k : ℕ) :
    (r.processEdgeEvents btnOffsets env k es).state =
      State.processEdgeEvents btnOffsets env r.state k es := by
  induction es generalizing r k with
  | nil => rfl
  | cons e es ih => exact ih (r.processEdgeEvent btnOffsets e (env.edgeArmMs k)) (k + 1)

theorem state_popOr {r : Recorder} {k : Recorder → Recorder}
    {k' : State → State × State.ReadResult} (hk : (k r).state = (k' r.state).1) :
    (r.popOr k).state = (r.state.popOr k').1 := by
  unfold popOr State.popOr
  cases r.state.pending.pendingPop with
  | some popped => rfl
  | none => exact hk

/-- **The recorder runs the code.** -/
theorem state_step (r : Recorder) (e : State.Event) :
    (r.step btnOffsets e).state = r.state.step btnOffsets e := by
  cases e with
  | edge e => rfl
  | read env =>
    unfold Recorder.step State.step libgpiodReadEvent State.libgpiodReadEvent
    dsimp only
    split
    · rfl
    refine state_popOr ?_
    rw [← state_handleLongPressTimer]
    refine state_popOr ?_
    split
    · rfl
    split
    · rfl
    rw [← state_processEdgeEvents env _ { r.handleLongPressTimer env with
      state := (r.handleLongPressTimer env).state.takeEdges } 0]
    exact state_popOr rfl

/-! ## The invariant -/

/-- The flags of a line say how its last accepted press edge stands. -/
structure Tracked (l : Line) (i : Fin 3) (h : List Occurrence) : Prop where
  pressed : l.pressed = true → .press i ∈ h ∧ .release i ∉ since i h ∧
    eventsSince i h = if l.longSent then 1 else 0
  released : l.pressed = false → .press i ∈ h → eventsSince i h = 1

/-- What the record of every run looks like, with at most `n` events pending. -/
structure Recorded (n : ℕ) (r : Recorder) : Prop where
  requested : r.state.requested = true
  timerOpen : r.state.timerOpen = true
  lines : ∀ i, Tracked (r.state.lines i) i r.history
  due : Always Due r.history
  prompt : Always Prompt r.history
  room : ∀ e, .event e true ∉ r.history
  order : r.state.delivered ++ r.state.pending.contents = produced r.history
  pending : r.state.pending.contents.length ≤ n

variable {n : ℕ} {r : Recorder}

theorem Tracked.answered {l : Line} {i : Fin 3} {h : List Occurrence} (ht : Tracked l i h)
    (hpress : .press i ∈ h) (hrelease : .release i ∈ since i h) : eventsSince i h = 1 := by
  cases hl : l.pressed with
  | true => exact absurd hrelease (ht.pressed hl).2.1
  | false => exact ht.released hl hpress

theorem Recorded.answered (h : Recorded n r) : Answered r.history := fun i =>
  (h.lines i).answered

/-- What another button does leaves a line alone. -/
theorem Tracked.other {l : Line} {i : Fin 3} {h : List Occurrence} (ht : Tracked l i h)
    {o : Occurrence} (hpress : o ≠ .press i) (hrelease : o ≠ .release i)
    (hevent : isEventOf i o = false) : Tracked l i (o :: h) := by
  have hsince : eventsSince i (o :: h) = eventsSince i h := by
    rw [eventsSince_cons hpress, hevent]
    rfl
  have hmem : .press i ∈ o :: h → .press i ∈ h := fun hm =>
    (List.mem_cons.1 hm).resolve_left hpress.symm
  refine ⟨fun hl => ?_, fun hl hm => ?_⟩
  · obtain ⟨hp, hr, he⟩ := ht.pressed hl
    refine ⟨List.mem_cons_of_mem _ hp, ?_, hsince.trans he⟩
    rw [since_cons hpress]
    exact fun hm => (List.mem_cons.1 hm).elim (fun heq => hrelease heq.symm) hr
  · rw [hsince]
    exact ht.released hl (hmem hm)

/-- A press edge starts anew. -/
theorem tracked_press (i : Fin 3) (h : List Occurrence) {l : Line} (hl : l.pressed = true)
    (hsent : l.longSent = false) : Tracked l i (.press i :: h) := by
  refine ⟨fun _ => ⟨List.mem_cons_self, ?_, ?_⟩, fun hfalse => ?_⟩
  · rw [since_press]
    exact List.not_mem_nil
  · rw [hsent, eventsSince, since_press]
    rfl
  · rw [hl] at hfalse
    cases hfalse

/-- A push while there is room is recorded as such. -/
theorem pushed_pendingPush {s s' : State} {e : GpioEvent}
    (hpush : s'.pending = s.pending.pendingPush e)
    (hroom : s.pending.contents.length < maxPendingEvents) : pushed s s' = [.event e false] := by
  have hcount := s.pending.length_contents
  have hlt : s.pending.count < maxPendingEvents := by omega
  have hmake : s.pending.makeRoom = s.pending := dif_neg (by omega)
  have htail : s.pending.tail < maxPendingEvents := by
    rw [s.pending.tail_eq]
    exact Nat.mod_lt _ (by decide)
  have hne : s'.pending.tail ≠ s.pending.tail := by
    rw [hpush]
    change (s.pending.makeRoom.tail + 1) % maxPendingEvents ≠ _
    rw [hmake]
    unfold maxPendingEvents at *
    omega
  unfold pushed
  rw [if_neg hne, hpush, EventQueue.contents_pendingPush hroom, List.getLast?_append,
    decide_eq_false (by omega)]
  rfl

theorem pushed_same {s s' : State} (h : s'.pending = s.pending) : pushed s s' = [] :=
  if_pos (by rw [h])

/-! ### One line -/

variable {i : Fin 3} {l : Line} {h : List Occurrence}

theorem eventsSince_event {e : GpioEvent} (he : e.line = i) (overwrites : Bool) :
    eventsSince i (.event e overwrites :: h) = eventsSince i h + 1 := by
  rw [eventsSince_cons Occurrence.noConfusion, isEventOf, if_pos (decide_eq_true he)]

theorem eventsSince_release (j : Fin 3) :
    eventsSince i (.release j :: h) = eventsSince i h := by
  rw [eventsSince_cons Occurrence.noConfusion]
  rfl

/-- The long press of a held button. -/
theorem Tracked.long (ht : Tracked l i h) (hpressed : l.pressed = true)
    (hsent : l.longSent = false) {e : GpioEvent} (he : e.line = i) (overwrites : Bool) :
    Tracked { l with longSent := true } i (.event e overwrites :: h) := by
  obtain ⟨hp, hr, hzero⟩ := ht.pressed hpressed
  rw [hsent] at hzero
  refine ⟨fun _ => ⟨List.mem_cons_of_mem _ hp, ?_, ?_⟩, fun hfalse => ?_⟩
  · rw [since_cons Occurrence.noConfusion]
    exact fun hm => (List.mem_cons.1 hm).elim Occurrence.noConfusion hr
  · rw [eventsSince_event he, hzero]
    rfl
  · rw [hpressed] at hfalse
    cases hfalse

/-- A release of a button that is not held. -/
theorem Tracked.idle (ht : Tracked l i h) (hpressed : l.pressed = false) (timeMs : UInt64) :
    Tracked { l with lastEdgeMs := timeMs } i (.release i :: h) := by
  refine ⟨fun htrue => ?_, fun _ hm => ?_⟩
  · rw [hpressed] at htrue
    cases htrue
  · rw [eventsSince_release]
    exact ht.released hpressed ((List.mem_cons.1 hm).resolve_left Occurrence.noConfusion)

/-- A release after the long press. -/
theorem Tracked.late (ht : Tracked l i h) (hpressed : l.pressed = true)
    (hsent : l.longSent = true) (timeMs : UInt64) :
    Tracked { l with lastEdgeMs := timeMs, pressed := false, longSent := false } i
      (.release i :: h) := by
  refine ⟨(fun htrue => nomatch htrue), fun _ _ => ?_⟩
  rw [eventsSince_release, (ht.pressed hpressed).2.2, hsent]
  rfl

/-- A release that makes a short press. -/
theorem Tracked.short (ht : Tracked l i h) (hpressed : l.pressed = true)
    (hsent : l.longSent = false) (timeMs : UInt64) {e : GpioEvent} (he : e.line = i)
    (overwrites : Bool) :
    Tracked { l with lastEdgeMs := timeMs, pressed := false, longSent := false } i
      (.event e overwrites :: .release i :: h) := by
  refine ⟨(fun htrue => nomatch htrue), fun _ _ => ?_⟩
  rw [eventsSince_event he, eventsSince_release, (ht.pressed hpressed).2.2, hsent]
  rfl

theorem tracked_setLine {s : State} (hlines : ∀ j, Tracked (s.lines j) j h)
    {h' : List Occurrence} (hi : Tracked l i h')
    (hother : ∀ j, j ≠ i → Tracked (s.lines j) j h → Tracked (s.lines j) j h') (j : Fin 3) :
    Tracked ((s.setLine i l).lines j) j h' := by
  by_cases hj : j = i
  · subst hj
    change Tracked (Function.update s.lines j l j) j h'
    rw [Function.update_self]
    exact hi
  · change Tracked (Function.update s.lines i l j) j h'
    rw [Function.update_of_ne hj]
    exact hother j hj (hlines j)

theorem isEventOf_ne {e : GpioEvent} (he : e.line = i) {j : Fin 3} (hj : j ≠ i)
    (overwrites : Bool) : isEventOf j (.event e overwrites) = false :=
  decide_eq_false fun hline => hj (hline.symm.trans he)

/-! ### The timer handler -/

/-- The state after an event of button `i` has been pushed. -/
theorem Recorded.push (hr : Recorded n r) (hn : n < maxPendingEvents) {hist : List Occurrence}
    {e : GpioEvent} (hsame : produced hist = produced r.history) (hdue : Always Due hist)
    (hprompt : Always Prompt hist) (hroom : ∀ e, .event e true ∉ hist)
    (hfirst : Due (.event e false) hist)
    (hlines : ∀ j, Tracked ((r.state.setLine i l).lines j) j (.event e false :: hist)) :
    Recorded (n + 1) ⟨(r.state.setLine i l).pendingPush e,
      pushed r.state ((r.state.setLine i l).pendingPush e) ++ hist⟩ := by
  have hlen : r.state.pending.contents.length < maxPendingEvents := hr.pending.trans_lt hn
  have hcontents := EventQueue.contents_pendingPush hlen e
  rw [pushed_pendingPush rfl hlen]
  refine ⟨hr.requested, hr.timerOpen, hlines, ⟨hfirst, hdue⟩, ⟨trivial, hprompt⟩,
    fun e' hm => ?_, ?_, ?_⟩
  · rcases List.mem_cons.1 hm with heq | hm
    · cases heq
    · exact hroom e' hm
  · change r.state.delivered ++ (r.state.pending.pendingPush e).contents = produced hist ++ [e]
    rw [hcontents, hsame, ← hr.order, List.append_assoc]
  · change (r.state.pending.pendingPush e).contents.length ≤ n + 1
    rw [hcontents, List.length_append, List.length_singleton]
    exact Nat.succ_le_succ hr.pending

theorem Recorded.mono {m : ℕ} (hr : Recorded n r) (hnm : n ≤ m) : Recorded m r :=
  ⟨hr.requested, hr.timerOpen, hr.lines, hr.due, hr.prompt, hr.room, hr.order,
    hr.pending.trans hnm⟩

theorem Recorded.sendLongPress (hr : Recorded n r) (hn : n < maxPendingEvents)
    (env : State.ReadEnv) (i : Fin 3) : Recorded (n + 1) (r.sendLongPress env i) := by
  unfold Recorder.sendLongPress State.sendLongPress
  dsimp only
  split
  · rename_i hdue
    have ht := hr.lines i
    obtain ⟨⟨hpressed, hsent⟩, -⟩ : (_ ∧ _) ∧ _ := by
      simpa only [State.due, Bool.and_eq_true, Bool.not_eq_true'] using hdue
    obtain ⟨hp, -, hzero⟩ := ht.pressed hpressed
    rw [hsent] at hzero
    refine hr.push hn rfl hr.due hr.prompt hr.room ⟨hp, hzero⟩ (tracked_setLine hr.lines
      (ht.long hpressed hsent rfl false) fun j hj htj => ?_)
    exact htj.other Occurrence.noConfusion Occurrence.noConfusion (isEventOf_ne rfl hj false)
  · rw [pushed_same rfl]
    exact hr.mono (Nat.le_succ n)

/-- What the lines, the queue and the histories do not see. -/
theorem Recorded.congr (hr : Recorded n r) {s' : State} (hreq : s'.requested = r.state.requested)
    (htimer : s'.timerOpen = r.state.timerOpen) (hlines : s'.lines = r.state.lines)
    (hpending : s'.pending = r.state.pending) (hdelivered : s'.delivered = r.state.delivered) :
    Recorded n ⟨s', r.history⟩ where
  requested := hreq.trans hr.requested
  timerOpen := htimer.trans hr.timerOpen
  lines i := by
    dsimp only
    rw [hlines]
    exact hr.lines i
  due := hr.due
  prompt := hr.prompt
  room := hr.room
  order := by
    dsimp only
    rw [hdelivered, hpending]
    exact hr.order
  pending := by
    dsimp only
    rw [hpending]
    exact hr.pending

theorem Recorded.sendLongPresses (env : State.ReadEnv) (is : List (Fin 3)) (hr : Recorded n r)
    (hn : n + is.length ≤ maxPendingEvents) :
    Recorded (n + is.length) (is.foldl (Recorder.sendLongPress env) r) := by
  induction is generalizing n r with
  | nil => exact hr
  | cons i is ih =>
    rw [List.length_cons] at hn ⊢
    have hfirst := hr.sendLongPress (by omega) env i
    exact (ih hfirst (by omega)).mono (by omega)

theorem Recorded.armed {s' : State} {hist : List Occurrence} (hr : Recorded n ⟨s', hist⟩)
    (nowMs : UInt64) : Recorded n ⟨s'.updateLongPressTimer nowMs, hist⟩ := by
  obtain ⟨t, ht⟩ := s'.updateLongPressTimer_eq nowMs
  rw [ht]
  exact hr.congr rfl rfl rfl rfl rfl

theorem pushed_armed (s s' : State) (nowMs : UInt64) :
    pushed s (s'.updateLongPressTimer nowMs) = pushed s s' := by
  obtain ⟨t, ht⟩ := s'.updateLongPressTimer_eq nowMs
  rw [ht]
  rfl

theorem Recorded.handleLongPressTimer (hr : Recorded 0 r) (env : State.ReadEnv) :
    Recorded 3 (r.handleLongPressTimer env) := by
  unfold Recorder.handleLongPressTimer
  rw [if_neg (by rw [hr.timerOpen]; exact Bool.false_ne_true)]
  have hclock : Recorded 0 { r with state := { r.state with clockMs := env.nowMs } } :=
    hr.congr rfl rfl rfl rfl rfl
  exact (hclock.sendLongPresses env (List.finRange 3) (by decide)).armed env.armMs

/-! ### Edges -/

/-- An accepted edge that produces nothing. -/
theorem Recorded.edge (hr : Recorded n r) {o : Occurrence}
    (ho : o = .press i ∨ o = .release i)
    (hl : Tracked l i (o :: r.history)) :
    Recorded n ⟨r.state.setLine i l, pushed r.state (r.state.setLine i l) ++ (o :: r.history)⟩ := by
  have hsame : (r.state.setLine i l).pending = r.state.pending := rfl
  rw [pushed_same hsame]
  have hno : ∀ e b, o ≠ .event e b := by
    rintro e b rfl
    rcases ho with heq | heq <;> cases heq
  have hother : ∀ j, j ≠ i → Tracked (r.state.lines j) j r.history →
      Tracked (r.state.lines j) j (o :: r.history) := by
    intro j hj ht
    rcases ho with rfl | rfl
    · refine ht.other (fun heq => ?_) Occurrence.noConfusion rfl
      injection heq with heq
      exact hj heq.symm
    · refine ht.other Occurrence.noConfusion (fun heq => ?_) rfl
      injection heq with heq
      exact hj heq.symm
  refine ⟨hr.requested, hr.timerOpen, tracked_setLine hr.lines hl hother, ⟨?_, hr.due⟩,
    ⟨?_, hr.prompt⟩, fun e hm => ?_, ?_, hr.pending⟩
  · rcases ho with rfl | rfl <;> trivial
  · rcases ho with rfl | rfl
    · exact hr.answered
    · exact hr.answered
  · rcases List.mem_cons.1 hm with heq | hm
    · exact hno e true heq.symm
    · exact hr.room e hm
  · rcases ho with rfl | rfl
    · exact hr.order
    · exact hr.order

theorem Recorded.processEdgeEvent (hr : Recorded n r) (hn : n < maxPendingEvents)
    (btnOffsets : Fin 3 → ℕ) (e : EdgeEvent) (armMs : UInt64) :
    Recorded (n + 1) (r.processEdgeEvent btnOffsets e armMs) := by
  have hkeep : pushed r.state r.state = [] := pushed_same rfl
  unfold Recorder.processEdgeEvent
  cases hline : State.findLine btnOffsets e.offset with
  | none =>
    simp only [State.processEdgeEvent, accepted, hline, hkeep, List.nil_append]
    exact hr.mono (Nat.le_succ n)
  | some i =>
  simp only [State.processEdgeEvent, accepted, hline]
  cases hbounce : r.state.bounces (r.state.lines i) e.timeMs with
  | true =>
    simp only [if_true, hkeep, List.nil_append]
    exact hr.mono (Nat.le_succ n)
  | false =>
  simp only [Bool.false_eq_true, if_false, List.singleton_append]
  by_cases hpress : e.newValue = r.state.pressedLevel
  · rw [decide_eq_true hpress, if_pos rfl, if_pos hpress, pushed_armed]
    refine Recorded.armed ?_ armMs
    exact (hr.edge (Or.inl rfl) (tracked_press i r.history rfl rfl)).mono (Nat.le_succ n)
  rw [decide_eq_false hpress, if_neg Bool.false_ne_true, if_neg hpress]
  rcases Bool.eq_false_or_eq_true (r.state.lines i).pressed with hpressed | hpressed
  swap
  · rw [if_pos (by rw [hpressed]; rfl)]
    exact (hr.edge (Or.inr rfl) ((hr.lines i).idle hpressed e.timeMs)).mono (Nat.le_succ n)
  rw [if_neg (by rw [hpressed]; exact Bool.false_ne_true),
    if_neg (by rw [hr.timerOpen]; exact Bool.false_ne_true)]
  rw [pushed_armed]
  refine Recorded.armed ?_ armMs
  cases hsent : (r.state.lines i).longSent with
  | true =>
    exact (hr.edge (Or.inr rfl) ((hr.lines i).late hpressed hsent e.timeMs)).mono (Nat.le_succ n)
  | false =>
    obtain ⟨hp, -, hzero⟩ := (hr.lines i).pressed hpressed
    rw [hsent] at hzero
    have hother : ∀ j, j ≠ i → Tracked (r.state.lines j) j r.history →
        Tracked (r.state.lines j) j
          (.event ⟨toButtonEvent i false, i, e.timestampNs⟩ false :: .release i :: r.history) := by
      intro j hj ht
      refine (ht.other Occurrence.noConfusion (fun heq => ?_) rfl).other Occurrence.noConfusion
        Occurrence.noConfusion (isEventOf_ne rfl hj false)
      injection heq with heq
      exact hj heq.symm
    refine hr.push hn rfl ⟨trivial, hr.due⟩ ⟨hr.answered, hr.prompt⟩ (fun e' hm => ?_) ?_
      (tracked_setLine hr.lines ((hr.lines i).short hpressed hsent e.timeMs rfl false) hother)
    · exact (List.mem_cons.1 hm).elim (fun heq => by cases heq) (hr.room e')
    · exact ⟨List.mem_cons_of_mem _ hp, (eventsSince_release i).trans hzero⟩

theorem Recorded.processEdgeEvents (btnOffsets : Fin 3 → ℕ) (env : State.ReadEnv)
    (es : List EdgeEvent) (hr : Recorded n r) (k : ℕ) (hn : n + es.length ≤ maxPendingEvents) :
    Recorded (n + es.length) (r.processEdgeEvents btnOffsets env k es) := by
  induction es generalizing n r k with
  | nil => exact hr
  | cons e es ih =>
    rw [List.length_cons] at hn ⊢
    have hfirst := hr.processEdgeEvent (by omega) btnOffsets e (env.edgeArmMs k)
    exact (ih hfirst (k + 1) (by omega)).mono (by omega)

/-! ### Calls -/

/-- A pop hands out the oldest event; otherwise the call goes on with an empty queue. -/
theorem Recorded.popOr {m : ℕ} (hr : Recorded n r) (hnm : n ≤ m) {k : Recorder → Recorder}
    (hk : Recorded 0 r → Recorded m (k r)) : Recorded m (r.popOr k) := by
  unfold Recorder.popOr
  rcases r.state.pending.pendingPop_cases with ⟨hpop, hempty⟩ | ⟨e, q, hpop, hcontents⟩
  · rw [hpop]
    refine hk ⟨hr.requested, hr.timerOpen, hr.lines, hr.due, hr.prompt, hr.room, hr.order, ?_⟩
    rw [hempty]
    exact le_rfl
  · rw [hpop]
    refine ⟨hr.requested, hr.timerOpen, hr.lines, hr.due, hr.prompt, hr.room, ?_, ?_⟩
    · have horder := hr.order
      rw [hcontents] at horder
      rw [← horder]
      exact (List.append_cons ..).symm
    · have hpending := hr.pending
      rw [hcontents, List.length_cons] at hpending
      dsimp only
      omega

/-- A call of `read_event` finds and leaves at most one batch of events. -/
theorem Recorded.read (hr : Recorded edgeBufferCapacity r) (env : State.ReadEnv) :
    Recorded edgeBufferCapacity (r.libgpiodReadEvent btnOffsets env) := by
  unfold Recorder.libgpiodReadEvent
  rw [if_neg (by rw [hr.requested]; exact Bool.false_ne_true)]
  refine hr.popOr le_rfl fun hzero => (hzero.handleLongPressTimer env).popOr (by decide) fun hz => ?_
  generalize r.handleLongPressTimer env = r' at hz ⊢
  split
  · exact hz.mono (Nat.zero_le _)
  split
  · exact hz.mono (Nat.zero_le _)
  have htake : Recorded 0 { r' with state := r'.state.takeEdges } := hz.congr rfl rfl rfl rfl rfl
  have hlen : (r'.state.unread.take edgeBufferCapacity).length ≤ edgeBufferCapacity :=
    List.length_take_le ..
  have hcap : edgeBufferCapacity ≤ maxPendingEvents := by decide
  have hbatch := htake.processEdgeEvents btnOffsets env
    (r'.state.unread.take edgeBufferCapacity) 0 (by omega)
  exact (hbatch.mono (m := edgeBufferCapacity) (by omega)).popOr le_rfl
    fun h => h.mono (Nat.zero_le _)

theorem Recorded.step (hr : Recorded edgeBufferCapacity r) (e : State.Event) :
    Recorded edgeBufferCapacity (r.step btnOffsets e) := by
  cases e with
  | edge e => exact hr.congr rfl rfl rfl rfl rfl
  | read env => exact hr.read env

/-! ## Runs -/

/-- What is said about the presses of all buttons. -/
structure OneForEach (r : Recorder) : Prop where
  /-- Every event comes after an accepted press edge of its button, and is the first one since. -/
  due : Always Due r.history
  /-- Once a release is processed, its press has one event. -/
  answered : Answered r.history
  prompt : Always Prompt r.history
  /-- The queue has never been full. -/
  room : ∀ e, .event e true ∉ r.history

theorem state_run (r : Recorder) (es : List State.Event) :
    (run (step btnOffsets) r es).state = run (State.step btnOffsets) r.state es := by
  induction es generalizing r with
  | nil => rfl
  | cons e es ih => rw [run_cons, run_cons, ih, state_step]

theorem recorded_libgpiodInit {env : State.InitEnv} {s : State}
    (h : State.libgpiodInit env = some s) : Recorded edgeBufferCapacity ⟨s, []⟩ := by
  obtain ⟨pressedLevel, useSoftDebounce, rfl⟩ := State.libgpiodInit_eq h
  refine ⟨rfl, rfl, fun i => ?_, trivial, trivial, (fun _ hm => nomatch hm), rfl, Nat.zero_le _⟩
  exact ⟨(fun htrue => nomatch htrue), (fun _ hm => nomatch hm)⟩

/-- **One event for each press.** In every run after a successful initialisation, for arbitrary
edges, bounces and calls: between one accepted press edge of a button and the next there is at most
one event, exactly one when a release has been processed, and none comes without a press; no event
is lost, and the events that the calls of `read_event` return are, followed by those that are pending,
the ones that were produced, in this order. -/
theorem oneForEach_after (btnOffsets : Fin 3 → ℕ) {env : State.InitEnv} {s : State}
    (hinit : State.libgpiodInit env = some s) (es : List State.Event) :
    (run (step btnOffsets) ⟨s, []⟩ es).state = run (State.step btnOffsets) s es ∧
      OneForEach (run (step btnOffsets) ⟨s, []⟩ es) ∧
      s.returned btnOffsets es ++ (run (State.step btnOffsets) s es).pending.contents =
        produced (run (step btnOffsets) ⟨s, []⟩ es).history := by
  have hr : Recorded edgeBufferCapacity (run (step btnOffsets) ⟨s, []⟩ es) :=
    run_invariant (P := Recorded edgeBufferCapacity) (fun _ e h => h.step e)
      (recorded_libgpiodInit hinit) es
  have hstate : (run (step btnOffsets) ⟨s, []⟩ es).state = run (State.step btnOffsets) s es :=
    state_run ⟨s, []⟩ es
  refine ⟨hstate, ⟨hr.due, hr.answered, hr.prompt, hr.room⟩, ?_⟩
  obtain ⟨pressedLevel, useSoftDebounce, rfl⟩ := State.libgpiodInit_eq hinit
  rw [← hr.order, hstate, State.delivered_run]
  rfl

/-- A press and its release: the first call returns nothing, the second one the short press. -/
theorem oneForEach_prompt :
    let es := [State.edgeAt .rising 1000, State.readAt 1001, State.edgeAt .falling 1100,
      State.readAt 1101]
    let r := run (step State.defaultBtnOffsets) ⟨State.ready, []⟩ es
    OneForEach r ∧
      State.ready.returned State.defaultBtnOffsets es ++
        (run (State.step State.defaultBtnOffsets) State.ready es).pending.contents =
          produced r.history ∧
      State.ready.results State.defaultBtnOffsets es =
        [.noEvent, .event ⟨.btnK1Short, 0, 1100000000⟩] := by
  have hinit : State.libgpiodInit State.readyEnv = some State.ready := rfl
  obtain ⟨-, hone, horder⟩ := oneForEach_after State.defaultBtnOffsets hinit
    [State.edgeAt .rising 1000, State.readAt 1001, State.edgeAt .falling 1100, State.readAt 1101]
  exact ⟨hone, horder, by decide +kernel⟩

end Recorder

end NanoHat.Gpio
