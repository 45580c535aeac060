import NanoHat.Hal.GpioClassify

/-!
# The software debounce

An edge that comes less than `GPIO_DEBOUNCE_MS` after the last accepted edge of its line is dropped,
and nothing looks at the level of the line when that time has passed. The code therefore follows the
edges that a lockout leaves over (`debounced`), and `g_pressed` is the level after the last of them
(`Debounced`). When the last edge of a burst is dropped and leads elsewhere, the button stays
pressed for the code, and `GPIO_LONG_PRESS_MS` later its long press is sent (`settled_iff`).
-/

namespace NanoHat.Gpio

open Runs

/-! ## The lockout -/

/-- An edge at time `t` is dropped after an edge accepted at time `lastMs`; `0` stands for none. -/
def lockedOut (lastMs t : UInt64) : Bool := lastMs != 0 && decide (t - lastMs < gpioDebounceMs)

/-- The edges that a lockout leaves over, after an edge accepted at time `lastMs`. -/
def debouncedFrom : UInt64 → List ButtonEdge → List ButtonEdge
  | _, [] => []
  | lastMs, e :: es =>
    if lockedOut lastMs e.2 then debouncedFrom lastMs es else e :: debouncedFrom e.2 es

/-- The edges that are accepted. -/
abbrev debounced (es : List ButtonEdge) : List ButtonEdge := debouncedFrom 0 es

/-- Whether the button is pressed after the edges. -/
def levelAfter (es : List ButtonEdge) : Bool := (es.getLast?.map Prod.fst).getD false

theorem debouncedFrom_append {lastMs t : UInt64} {es : List ButtonEdge} (fs : List ButtonEdge)
    (hsome : ∀ e ∈ (debouncedFrom lastMs es).getLast?, t = e.2)
    (hnone : debouncedFrom lastMs es = [] → t = lastMs) :
    debouncedFrom lastMs (es ++ fs) = debouncedFrom lastMs es ++ debouncedFrom t fs := by
  induction es generalizing lastMs with
  | nil =>
    rw [hnone rfl]
    rfl
  | cons e es ih =>
    unfold debouncedFrom at hsome hnone
    rw [List.cons_append, debouncedFrom, debouncedFrom]
    split_ifs at hsome hnone ⊢ with hlocked
    · exact ih hsome hnone
    · rw [List.cons_append]
      congr 1
      refine ih (fun e' he' => hsome e' ?_) fun hnil => ?_
      · rw [List.getLast?_cons, he']
        rfl
      · rw [hnil] at hsome
        exact hsome e rfl

theorem levelAfter_concat (es : List ButtonEdge) (e : ButtonEdge) :
    levelAfter (es ++ [e]) = e.1 := by
  simp [levelAfter]

theorem held_isSome (es : List ButtonEdge) : (held es).isSome = levelAfter es := by
  rcases es.eq_nil_or_concat with rfl | ⟨es, e, rfl⟩
  · rfl
  · rw [List.concat_eq_append, levelAfter_concat, held, heldFrom_append]
    obtain ⟨_ | _, t⟩ := e <;> rfl

theorem Tracks.pressed {l : Line} {es : List ButtonEdge} (h : Tracks l es) :
    l.pressed = levelAfter es := by
  rw [← held_isSome, h.held]
  cases l.pressed <;> rfl

theorem Tracks.debouncedFrom {l : Line} {es : List ButtonEdge} (h : Tracks l (debounced es))
    (fs : List ButtonEdge) :
    debounced (es ++ fs) = debounced es ++ debouncedFrom l.lastEdgeMs fs :=
  debouncedFrom_append fs h.last h.first

/-- A line says nothing but short presses about its edges. -/
theorem long_notMem_lineRun (l : Line) (es : List ButtonEdge) : true ∉ (lineRun l es).2 := by
  induction es generalizing l with
  | nil => exact List.not_mem_nil
  | cons e es ih =>
    rw [lineRun, List.mem_append, not_or]
    refine ⟨?_, ih _⟩
    unfold lineEdge
    split_ifs <;> simp

namespace State

variable {btnOffsets : Fin 3 → ℕ} {s s' : State}

/-! ## The property and the condition -/

/-- All edges of button `i` so far. -/
def allEdges (btnOffsets : Fin 3 → ℕ) (s : State) (i : Fin 3) : List ButtonEdge :=
  lineEdges btnOffsets s.pressedLevel i (s.taken ++ s.unread)

/-- The edges of button `i` that the kernel holds. -/
def unreadEdges (btnOffsets : Fin 3 → ℕ) (s : State) (i : Fin 3) : List ButtonEdge :=
  lineEdges btnOffsets s.pressedLevel i s.unread

/-- An edge is at least `GPIO_LONG_PRESS_MS` old. -/
def isOld (nowMs : UInt64) (e : ButtonEdge) : Bool :=
  decide (e.2.toNat + gpioLongPressMs.toNat ≤ nowMs.toNat)

/-- The line is at the released level throughout the last `GPIO_LONG_PRESS_MS`. -/
def ReleasedFor (nowMs : UInt64) (es : List ButtonEdge) : Prop :=
  levelAfter (es.filter (isOld nowMs)) = false ∧
    ∀ e ∈ es, isOld nowMs e = false → e.2 ≤ nowMs → e.1 = false

/-- When all its edges are read, the button is pressed for the code if the line is. -/
def Settled (btnOffsets : Fin 3 → ℕ) (s : State) (i : Fin 3) : Prop :=
  s.unreadEdges btnOffsets i = [] → (s.lines i).pressed = levelAfter (s.allEdges btnOffsets i)

/-- The last edge that is accepted leads to the level of the last edge. -/
def LastCounts (btnOffsets : Fin 3 → ℕ) (s : State) (i : Fin 3) : Prop :=
  s.unreadEdges btnOffsets i = [] →
    levelAfter (debounced (s.allEdges btnOffsets i)) = levelAfter (s.allEdges btnOffsets i)

/-- The long presses of button `i` produced so far. -/
def longPresses (s : State) (i : Fin 3) : ℕ := (lineEvents i s.produced).count true

/-- No long press is produced for a line that is released throughout the last
`GPIO_LONG_PRESS_MS`. -/
def NoLateLong (btnOffsets : Fin 3 → ℕ) (s : State) : Event → Prop
  | .edge _ => True
  | .read env => ∀ i, ReleasedFor env.nowMs (s.allEdges btnOffsets i) →
    (s.step btnOffsets (.read env)).longPresses i = s.longPresses i

/-- The condition on a call that looks at the clock: for a line that is released throughout the
last `GPIO_LONG_PRESS_MS`, the edges older than that have been read, none of those read is later
than the clock, and the last one accepted leads to the level of the last one read. -/
def ReadInTime (btnOffsets : Fin 3 → ℕ) (s : State) : Event → Prop
  | .edge _ => True
  | .read env => s.pending.contents = [] →
    ∀ i, ReleasedFor env.nowMs (s.allEdges btnOffsets i) →
      (∀ e ∈ s.unreadEdges btnOffsets i, isOld env.nowMs e = false) ∧
      (∀ e ∈ s.readEdges btnOffsets i, e.2 ≤ env.nowMs) ∧
      levelAfter (debounced (s.readEdges btnOffsets i)) = levelAfter (s.readEdges btnOffsets i)

theorem allEdges_eq (s : State) (i : Fin 3) :
    s.allEdges btnOffsets i = s.readEdges btnOffsets i ++ s.unreadEdges btnOffsets i :=
  lineEdges_append ..

/-! ## The code under the lockout -/

theorem processEdgeEvent_useSoftDebounce (s : State) (e : EdgeEvent) (armMs : UInt64) :
    (s.processEdgeEvent btnOffsets e armMs).useSoftDebounce = s.useSoftDebounce := by
  have harm : ∀ s' : State, (s'.updateLongPressTimer armMs).useSoftDebounce =
      s'.useSoftDebounce := fun s' => by
    obtain ⟨t, ht⟩ := s'.updateLongPressTimer_eq armMs
    rw [ht]
  unfold processEdgeEvent
  cases findLine btnOffsets e.offset with
  | none => rfl
  | some i =>
    dsimp only
    split_ifs <;> first | rfl | exact harm _

theorem handleLongPressTimer_useSoftDebounce (s : State) (env : ReadEnv) :
    (s.handleLongPressTimer env).useSoftDebounce = s.useSoftDebounce := by
  have hloop : ∀ (is : List (Fin 3)) (s' : State),
      (is.foldl (sendLongPress env.nowMs env.nowNs) s').useSoftDebounce = s'.useSoftDebounce := by
    intro is
    induction is with
    | nil => exact fun _ => rfl
    | cons i is ih =>
      intro s'
      rw [List.foldl_cons, ih]
      unfold sendLongPress
      split_ifs <;> rfl
  unfold handleLongPressTimer
  split_ifs
  · rfl
  · obtain ⟨t, ht⟩ := updateLongPressTimer_eq ((List.finRange 3).foldl
      (sendLongPress env.nowMs env.nowNs) { s with clockMs := env.nowMs }) env.armMs
    dsimp only
    rw [ht]
    exact hloop _ _

theorem lineEdges_singleton {e : EdgeEvent} {pressedLevel : ℤ} {i j : Fin 3}
    (hline : findLine btnOffsets e.offset = some i) :
    lineEdges btnOffsets pressedLevel j [e] =
      if j = i then [(decide (e.newValue = pressedLevel), e.timeMs)] else [] := by
  split_ifs with h
  · simp [lineEdges, hline, h]
  · simp [lineEdges, hline, Ne.symm h]

/-- One edge under the software debounce. -/
theorem effect_debounced (btnOffsets : Fin 3 → ℕ) {s : State} (htimer : s.timerOpen = true)
    (hsoft : s.useSoftDebounce = true) (hroom : s.pending.contents.length < maxPendingEvents)
    (e : EdgeEvent) (armMs : UInt64) :
    Effect s (s.processEdgeEvent btnOffsets e armMs)
      (fun j => lineRun (s.lines j)
        (debouncedFrom (s.lines j).lastEdgeMs (lineEdges btnOffsets s.pressedLevel j [e]))) 1 := by
  cases hline : findLine btnOffsets e.offset with
  | none =>
    have hsame : s.processEdgeEvent btnOffsets e armMs = s := by
      unfold processEdgeEvent
      rw [hline]
    rw [hsame]
    exact .still (fun j => by simp [lineEdges, hline, debouncedFrom, lineRun]) 1
  | some i =>
  have hbounces : s.bounces (s.lines i) e.timeMs = lockedOut (s.lines i).lastEdgeMs e.timeMs := by
    unfold bounces lockedOut
    rw [hsoft, Bool.true_and]
  cases hlocked : lockedOut (s.lines i).lastEdgeMs e.timeMs with
  | true =>
    have hsame : s.processEdgeEvent btnOffsets e armMs = s := by
      unfold processEdgeEvent
      simp only [hline, hbounces, hlocked, if_true]
    rw [hsame]
    refine .still (fun j => ?_) 1
    rw [lineEdges_singleton hline]
    split_ifs with hj
    · rw [hj, debouncedFrom, if_pos hlocked]
      rfl
    · rfl
  | false =>
    have heff := effect_processEdgeEvent btnOffsets htimer hroom e armMs fun j hj => by
      obtain rfl : i = j := Option.some.inj (hline.symm.trans hj)
      exact hbounces.trans hlocked
    refine heff.mono (fun j => ?_) le_rfl
    congr 1
    rw [lineEdges_singleton hline]
    split_ifs with hj
    · rw [hj, debouncedFrom, if_neg (by rw [hlocked]; exact Bool.false_ne_true)]
      rfl
    · rfl

/-! ## The invariant -/

/-- The flags of every line are those after the edges that the lockout leaves over of `seen`. -/
structure Debounced (seen : Fin 3 → List ButtonEdge) (s : State) : Prop where
  requested : s.requested = true
  timerOpen : s.timerOpen = true
  soft : s.useSoftDebounce = true
  tracks : ∀ i, Tracks (s.lines i) (debounced (seen i))

variable {seen : Fin 3 → List ButtonEdge}

theorem Debounced.pressed (h : Debounced seen s) (i : Fin 3) :
    (s.lines i).pressed = levelAfter (debounced (seen i)) := (h.tracks i).pressed

/-- What is kept by operations that leave the lines alone. -/
theorem Debounced.congr (h : Debounced seen s) (hrequested : s'.requested = s.requested)
    (htimer : s'.timerOpen = s.timerOpen) (hsoft : s'.useSoftDebounce = s.useSoftDebounce)
    (hlines : s'.lines = s.lines) : Debounced seen s' where
  requested := hrequested.trans h.requested
  timerOpen := htimer.trans h.timerOpen
  soft := hsoft.trans h.soft
  tracks := hlines ▸ h.tracks

/-- The timer handler. -/
theorem Debounced.handleLongPressTimer (h : Debounced seen s) (hempty : s.pending.contents = [])
    (env : ReadEnv) : Debounced seen (s.handleLongPressTimer env) := by
  have heff := effect_handleLongPressTimer h.timerOpen hempty env
  refine ⟨heff.frame.requested.trans h.requested, heff.frame.timerOpen.trans h.timerOpen,
    (handleLongPressTimer_useSoftDebounce s env).trans h.soft, fun i => ?_⟩
  rw [heff.lines]
  exact tracks_fire (h.tracks i) env.nowMs

/-- A batch of edges: the queue grows by an event for each edge at most, and none is a long
press. -/
theorem Debounced.processEdgeEvents (btnOffsets : Fin 3 → ℕ) (env : ReadEnv) {pressedLevel : ℤ} (es : List EdgeEvent)
    (k : ℕ) (h : Debounced seen s) (hlevel : s.pressedLevel = pressedLevel)
    (hroom : s.pending.contents.length + es.length ≤ maxPendingEvents) :
    ∃ s', s.processEdgeEvents btnOffsets env k es = s' ∧ Frame s s' ∧
      Debounced (fun i => seen i ++ lineEdges btnOffsets pressedLevel i es) s' ∧
      s'.pending.contents.length ≤ s.pending.contents.length + es.length ∧
      ∀ i, (lineEvents i s'.pending.contents).count true =
        (lineEvents i s.pending.contents).count true := by
  induction es generalizing s k seen with
  | nil =>
    refine ⟨s, rfl, .refl s, ?_, le_rfl, fun _ => rfl⟩
    simpa [lineEdges] using h
  | cons e es ih =>
    rw [List.length_cons] at hroom
    have heff := effect_debounced btnOffsets h.timerOpen h.soft (by omega) e
      (env.edgeArmMs k)
    rw [hlevel] at heff
    have hnext : Debounced (fun i => seen i ++ lineEdges btnOffsets pressedLevel i [e])
        (s.processEdgeEvent btnOffsets e (env.edgeArmMs k)) := by
      refine ⟨heff.frame.requested.trans h.requested, heff.frame.timerOpen.trans h.timerOpen,
        (processEdgeEvent_useSoftDebounce s e _).trans h.soft, fun i => ?_⟩
      rw [heff.lines, (h.tracks i).debouncedFrom]
      exact (h.tracks i).edges _
    have hlen := heff.length
    obtain ⟨s', hs', hframe, hdeb, hlen', hcount⟩ := ih (k + 1) hnext
      (heff.frame.pressedLevel.trans hlevel) (by omega)
    refine ⟨s', hs', heff.frame.trans hframe, ?_, by rw [List.length_cons]; omega, fun i => ?_⟩
    · have hcons : ∀ i, lineEdges btnOffsets pressedLevel i (e :: es) =
          lineEdges btnOffsets pressedLevel i [e] ++ lineEdges btnOffsets pressedLevel i es :=
        fun i => lineEdges_append btnOffsets pressedLevel i [e] es
      simp only [hcons, ← List.append_assoc]
      exact hdeb
    · rw [hcount, heff.events, List.count_append,
        List.count_eq_zero_of_not_mem (long_notMem_lineRun _ _), Nat.add_zero]

/-- The states of a run. -/
structure Following (btnOffsets : Fin 3 → ℕ) (s : State) : Prop where
  debounced : Debounced (s.readEdges btnOffsets) s
  room : s.pending.contents.length ≤ edgeBufferCapacity

/-- Handing out what there is, at the end of a call. -/
theorem Following.handOut (h : Following btnOffsets s) : Following btnOffsets s.handOut ∧
    ∀ i, s.handOut.longPresses i = s.longPresses i := by
  have hview := sameView_handOut s
  have hpopped : s.handOut.useSoftDebounce = s.useSoftDebounce ∧
      s.handOut.pending.contents.length ≤ s.pending.contents.length := by
    by_cases hne : s.pending.contents = []
    · rw [handOut_of_empty hne]
      exact ⟨rfl, le_rfl⟩
    · obtain ⟨e, q, heq, hcons⟩ := popOr_of_nonempty hne fun s => (s, .noEvent)
      unfold State.handOut
      rw [heq, hcons]
      exact ⟨rfl, Nat.le_succ _⟩
  refine ⟨⟨?_, hpopped.2.trans h.room⟩, fun i => ?_⟩
  · have hread : s.handOut.readEdges btnOffsets = s.readEdges btnOffsets := funext hview.readEdges
    rw [hread]
    exact h.debounced.congr hview.requested hview.timerOpen hpopped.1 hview.lines
  · unfold longPresses
    rw [hview.produced]

/-- The timer handler produces a long press for a button that is due, and none for another. -/
theorem Following.timer (h : Following btnOffsets s) (hempty : s.pending.contents = [])
    (env : ReadEnv) : Following btnOffsets (s.handleLongPressTimer env) ∧
      ∀ i, due (s.lines i) env.nowMs = false →
        (s.handleLongPressTimer env).longPresses i = s.longPresses i := by
  have heff := effect_handleLongPressTimer h.debounced.timerOpen hempty env
  have hread : (s.handleLongPressTimer env).readEdges btnOffsets = s.readEdges btnOffsets :=
    funext heff.frame.readEdges
  have hlen := heff.length
  change _ ≤ s.pending.contents.length + 3 at hlen
  rw [hempty] at hlen
  refine ⟨⟨?_, hlen.trans (by decide)⟩, fun i hdue => ?_⟩
  · rw [hread]
    exact h.debounced.handleLongPressTimer hempty env
  · have hadds : lineEvents i (s.handleLongPressTimer env).produced =
        lineEvents i s.produced ++ (fire env.nowMs (s.lines i)).2 := heff.produced i
    unfold longPresses
    rw [hadds, fire_quiet.2 hdue, List.append_nil]

/-- A batch of edges produces no long press. -/
theorem Following.edges (h : Following btnOffsets s) (hempty : s.pending.contents = [])
    (env : ReadEnv) :
    Following btnOffsets (s.takeEdges.processEdgeEvents btnOffsets env 0
        (s.unread.take edgeBufferCapacity)) ∧
      ∀ i, (s.takeEdges.processEdgeEvents btnOffsets env 0
        (s.unread.take edgeBufferCapacity)).longPresses i = s.longPresses i := by
  have htaken : Debounced (s.readEdges btnOffsets) s.takeEdges :=
    h.debounced.congr rfl rfl rfl rfl
  have hcap := List.length_take_le edgeBufferCapacity s.unread
  have hpending : s.takeEdges.pending.contents = [] := hempty
  obtain ⟨s', heq, hframe, hdeb, hlen, hcount⟩ := htaken.processEdgeEvents
    btnOffsets env (s.unread.take edgeBufferCapacity) 0 rfl (by
      rw [hpending, List.length_nil, Nat.zero_add]
      exact hcap.trans (by decide))
  rw [heq]
  rw [hpending, List.length_nil, Nat.zero_add] at hlen
  refine ⟨⟨?_, hlen.trans hcap⟩, fun i => ?_⟩
  · have hread : s'.readEdges btnOffsets = fun i => s.readEdges btnOffsets i ++
        lineEdges btnOffsets s.takeEdges.pressedLevel i (s.unread.take edgeBufferCapacity) := by
      funext i
      unfold readEdges
      rw [hframe.pressedLevel, hframe.taken]
      exact lineEdges_append ..
    rw [hread]
    exact hdeb
  · have hdelivered : s'.delivered = s.delivered := hframe.delivered
    unfold longPresses produced
    rw [lineEvents_append, lineEvents_append, List.count_append, List.count_append, hcount,
      hdelivered]
    rfl

/-- A call produces long presses only in the timer handler. -/
theorem Following.read (h : Following btnOffsets s) (env : ReadEnv) :
    Following btnOffsets (s.libgpiodReadEvent btnOffsets env).1 ∧
      ∀ i, (s.pending.contents = [] → due (s.lines i) env.nowMs = false) →
        (s.libgpiodReadEvent btnOffsets env).1.longPresses i = s.longPresses i := by
  have hcase := readCase_libgpiodReadEvent btnOffsets h.debounced.requested env
  generalize (s.libgpiodReadEvent btnOffsets env).1 = s' at hcase ⊢
  cases hcase with
  | pending hne => exact ⟨h.handOut.1, fun i _ => h.handOut.2 i⟩
  | timer hempty hstop =>
    obtain ⟨hfired, hlong⟩ := h.timer hempty env
    exact ⟨hfired.handOut.1, fun i hdue => (hfired.handOut.2 i).trans (hlong i (hdue hempty))⟩
  | edges hempty hquiet hfails =>
    obtain ⟨hfired, hlong⟩ := h.timer hempty env
    obtain ⟨hread, hkept⟩ := hfired.edges hquiet env
    exact ⟨hread.handOut.1, fun i hdue =>
      (hread.handOut.2 i).trans ((hkept i).trans (hlong i (hdue hempty)))⟩

theorem Following.step (h : Following btnOffsets s) (e : Event) :
    Following btnOffsets (s.step btnOffsets e) := by
  cases e with
  | edge e => exact ⟨h.debounced.congr rfl rfl rfl rfl, h.room⟩
  | read env => exact (h.read env).1

theorem following_libgpiodInit {env : InitEnv} (hinit : libgpiodInit env = some s)
    (hsoft : s.useSoftDebounce = true) : Following btnOffsets s := by
  obtain ⟨pressedLevel, useSoftDebounce, rfl⟩ := libgpiodInit_eq hinit
  exact ⟨⟨rfl, rfl, hsoft, fun i => tracks_initial⟩, Nat.zero_le _⟩

/-! ## The exact condition -/

theorem Following.settled_state_iff (h : Following btnOffsets s) (i : Fin 3) :
    Settled btnOffsets s i ↔ LastCounts btnOffsets s i := by
  unfold Settled LastCounts
  refine forall_congr' fun hunread => ?_
  rw [h.debounced.pressed, allEdges_eq, hunread, List.append_nil]

/-- A line released for so long was released at the last edge read. -/
theorem released_of_releasedFor {nowMs : UInt64} {es fs : List ButtonEdge}
    (h : ReleasedFor nowMs (es ++ fs)) (hfs : ∀ e ∈ fs, isOld nowMs e = false)
    (hes : ∀ e ∈ es, e.2 ≤ nowMs) : levelAfter es = false := by
  obtain ⟨hbefore, hsince⟩ := h
  rcases es.eq_nil_or_concat with rfl | ⟨es, e, rfl⟩
  · rfl
  rw [List.concat_eq_append] at *
  rw [levelAfter_concat]
  cases hold : isOld nowMs e with
  | false =>
    have hmem : e ∈ es ++ [e] := List.mem_append_right _ (List.mem_singleton_self e)
    exact hsince e (List.mem_append_left _ hmem) hold (hes e hmem)
  | true =>
    have hnone : fs.filter (isOld nowMs) = [] :=
      List.filter_eq_nil_iff.2 fun e' he' => by rw [hfs e' he']; exact Bool.false_ne_true
    rw [List.filter_append, hnone, List.append_nil, List.filter_append,
      List.filter_cons_of_pos hold, List.filter_nil, levelAfter_concat] at hbefore
    exact hbefore

theorem Following.noLateLong (h : Following btnOffsets s) {e : Event}
    (hin : ReadInTime btnOffsets s e) : NoLateLong btnOffsets s e := by
  cases e with
  | edge e => trivial
  | read env =>
    intro i hreleased
    refine (h.read env).2 i fun hempty => ?_
    obtain ⟨hunread, hclock, hlast⟩ := hin hempty i hreleased
    rw [allEdges_eq] at hreleased
    have hlevel := released_of_releasedFor hreleased hunread hclock
    have hpressed : (s.lines i).pressed = false := by
      rw [h.debounced.pressed, hlast, hlevel]
    unfold due
    rw [hpressed]
    rfl

theorem Following.noLateLongs (h : Following btnOffsets s) {es : List Event}
    (hin : Along (State.step btnOffsets) (ReadInTime btnOffsets) s es) :
    Along (State.step btnOffsets) (NoLateLong btnOffsets) s es := by
  induction es generalizing s with
  | nil => trivial
  | cons e es ih => exact ⟨h.noLateLong hin.1, ih (h.step e) hin.2⟩

/-- **When the software debounce settles.** In every run after a successful initialisation with the
software debounce, for arbitrary edges, spacings and calls: a button all of whose edges are read is
pressed for the code as its line is, exactly when the last edge accepted leads to the level of the
last edge; and as long as the calls look at edges that are read in time and settled so, no long
press is produced for a line released throughout the last `GPIO_LONG_PRESS_MS`. -/
theorem settled_iff (btnOffsets : Fin 3 → ℕ) {env : InitEnv}
    (hinit : libgpiodInit env = some s) (hsoft : s.useSoftDebounce = true) (es : List Event) :
    (∀ i, Settled btnOffsets (run (step btnOffsets) s es) i ↔
      LastCounts btnOffsets (run (step btnOffsets) s es) i) ∧
    (Along (step btnOffsets) (ReadInTime btnOffsets) s es →
      Along (step btnOffsets) (NoLateLong btnOffsets) s es) := by
  have hfirst : Following btnOffsets s := following_libgpiodInit hinit hsoft
  have hrun : Following btnOffsets (run (step btnOffsets) s es) :=
    run_invariant (P := Following btnOffsets) (fun _ e h => h.step e) hfirst es
  exact ⟨hrun.settled_state_iff, hfirst.noLateLongs⟩

/-! ### Concrete runs -/

instance (nowMs : UInt64) : DecidablePred (ReleasedFor nowMs) := fun _ =>
  inferInstanceAs (Decidable (_ ∧ _))

instance (s : State) (i : Fin 3) : Decidable (Settled btnOffsets s i) :=
  inferInstanceAs (Decidable (_ → _))

instance (s : State) (i : Fin 3) : Decidable (LastCounts btnOffsets s i) :=
  inferInstanceAs (Decidable (_ → _))

instance (s : State) : DecidablePred (NoLateLong btnOffsets s)
  | .edge _ => isTrue trivial
  | .read _ => inferInstanceAs (Decidable (∀ _ : Fin 3, _ → _))

instance (s : State) : DecidablePred (ReadInTime btnOffsets s)
  | .edge _ => isTrue trivial
  | .read _ => inferInstanceAs (Decidable (_ → ∀ _ : Fin 3, _ → _ ∧ _ ∧ _))

/-- Everything opens, but the request with hardware debounce. -/
def softEnv : InitEnv := { readyEnv with requestDebounced := false, debounceUnsupported := true,
                                         requestPlain := true }

/-- The state after it. -/
def softReady : State := { ready with useSoftDebounce := true }

/-- A bounce that ends outside the lockout. -/
theorem settled_bounce :
    Settled defaultBtnOffsets (run (step defaultBtnOffsets) softReady
      [edgeAt .rising 1000, edgeAt .falling 1005, edgeAt .rising 1010, edgeAt .falling 1040,
        readAt 1041, readAt 1700]) 0 ∧
    Along (step defaultBtnOffsets) (NoLateLong defaultBtnOffsets) softReady
      [edgeAt .rising 1000, edgeAt .falling 1005, edgeAt .rising 1010, edgeAt .falling 1040,
        readAt 1041, readAt 1700] :=
  have hinit : libgpiodInit softEnv = some softReady := rfl
  have h := settled_iff defaultBtnOffsets hinit rfl
    [edgeAt .rising 1000, edgeAt .falling 1005, edgeAt .rising 1010, edgeAt .falling 1040,
      readAt 1041, readAt 1700]
  ⟨(h.1 0).2 (by decide +kernel), h.2 (by decide +kernel)⟩

/-- A press at 1000 ms whose release at 1020 ms is dropped. -/
def dropped : List Event :=
  [edgeAt .rising 1000, readAt 1001, edgeAt .falling 1020, readAt 1021]

/-- The failing input: the button stays pressed, and at 1700 ms its long press is sent. -/
theorem release_locked_out :
    (¬∀ (btnOffsets : Fin 3 → ℕ) (env : InitEnv) (s : State) (es : List Event) (renv : ReadEnv),
      libgpiodInit env = some s → s.useSoftDebounce = true →
      ∀ i, (∀ e ∈ (run (step btnOffsets) s es).allEdges btnOffsets i,
          e.2 + gpioDebounceMs ≤ renv.nowMs) →
        Settled btnOffsets (run (step btnOffsets) s (es ++ [.read renv])) i) ∧
    ¬∀ (btnOffsets : Fin 3 → ℕ) (env : InitEnv) (s : State) (es : List Event),
      libgpiodInit env = some s → s.useSoftDebounce = true →
      Along (step btnOffsets) (NoLateLong btnOffsets) s es := by
  constructor
  · intro h
    have hsettled := h defaultBtnOffsets softEnv softReady dropped
      { nowMs := 1700, nowNs := 0, armMs := 1700, edgeArmMs := fun _ => 1700, readFails := false }
      rfl rfl 0 (by decide +kernel)
    exact absurd hsettled (by decide +kernel)
  · intro h
    have halong := h defaultBtnOffsets softEnv softReady (dropped ++ [readAt 1700]) rfl rfl
    exact absurd halong (by decide +kernel)

end State

end NanoHat.Gpio
