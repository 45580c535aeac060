import NanoHat.Hal.GpioButton

/-!
# Short and long presses

A press is to be reported as long when its release comes `GPIO_LONG_PRESS_MS` or more after it
(`Classified`). The code decides in two places: the timer handler looks at the clock before the
waiting edges are read, and a release only looks at whether the long press has been sent. Which of
the two speaks depends on when the event loop reads the edges, and `InTime` is the exact condition
on a call under which nothing is said that the edges contradict (`classified_iff`).
-/

namespace NanoHat.Gpio.State

open Runs

variable {btnOffsets : Fin 3 → ℕ} {s s' : State}

/-! ## The property and the condition -/

/-- The events produced so far: those handed out and those pending. -/
def produced (s : State) : List GpioEvent := s.delivered ++ s.pending.contents

/-- The edges of button `i` that have been read. -/
def readEdges (btnOffsets : Fin 3 → ℕ) (s : State) (i : Fin 3) : List ButtonEdge :=
  lineEdges btnOffsets s.pressedLevel i s.taken

/-- Every press that has been released, as far as the edges are read, has produced one event, and
the right one; a press still held has produced none or a long one. -/
def Classified (btnOffsets : Fin 3 → ℕ) (s : State) : Prop := ∀ i,
  lineEvents i s.produced = (presses (s.readEdges btnOffsets i)).map isLong ∨
  (held (s.readEdges btnOffsets i)).isSome = true ∧
    lineEvents i s.produced = (presses (s.readEdges btnOffsets i)).map isLong ++ [true]

/-- The edges that a call of `read_event` takes from the kernel: none while an event is pending or
a long press is due. -/
def batch (s : State) (env : ReadEnv) : List EdgeEvent :=
  if s.pending.contents = [] ∧ (∀ i, due (s.lines i) env.nowMs = false) ∧ env.readFails = false then
    s.unread.take edgeBufferCapacity
  else []

/-- The condition on a call: of the presses whose release it takes, those taken before look
`GPIO_LONG_PRESS_MS` old on its clock exactly when they are long, and those of its own batch are
short. -/
def InTime (btnOffsets : Fin 3 → ℕ) (s : State) : Event → Prop
  | .edge _ => True
  | .read env => ∀ i,
    (∀ p ∈ straddling (held (s.readEdges btnOffsets i))
        (lineEdges btnOffsets s.pressedLevel i (s.batch env)),
      gpioLongPressMs ≤ env.nowMs - p.1 ↔ isLong p = true) ∧
    ∀ p ∈ presses (lineEdges btnOffsets s.pressedLevel i (s.batch env)), isLong p = false

/-- What edges and clocks are like: the edges of a button alternate and lie the debounce time apart,
and the clock is monotone and not behind the edges that have been read. -/
def Genuine (btnOffsets : Fin 3 → ℕ) (s : State) : Event → Prop
  | .edge e => ∀ i, Spaced (lineEdges btnOffsets s.pressedLevel i (s.taken ++ s.unread ++ [e]))
  | .read env => s.clockMs ≤ env.nowMs ∧ ∀ e ∈ s.taken, e.timeMs ≤ env.nowMs

instance : DecidablePred (Classified btnOffsets) := fun _ => by
  unfold Classified
  infer_instance

instance (s : State) : DecidablePred (InTime btnOffsets s)
  | .edge _ => isTrue trivial
  | .read _ =>
    -- membership in a list is decided along the list
    have (_ : Fin 3) := @instDecidableAnd _ _ (List.decidableBAll _ _) (List.decidableBAll _ _)
    @Nat.decidableForallFin 3 _ this

instance (s : State) : DecidablePred (Genuine btnOffsets s)
  | .edge _ => inferInstanceAs (Decidable (∀ _, Spaced _))
  | .read _ => inferInstanceAs (Decidable (_ ∧ _))

/-! ## The invariant -/

structure Inv (btnOffsets : Fin 3 → ℕ) (s : State) : Prop where
  requested : s.requested = true
  timerOpen : s.timerOpen = true
  tracks : ∀ i, Tracks (s.lines i) (s.readEdges btnOffsets i)
  spaced : ∀ i, Spaced (lineEdges btnOffsets s.pressedLevel i (s.taken ++ s.unread))
  /-- a long press that has been sent was due -/
  sent : ∀ i, (s.lines i).longSent = true → (s.lines i).pressTimeMs ≤ s.clockMs ∧
    gpioLongPressMs ≤ s.clockMs - (s.lines i).pressTimeMs
  /-- one event for each press released, and one for a long press sent -/
  count : ∀ i, (lineEvents i s.produced).length =
    (presses (s.readEdges btnOffsets i)).length + if (s.lines i).longSent then 1 else 0

/-- `Classified` in terms of the flags. -/
def Correct (btnOffsets : Fin 3 → ℕ) (s : State) : Prop := ∀ i,
  lineEvents i s.produced = (presses (s.readEdges btnOffsets i)).map isLong ++
    if (s.lines i).longSent then [true] else []

theorem Inv.classified_iff_correct (h : Inv btnOffsets s) :
    Classified btnOffsets s ↔ Correct btnOffsets s := by
  refine forall_congr' fun i => ?_
  have hcount := h.count i
  cases hsent : (s.lines i).longSent with
  | false =>
    simp only [Bool.false_eq_true, if_false, List.append_nil]
    refine ⟨fun hor => ?_, Or.inl⟩
    rcases hor with heq | ⟨-, heq⟩
    · exact heq
    · rw [heq, hsent] at hcount
      simp at hcount
  | true =>
    simp only [if_true]
    have hheld : (held (s.readEdges btnOffsets i)).isSome = true := by
      rw [(h.tracks i).held, if_pos ((h.tracks i).sent hsent)]
      rfl
    refine ⟨fun hor => ?_, fun heq => Or.inr ⟨hheld, heq⟩⟩
    rcases hor with heq | ⟨-, heq⟩
    · rw [heq, hsent] at hcount
      simp at hcount
    · exact heq

/-! ## Handing out -/

/-- Two states that differ only in what has been handed out, and in the timer. -/
structure SameView (s s' : State) : Prop where
  requested : s'.requested = s.requested
  timerOpen : s'.timerOpen = s.timerOpen
  pressedLevel : s'.pressedLevel = s.pressedLevel
  lines : s'.lines = s.lines
  unread : s'.unread = s.unread
  taken : s'.taken = s.taken
  clockMs : s'.clockMs = s.clockMs
  produced : s'.produced = s.produced

theorem SameView.refl (s : State) : SameView s s := ⟨rfl, rfl, rfl, rfl, rfl, rfl, rfl, rfl⟩

theorem SameView.readEdges (h : SameView s s') (i : Fin 3) :
    s'.readEdges btnOffsets i = s.readEdges btnOffsets i := by
  unfold State.readEdges
  rw [h.pressedLevel, h.taken]

theorem SameView.inv (h : SameView s s') (hi : Inv btnOffsets s) : Inv btnOffsets s' where
  requested := h.requested.trans hi.requested
  timerOpen := h.timerOpen.trans hi.timerOpen
  tracks i := by rw [h.lines, h.readEdges]; exact hi.tracks i
  spaced i := by rw [h.pressedLevel, h.taken, h.unread]; exact hi.spaced i
  sent i := by rw [h.lines, h.clockMs]; exact hi.sent i
  count i := by rw [h.produced, h.readEdges, h.lines]; exact hi.count i

theorem SameView.correct_iff (h : SameView s s') :
    Correct btnOffsets s' ↔ Correct btnOffsets s := by
  unfold Correct
  simp only [h.produced, h.lines, h.readEdges]

theorem popOr_of_empty (h : s.pending.contents = []) (k : State → State × ReadResult) :
    s.popOr k = k s := by
  rcases s.pending.pendingPop_cases with ⟨hpop, -⟩ | ⟨e, q, -, hcons⟩
  · simp [popOr, hpop]
  · rw [h] at hcons
    cases hcons

/-- Otherwise the oldest pending event is handed out. -/
theorem popOr_of_nonempty (h : s.pending.contents ≠ []) (k : State → State × ReadResult) :
    ∃ e q, (s.popOr k).1 = { s with pending := q, delivered := s.delivered ++ [e] } ∧
      s.pending.contents = e :: q.contents := by
  rcases s.pending.pendingPop_cases with ⟨-, hnil⟩ | ⟨e, q, hpop, hcons⟩
  · exact absurd hnil h
  · exact ⟨e, q, by simp [popOr, hpop], hcons⟩

/-- The state after the oldest pending event has been handed out, if there is one. -/
def handOut (s : State) : State := (s.popOr fun s => (s, .noEvent)).1

theorem handOut_of_empty (h : s.pending.contents = []) : s.handOut = s := by
  unfold handOut
  rw [popOr_of_empty h]

theorem popOr_eq_handOut (h : s.pending.contents ≠ []) (k : State → State × ReadResult) :
    (s.popOr k).1 = s.handOut := by
  unfold handOut popOr
  rcases s.pending.pendingPop_cases with ⟨-, hnil⟩ | ⟨e, q, hpop, -⟩
  · exact absurd hnil h
  · rw [hpop]

theorem sameView_handOut (s : State) : SameView s s.handOut := by
  by_cases h : s.pending.contents = []
  · rw [handOut_of_empty h]
    exact .refl s
  · obtain ⟨e, q, heq, hcons⟩ := popOr_of_nonempty h fun s => (s, .noEvent)
    unfold handOut
    rw [heq]
    refine ⟨rfl, rfl, rfl, rfl, rfl, rfl, rfl, ?_⟩
    simp [State.produced, hcons]

/-- What a call of `read_event` does: each way ends with an event being handed out, if one is
pending. -/
inductive ReadCase (btnOffsets : Fin 3 → ℕ) (s : State) (env : ReadEnv) : State → Prop
  | pending (hne : s.pending.contents ≠ []) : ReadCase btnOffsets s env s.handOut
  /-- only the timer is looked at -/
  | timer (hempty : s.pending.contents = [])
      (hstop : (s.handleLongPressTimer env).pending.contents ≠ [] ∨ env.readFails = true ∨
        (s.handleLongPressTimer env).unread = []) :
    ReadCase btnOffsets s env (s.handleLongPressTimer env).handOut
  /-- the edges are read as well -/
  | edges (hempty : s.pending.contents = [])
      (hquiet : (s.handleLongPressTimer env).pending.contents = []) (hfails : env.readFails = false) :
    ReadCase btnOffsets s env ((s.handleLongPressTimer env).takeEdges.processEdgeEvents btnOffsets
      env 0 ((s.handleLongPressTimer env).unread.take edgeBufferCapacity)).handOut

theorem readCase_libgpiodReadEvent (btnOffsets : Fin 3 → ℕ) (h : s.requested = true)
    (env : ReadEnv) : ReadCase btnOffsets s env (s.libgpiodReadEvent btnOffsets env).1 := by
  unfold libgpiodReadEvent
  rw [if_neg (by simp [h])]
  by_cases hempty : s.pending.contents = []
  · rw [popOr_of_empty hempty]
    by_cases hquiet : (s.handleLongPressTimer env).pending.contents = []
    · rw [popOr_of_empty hquiet]
      split_ifs with hfails hunread
      · have hcase : ReadCase btnOffsets s env _ := .timer hempty (Or.inr (Or.inl hfails))
        rwa [handOut_of_empty hquiet] at hcase
      · have hcase : ReadCase btnOffsets s env _ := .timer hempty (Or.inr (Or.inr hunread))
        rwa [handOut_of_empty hquiet] at hcase
      · exact .edges hempty hquiet (by simpa using hfails)
    · rw [popOr_eq_handOut hquiet]
      exact .timer hempty (Or.inl hquiet)
  · rw [popOr_eq_handOut hempty]
    exact .pending hempty

/-- The events of an effect are produced. -/
theorem Effect.produced {r : Fin 3 → Line × List Bool} {k : ℕ} (h : Effect s s' r k) (i : Fin 3) :
    lineEvents i s'.produced = lineEvents i s.produced ++ (r i).2 := by
  unfold State.produced
  rw [lineEvents_append, lineEvents_append, h.frame.delivered, List.append_assoc]
  exact congrArg (lineEvents i s.delivered ++ ·) (h.events i)

/-! ## The timer handler -/

theorem mem_of_held {es : List ButtonEdge} {tp : UInt64} (h : held es = some tp) :
    (true, tp) ∈ es := by
  rcases List.eq_nil_or_concat es with rfl | ⟨fs, ⟨press, t⟩, rfl⟩
  · simp [heldFrom] at h
  · rw [List.concat_eq_append, held_concat] at h
    cases press with
    | false => simp at h
    | true =>
      obtain rfl : t = tp := by simpa using h
      simp

/-- The clock of a call is not behind a press that is held. -/
theorem pressTime_le {env : ReadEnv} (hgen : Genuine btnOffsets s (.read env)) {i : Fin 3}
    {tp : UInt64} (hheld : held (s.readEdges btnOffsets i) = some tp) : tp ≤ env.nowMs := by
  obtain ⟨e, he, hsome⟩ := List.mem_filterMap.1 (mem_of_held hheld)
  split_ifs at hsome
  have htime : e.timeMs = tp := congrArg Prod.snd (Option.some.inj hsome)
  exact htime ▸ hgen.2 e he

theorem sub_mono_left {a b c : UInt64} (hab : a ≤ b) (hbc : b ≤ c) : b - a ≤ c - a := by
  rw [UInt64.le_iff_toNat_le, UInt64.toNat_sub_of_le _ _ hab,
    UInt64.toNat_sub_of_le _ _ (UInt64.le_trans hab hbc)]
  exact Nat.sub_le_sub_right (UInt64.le_iff_toNat_le.1 hbc) _

/-- The state that the timer handler leaves in a call with nothing pending. -/
structure Fired (btnOffsets : Fin 3 → ℕ) (s s' : State) (env : ReadEnv) : Prop where
  inv : Inv btnOffsets s'
  correct : Correct btnOffsets s' ↔ Correct btnOffsets s
  frame : Frame s s'
  /-- the long press of a held button has been sent exactly when the clock says so -/
  sent : ∀ i tp, held (s.readEdges btnOffsets i) = some tp →
    ((s'.lines i).longSent = true ↔ gpioLongPressMs ≤ env.nowMs - tp)
  pending : s'.pending.contents = [] ↔ ∀ i, due (s.lines i) env.nowMs = false

theorem Frame.readEdges (h : Frame s s') (i : Fin 3) :
    s'.readEdges btnOffsets i = s.readEdges btnOffsets i := by
  unfold State.readEdges
  rw [h.pressedLevel, h.taken]

theorem fire_longSent (nowMs : UInt64) (l : Line) :
    (if (fire nowMs l).1.longSent then [true] else []) =
      (if l.longSent then [true] else []) ++ (fire nowMs l).2 := by
  cases hdue : due l nowMs with
  | false => simp [fire, hdue]
  | true =>
    have hsent : l.longSent = false := by
      have h := hdue
      simp only [due, Bool.and_eq_true, Bool.not_eq_true'] at h
      exact h.1.2
    simp [fire, hdue, hsent]

theorem tracks_fire {l : Line} {es : List ButtonEdge} (h : Tracks l es) (nowMs : UInt64) :
    Tracks (fire nowMs l).1 es := by
  unfold fire
  split_ifs with hdue
  · simp only [due, Bool.and_eq_true] at hdue
    exact ⟨h.held, h.last, h.first, fun _ => hdue.1.1⟩
  · exact h

theorem fire_quiet {nowMs : UInt64} {l : Line} : (fire nowMs l).2 = [] ↔ due l nowMs = false := by
  cases hdue : due l nowMs <;> simp [fire, hdue]

/-- A held button has its long press sent after the handler exactly when the clock says so. -/
theorem fire_sent {nowMs clockMs tp : UInt64} {l : Line} {es : List ButtonEdge} (h : Tracks l es)
    (hclock : clockMs ≤ nowMs) (hold : l.longSent = true → l.pressTimeMs ≤ clockMs ∧
      gpioLongPressMs ≤ clockMs - l.pressTimeMs) (hheld : held es = some tp) :
    ((fire nowMs l).1.longSent = true ↔ gpioLongPressMs ≤ nowMs - tp) := by
  rw [h.held] at hheld
  split_ifs at hheld with hpressed
  obtain rfl : l.pressTimeMs = tp := Option.some.inj hheld
  cases hsent : l.longSent with
  | false =>
    have hdue : due l nowMs = decide (gpioLongPressMs ≤ nowMs - l.pressTimeMs) := by
      simp [due, hpressed, hsent]
    unfold fire
    rw [hdue]
    split_ifs with hlong
    · simpa using hlong
    · simpa [hsent] using hlong
  | true =>
    have hdue : due l nowMs = false := by simp [due, hsent]
    obtain ⟨hle, hlong⟩ := hold hsent
    have hmono := sub_mono_left hle hclock
    simp only [fire, hdue, Bool.false_eq_true, if_false, hsent, true_iff]
    exact UInt64.le_trans hlong hmono

theorem Inv.fired (h : Inv btnOffsets s) {env : ReadEnv}
    (hgen : Genuine btnOffsets s (.read env)) (hempty : s.pending.contents = []) :
    Fired btnOffsets s (s.handleLongPressTimer env) env := by
  have heff := effect_handleLongPressTimer h.timerOpen hempty env
  have hclockFrame : Frame s { s with clockMs := env.nowMs } := ⟨rfl, rfl, rfl, rfl, rfl, rfl⟩
  have hframe := hclockFrame.trans heff.frame
  have hclock : (s.handleLongPressTimer env).clockMs = env.nowMs := heff.clockMs
  have hadds : ∀ i, lineEvents i (s.handleLongPressTimer env).produced =
      lineEvents i s.produced ++ (fire env.nowMs (s.lines i)).2 := heff.produced
  have htracks : ∀ i, Tracks ((s.handleLongPressTimer env).lines i) (s.readEdges btnOffsets i) :=
    fun i => by
      rw [heff.lines]
      exact tracks_fire (h.tracks i) env.nowMs
  have hsent : ∀ i tp, held (s.readEdges btnOffsets i) = some tp →
      (((s.handleLongPressTimer env).lines i).longSent = true ↔
        gpioLongPressMs ≤ env.nowMs - tp) := fun i tp hheld => by
    rw [heff.lines]
    exact fire_sent (h.tracks i) hgen.1 (h.sent i) hheld
  refine ⟨⟨?_, ?_, fun i => ?_, fun i => ?_, fun i hi => ?_, fun i => ?_⟩, ?_, hframe, hsent,
    fun hnil i => ?_, fun hnone => ?_⟩
  · exact hframe.requested.trans h.requested
  · exact hframe.timerOpen.trans h.timerOpen
  · rw [hframe.readEdges]
    exact htracks i
  · rw [hframe.pressedLevel, hframe.taken, hframe.unread]
    exact h.spaced i
  · have hheld := (htracks i).held
    rw [if_pos ((htracks i).sent hi)] at hheld
    rw [hclock]
    exact ⟨pressTime_le hgen hheld, (hsent i _ hheld).1 hi⟩
  · have hlen := congrArg List.length (fire_longSent env.nowMs (s.lines i))
    have hcount := h.count i
    rw [hadds, hframe.readEdges, heff.lines, List.length_append]
    split_ifs at hlen hcount ⊢ <;> simp_all
  · refine forall_congr' fun i => ?_
    rw [hadds, hframe.readEdges, heff.lines, fire_longSent, ← List.append_assoc,
      List.append_left_inj]
  · have hevents := heff.events i
    rw [hnil] at hevents
    exact fire_quiet.1 (List.append_eq_nil_iff.1 hevents.symm).2
  · exact (heff.quiet fun j => fire_quiet.2 (hnone j)).trans hempty

/-! ## Reading edges -/

/-- What has been sent and what a batch of edges says answer the released presses in order: the one
held before with what has been sent, those of the batch with short presses. -/
theorem lineRun_total {l : Line} {es fs : List ButtonEdge} (h : Tracks l es)
    (hs : Spaced (es ++ fs)) : (if l.longSent then [true] else []) ++ (lineRun l fs).2 =
      (straddling (held es) fs).map (fun _ => l.longSent) ++ (presses fs).map (fun _ => false) ++
        if (lineRun l fs).1.longSent then [true] else [] := by
  by_cases hne : fs = []
  · subst hne
    have hnone : straddling (held es) [] = [] := by cases held es <;> rfl
    rw [hnone]
    exact List.append_nil _
  · rw [lineRun_answers h hs hne, lineRun_longSent h hne]
    simp

theorem map_append_map_eq_iff {α β : Type*} {f g u : α → β} {l m : List α} :
    l.map f ++ m.map g = (l ++ m).map u ↔ (∀ a ∈ l, f a = u a) ∧ ∀ a ∈ m, g a = u a := by
  rw [List.map_append, ← List.map_inj_left, ← List.map_inj_left]
  exact ⟨fun h => List.append_inj h (by simp), fun h => by rw [h.1, h.2]⟩

/-- The condition of `InTime` in terms of what has been sent. -/
def Answered (l : Line) (es fs : List ButtonEdge) : Prop :=
  (∀ p ∈ straddling (held es) fs, l.longSent = isLong p) ∧ ∀ p ∈ presses fs, false = isLong p

/-- What a batch of edges does in a state of the run. -/
structure Batch (btnOffsets : Fin 3 → ℕ) (s s' : State) (es : List EdgeEvent) : Prop where
  effect : Effect s.takeEdges s'
    (fun i => lineRun (s.lines i) (lineEdges btnOffsets s.pressedLevel i es)) es.length
  spaced : ∀ i, Spaced (s.readEdges btnOffsets i ++ lineEdges btnOffsets s.pressedLevel i es)
  readEdges : ∀ i, s'.readEdges btnOffsets i =
    s.readEdges btnOffsets i ++ lineEdges btnOffsets s.pressedLevel i es

theorem Inv.batched (h : Inv btnOffsets s) (hempty : s.pending.contents = []) (env : ReadEnv) :
    Batch btnOffsets s (s.takeEdges.processEdgeEvents btnOffsets env 0
      (s.unread.take edgeBufferCapacity)) (s.unread.take edgeBufferCapacity) := by
  have hspaced : ∀ i, Spaced (s.readEdges btnOffsets i ++
      lineEdges btnOffsets s.pressedLevel i (s.unread.take edgeBufferCapacity)) := fun i => by
    have hall := h.spaced i
    rw [← List.take_append_drop edgeBufferCapacity s.unread, ← List.append_assoc,
      lineEdges_append] at hall
    rw [State.readEdges, ← lineEdges_append]
    exact hall.left_of_append
  have hroom : s.takeEdges.pending.contents.length + (s.unread.take edgeBufferCapacity).length ≤
      maxPendingEvents := by
    change s.pending.contents.length + (s.unread.take edgeBufferCapacity).length ≤ _
    rw [hempty, List.length_nil, Nat.zero_add]
    exact (List.length_take_le edgeBufferCapacity s.unread).trans (by decide)
  have heff := effect_processEdgeEvents btnOffsets env (s := s.takeEdges) rfl h.timerOpen h.tracks 0
    _ hroom hspaced
  refine ⟨heff, hspaced, fun i => ?_⟩
  rw [heff.frame.readEdges]
  exact lineEdges_append ..

theorem Batch.inv (hb : Batch btnOffsets s s' (s.unread.take edgeBufferCapacity))
    (h : Inv btnOffsets s) : Inv btnOffsets s' where
  requested := hb.effect.frame.requested.trans h.requested
  timerOpen := hb.effect.frame.timerOpen.trans h.timerOpen
  tracks i := by
    rw [hb.effect.lines, hb.readEdges]
    exact (h.tracks i).edges _
  spaced i := by
    rw [hb.effect.frame.pressedLevel, hb.effect.frame.taken, hb.effect.frame.unread]
    change Spaced (lineEdges btnOffsets s.pressedLevel i
      (s.taken ++ s.unread.take edgeBufferCapacity ++ s.unread.drop edgeBufferCapacity))
    rw [List.append_assoc, List.take_append_drop]
    exact h.spaced i
  sent i hi := by
    rw [hb.effect.lines] at hi
    -- a batch with edges of the button leaves no long press sent
    have hnone : lineEdges btnOffsets s.pressedLevel i (s.unread.take edgeBufferCapacity) = [] := by
      by_contra hne
      simp [lineRun_longSent (h.tracks i) hne] at hi
    rw [hb.effect.lines, hb.effect.clockMs]
    rw [hnone] at hi ⊢
    exact h.sent i hi
  count i := by
    have hlen := congrArg List.length (lineRun_total (h.tracks i) (hb.spaced i))
    have hcount := h.count i
    have hadds : lineEvents i s'.produced = lineEvents i s.produced ++ _ := hb.effect.produced i
    rw [hadds, hb.readEdges, hb.effect.lines, presses_append (hb.spaced i)]
    simp only [List.length_append, List.length_map, apply_ite List.length, List.length_singleton,
      List.length_nil] at hlen ⊢
    omega

/-- **One batch of edges.** A batch keeps every line correct exactly when what has been sent of the
held presses is right and the presses of the batch itself are short. -/
theorem Batch.correct_iff {es : List EdgeEvent} (hb : Batch btnOffsets s s' es)
    (h : Inv btnOffsets s) (hcorrect : Correct btnOffsets s) : Correct btnOffsets s' ↔
      ∀ i, Answered (s.lines i) (s.readEdges btnOffsets i)
        (lineEdges btnOffsets s.pressedLevel i es) := by
  refine forall_congr' fun i => ?_
  have hadds : lineEvents i s'.produced = lineEvents i s.produced ++ _ := hb.effect.produced i
  rw [hadds, hb.readEdges, hb.effect.lines, hcorrect i, presses_append (hb.spaced i),
    List.append_assoc, lineRun_total (h.tracks i) (hb.spaced i), List.map_append,
    ← List.append_assoc, List.append_left_inj, List.append_right_inj]
  exact map_append_map_eq_iff

/-! ## Steps and runs -/

theorem inTime_of_batch_nil {env : ReadEnv} (h : s.batch env = []) :
    InTime btnOffsets s (.read env) := fun i => by
  rw [h]
  refine ⟨fun p hp => ?_, fun p hp => by simp [lineEdges, pressesFrom] at hp⟩
  cases hheld : held (s.readEdges btnOffsets i) <;> simp [hheld, lineEdges, straddling] at hp

theorem held_of_straddling {o : Option UInt64} {fs : List ButtonEdge} {p : UInt64 × UInt64}
    (hp : p ∈ straddling o fs) : o = some p.1 := by
  unfold straddling at hp
  split at hp
  · rw [List.mem_singleton.1 hp]
  · cases hp

/-- The condition on a call that reads edges, before and after the timer handler. -/
theorem Fired.inTime_iff {env : ReadEnv} (hf : Fired btnOffsets s s' env)
    (hbatch : s.batch env = s'.unread.take edgeBufferCapacity) :
    InTime btnOffsets s (.read env) ↔
      ∀ i, Answered (s'.lines i) (s'.readEdges btnOffsets i)
        (lineEdges btnOffsets s'.pressedLevel i (s'.unread.take edgeBufferCapacity)) := by
  refine forall_congr' fun i => ?_
  rw [hf.frame.readEdges, hf.frame.pressedLevel, ← hbatch]
  refine and_congr (forall₂_congr fun p hp => ?_) (forall₂_congr fun p _ => eq_comm)
  rw [← hf.sent i p.1 (held_of_straddling hp)]
  exact Bool.eq_iff_iff.symm

/-- **One call of `read_event`** keeps every line correct exactly when it is in time. -/
theorem Inv.read (h : Inv btnOffsets s) {env : ReadEnv}
    (hgen : Genuine btnOffsets s (.read env)) :
    Inv btnOffsets (s.libgpiodReadEvent btnOffsets env).1 ∧ (Correct btnOffsets s →
      (Correct btnOffsets (s.libgpiodReadEvent btnOffsets env).1 ↔
        InTime btnOffsets s (.read env))) := by
  have hcase := readCase_libgpiodReadEvent btnOffsets h.requested env
  generalize (s.libgpiodReadEvent btnOffsets env).1 = s' at hcase ⊢
  cases hcase with
  | pending hne =>
    have hview := sameView_handOut s
    have hbatch : s.batch env = [] := if_neg fun hb => hne hb.1
    exact ⟨hview.inv h, fun hc => iff_of_true (hview.correct_iff.2 hc)
      (inTime_of_batch_nil hbatch)⟩
  | timer hempty hstop =>
    have hf := h.fired hgen hempty
    have hview := sameView_handOut (s.handleLongPressTimer env)
    have hbatch : s.batch env = [] := by
      unfold batch
      rcases hstop with hne | hfails | hunread
      · exact if_neg fun hb => hne (hf.pending.2 hb.2.1)
      · exact if_neg fun hb => by simp [hfails] at hb
      · rw [← hf.frame.unread, hunread, List.take_nil, ite_self]
    exact ⟨hview.inv hf.inv, fun hc => iff_of_true (hview.correct_iff.2 (hf.correct.2 hc))
      (inTime_of_batch_nil hbatch)⟩
  | edges hempty hquiet hfails =>
    have hf := h.fired hgen hempty
    have hbatch : s.batch env = (s.handleLongPressTimer env).unread.take edgeBufferCapacity := by
      rw [hf.frame.unread]
      exact if_pos ⟨hempty, hf.pending.1 hquiet, hfails⟩
    have hb := hf.inv.batched hquiet env
    have hview := sameView_handOut ((s.handleLongPressTimer env).takeEdges.processEdgeEvents
      btnOffsets env 0 ((s.handleLongPressTimer env).unread.take edgeBufferCapacity))
    refine ⟨hview.inv (hb.inv hf.inv), fun hc => ?_⟩
    rw [hview.correct_iff, hb.correct_iff hf.inv (hf.correct.2 hc), hf.inTime_iff hbatch]

theorem Inv.edge (h : Inv btnOffsets s) {e : EdgeEvent} (hgen : Genuine btnOffsets s (.edge e)) :
    Inv btnOffsets (s.step btnOffsets (.edge e)) where
  requested := h.requested
  timerOpen := h.timerOpen
  tracks := h.tracks
  spaced i := by
    have hi := hgen i
    rw [List.append_assoc] at hi
    exact hi
  sent := h.sent
  count := h.count

theorem Inv.step (h : Inv btnOffsets s) {e : Event} (hgen : Genuine btnOffsets s e) :
    Inv btnOffsets (s.step btnOffsets e) := by
  cases e with
  | edge e => exact h.edge hgen
  | read env => exact (h.read hgen).1

theorem Inv.classified_step_iff (h : Inv btnOffsets s) {e : Event}
    (hgen : Genuine btnOffsets s e) (hc : Classified btnOffsets s) :
    Classified btnOffsets (s.step btnOffsets e) ↔ InTime btnOffsets s e := by
  cases e with
  | edge e => exact iff_of_true hc trivial
  | read env =>
    obtain ⟨hinv, hiff⟩ := h.read hgen
    exact hinv.classified_iff_correct.trans (hiff (h.classified_iff_correct.1 hc))

theorem libgpiodInit_eq {env : InitEnv} (h : libgpiodInit env = some s) :
    ∃ pressedLevel useSoftDebounce, s =
      { requested := true, timerOpen := true, pressedLevel := pressedLevel,
        useSoftDebounce := useSoftDebounce } := by
  unfold libgpiodInit at h
  dsimp only at h
  split_ifs at h
  exact ⟨_, _, (Option.some.inj h).symm⟩

theorem inv_libgpiodInit {env : InitEnv} (h : libgpiodInit env = some s) : Inv btnOffsets s := by
  obtain ⟨pressedLevel, useSoftDebounce, rfl⟩ := libgpiodInit_eq h
  exact ⟨rfl, rfl, fun _ => tracks_initial, fun _ => .nil, by simp, fun _ => rfl⟩

theorem classified_libgpiodInit {env : InitEnv} (h : libgpiodInit env = some s) :
    Classified btnOffsets s := by
  obtain ⟨pressedLevel, useSoftDebounce, rfl⟩ := libgpiodInit_eq h
  exact fun _ => Or.inl rfl

/-- **Short and long presses.** In every run after a successful initialisation, over edges that
alternate and are debounced and a monotone clock, every press is reported as its edges say, in all
states of the run, exactly when every call of `read_event` is in time. -/
theorem classified_iff (btnOffsets : Fin 3 → ℕ) {env : InitEnv} (hinit : libgpiodInit env = some s)
    {es : List Event} (hes : Along (step btnOffsets) (Genuine btnOffsets) s es) :
    Throughout (step btnOffsets) (Classified btnOffsets) s es ↔
      Along (step btnOffsets) (InTime btnOffsets) s es :=
  throughout_iff_along_of (fun _ _ h hgen _ => h.step hgen)
    (fun _ _ h hgen hc => h.classified_step_iff hgen hc) (inv_libgpiodInit hinit)
    (classified_libgpiodInit hinit) hes

/-- Everything opens, with hardware debounce, and the idle level is 0. -/
def readyEnv : InitEnv where
  chipOpens := true
  requestDebounced := true
  debounceUnsupported := false
  requestPlain := true
  bufferAllocated := true
  timerCreated := true
  values _ := 0

/-- The state after it. -/
def ready : State := { requested := true, timerOpen := true, pressedLevel := 1 }

/-- K1 is pressed or released at a time in ms. -/
def edgeAt (type : EdgeType) (timeMs : UInt64) : Event :=
  .edge { offset := 0, type := type, timestampNs := timeMs * 1000000 }

/-- A call at a time in ms. -/
def readAt (nowMs : UInt64) : Event :=
  .read { nowMs := nowMs, nowNs := nowMs * 1000000, armMs := nowMs, edgeArmMs := fun _ => nowMs,
          readFails := false }

/-- A short press whose edges are read as they come. -/
theorem classified_prompt :
    Throughout (step defaultBtnOffsets) (Classified defaultBtnOffsets) ready
      [edgeAt .rising 1000, readAt 1001, edgeAt .falling 1100, readAt 1101] :=
  have hinit : libgpiodInit readyEnv = some ready := rfl
  (classified_iff defaultBtnOffsets hinit (by decide +kernel)).2 (by decide +kernel)

/-- The failing input: K1 is held from 1000 ms to 1100 ms, and the event loop gets round to the
release at 1700 ms. -/
theorem short_hold_long_press : ¬∀ (btnOffsets : Fin 3 → ℕ) (env : InitEnv) (s : State)
    (es : List Event), libgpiodInit env = some s →
    Along (step btnOffsets) (Genuine btnOffsets) s es →
    Throughout (step btnOffsets) (Classified btnOffsets) s es := fun h =>
  absurd (h defaultBtnOffsets readyEnv ready
    [edgeAt .rising 1000, readAt 1001, edgeAt .falling 1100, readAt 1700, readAt 1701] rfl
    (by decide +kernel)) (by decide +kernel)

end NanoHat.Gpio.State
