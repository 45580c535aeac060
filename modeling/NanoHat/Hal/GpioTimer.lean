import NanoHat.Foundations.FoldMin
import NanoHat.Hal.GpioClassify

/-!
# The delay of the long press timer

`update_long_press_timer_locked` folds the time left of all buttons that await their long press,
with `0` both for "nothing seen yet" and for a deadline that has passed. A passed deadline is
therefore forgotten as soon as a button with a later number awaits its long press too
(`timerOk_iff` says exactly when the delay is right all the same). The HAL over libgpiod and the
mock have the same function.
-/

namespace NanoHat.Gpio

/-- The value of the timer in nanoseconds. -/
def Timespec.ns (t : Timespec) : ℕ := t.tvSec.toNat * 1000000000 + t.tvNsec.toNat

namespace State

/-- The button is pressed and its long press is not sent. -/
def awaitsLong (l : Line) : Bool := l.pressed && !l.longSent

/-- The time until the deadline of a button. -/
def timeLeft (l : Line) (nowMs : UInt64) : ℕ :=
  l.pressTimeMs.toNat + gpioLongPressMs.toNat - nowMs.toNat

/-- The same with the deadline as an unsigned number of 64 bits. -/
def wrappedTimeLeft (l : Line) (nowMs : UInt64) : ℕ :=
  (l.pressTimeMs.toNat + gpioLongPressMs.toNat) % 2 ^ 64 - nowMs.toNat

/-- The timer is right for the lines at a time. -/
structure TimerOk (s : State) (nowMs : UInt64) : Prop where
  disarmed : s.timer.ns = 0 ↔ ∀ i, ¬awaitsLong (s.lines i)
  armed : (∃ i, awaitsLong (s.lines i)) → ∃ d : ℕ, s.timer.ns = d * 1000000 ∧ 1 ≤ d ∧
    ∀ i, awaitsLong (s.lines i) → d ≤ max 1 (timeLeft (s.lines i) nowMs)

/-- No button whose deadline has passed is followed by buttons that all want a later time than
some button up to it. -/
def NoneDelayed (s : State) (nowMs : UInt64) : Prop :=
  ∀ k, awaitsLong (s.lines k) → wrappedTimeLeft (s.lines k) nowMs = 0 →
    (∀ j > k, ¬awaitsLong (s.lines j)) ∨
      ∀ i ≤ k, awaitsLong (s.lines i) →
        ∃ j > k, awaitsLong (s.lines j) ∧
          wrappedTimeLeft (s.lines j) nowMs ≤ max 1 (timeLeft (s.lines i) nowMs)

/-! ## The fold -/

/-- The buttons that await their long press, in order. -/
def awaiting (s : State) : List (Fin 3) :=
  (List.finRange 3).filter fun i => awaitsLong (s.lines i)

theorem mem_awaiting {s : State} {i : Fin 3} : i ∈ s.awaiting ↔ awaitsLong (s.lines i) := by
  simp [awaiting]

theorem awaiting_sorted (s : State) : s.awaiting.Pairwise (· < ·) :=
  (List.pairwise_lt_finRange 3).filter _

theorem wrappedTimeLeft_le (l : Line) (nowMs : UInt64) :
    wrappedTimeLeft l nowMs ≤ timeLeft l nowMs :=
  Nat.sub_le_sub_right (Nat.mod_le _ _) _

/-- The code's `remaining`. -/
theorem remaining_toNat (l : Line) (nowMs : UInt64) :
    (if l.pressTimeMs + gpioLongPressMs > nowMs then l.pressTimeMs + gpioLongPressMs - nowMs
      else 0).toNat = wrappedTimeLeft l nowMs := by
  have hsum : (l.pressTimeMs + gpioLongPressMs).toNat =
      (l.pressTimeMs.toNat + gpioLongPressMs.toNat) % 2 ^ 64 := UInt64.toNat_add ..
  unfold wrappedTimeLeft
  rw [← hsum]
  split_ifs with h
  · exact UInt64.toNat_sub_of_le _ _ (UInt64.le_of_lt h)
  · rw [gt_iff_lt, UInt64.lt_iff_toNat_lt] at h
    change 0 = _
    omega

theorem keepLess_toNat (d r : UInt64) :
    (if d = 0 || r < d then r else d).toNat = FoldMin.keepLess d.toNat r.toNat := by
  have hzero : d = 0 ↔ d.toNat = 0 := UInt64.toNat_inj.symm
  unfold FoldMin.keepLess
  simp only [Bool.or_eq_true, decide_eq_true_eq, hzero, UInt64.lt_iff_toNat_lt]
  split_ifs <;> rfl

/-- The body of the loop, on `has_pending` and `next_delay_ms`. -/
def delayStep (s : State) (nowMs : UInt64) (acc : Bool × UInt64) (i : Fin 3) : Bool × UInt64 :=
  if awaitsLong (s.lines i) then
    let deadline := (s.lines i).pressTimeMs + gpioLongPressMs
    let remaining := if deadline > nowMs then deadline - nowMs else 0
    (true, if acc.2 = 0 || remaining < acc.2 then remaining else acc.2)
  else acc

theorem nextDelay_eq_foldl (s : State) (nowMs : UInt64) :
    s.nextDelay nowMs = (List.finRange 3).foldl (s.delayStep nowMs) (false, 0) := rfl

/-- The loop over some of the buttons, from any `has_pending` and `next_delay_ms`. -/
theorem foldl_delayStep (s : State) (nowMs : UInt64) (is : List (Fin 3)) (acc : Bool × UInt64) :
    ((is.foldl (s.delayStep nowMs) acc).1 = true ↔
      acc.1 = true ∨ (is.filter fun i => awaitsLong (s.lines i)) ≠ []) ∧
    (is.foldl (s.delayStep nowMs) acc).2.toNat =
      ((is.filter fun i => awaitsLong (s.lines i)).map fun i =>
        wrappedTimeLeft (s.lines i) nowMs).foldl FoldMin.keepLess acc.2.toNat := by
  induction is generalizing acc with
  | nil => simp
  | cons i is ih =>
    obtain ⟨hfound, hdelay⟩ := ih (s.delayStep nowMs acc i)
    rw [List.foldl_cons]
    cases hi : awaitsLong (s.lines i) with
    | true =>
      rw [List.filter_cons_of_pos (by exact hi), List.map_cons, List.foldl_cons]
      have hfirst : (s.delayStep nowMs acc i).1 = true := by
        unfold delayStep
        rw [if_pos hi]
      have hsecond : (s.delayStep nowMs acc i).2.toNat =
          FoldMin.keepLess acc.2.toNat (wrappedTimeLeft (s.lines i) nowMs) := by
        unfold delayStep
        rw [if_pos hi, ← remaining_toNat, ← keepLess_toNat]
      rw [hsecond] at hdelay
      exact ⟨iff_of_true (hfound.2 (Or.inl hfirst)) (Or.inr (List.cons_ne_nil _ _)), hdelay⟩
    | false =>
      have hkeep : s.delayStep nowMs acc i = acc := if_neg (by rw [hi]; exact Bool.false_ne_true)
      rw [List.filter_cons_of_neg (by rw [hi]; exact Bool.false_ne_true)]
      rw [hkeep] at hfound hdelay ⊢
      exact ⟨hfound, hdelay⟩

/-- `has_pending` and `next_delay_ms` after the loop. -/
theorem nextDelay_eq (s : State) (nowMs : UInt64) :
    ((s.nextDelay nowMs).1 = true ↔ s.awaiting ≠ []) ∧ (s.nextDelay nowMs).2.toNat =
      FoldMin.foldMin (s.awaiting.map fun i => wrappedTimeLeft (s.lines i) nowMs) := by
  obtain ⟨hfound, hdelay⟩ := s.foldl_delayStep nowMs (List.finRange 3) (false, 0)
  rw [nextDelay_eq_foldl]
  refine ⟨hfound.trans ?_, hdelay⟩
  simp [awaiting]

theorem ns_disarmed : Timespec.ns {} = 0 := by decide

/-- A delay in seconds and nanoseconds. -/
theorem ns_of_delay (d : UInt64) :
    Timespec.ns ⟨d / 1000, d % 1000 * 1000000⟩ = d.toNat * 1000000 := by
  have hlt := d.toNat_lt
  unfold Timespec.ns
  simp only [UInt64.toNat_div, UInt64.toNat_mul, UInt64.toNat_mod, UInt64.reduceToNat]
  omega

/-- What the function does to the timer. -/
theorem ns_updateLongPressTimer {s : State} (htimer : s.timerOpen = true) (nowMs : UInt64) :
    (s.updateLongPressTimer nowMs).timer.ns =
      if s.awaiting = [] then 0
      else max 1 (FoldMin.foldMin (s.awaiting.map fun i => wrappedTimeLeft (s.lines i) nowMs)) *
        1000000 := by
  obtain ⟨hfound, hdelay⟩ := s.nextDelay_eq nowMs
  unfold updateLongPressTimer
  rw [if_neg (by rw [htimer]; exact Bool.false_ne_true)]
  generalize s.nextDelay nowMs = delay at hfound hdelay ⊢
  obtain ⟨hasPending, d⟩ := delay
  dsimp only at hfound hdelay ⊢
  cases hasPending with
  | false =>
    rw [if_pos (not_not.1 fun h => Bool.false_ne_true (hfound.2 h)), if_neg Bool.false_ne_true]
    exact ns_disarmed
  | true =>
    rw [if_neg (hfound.1 rfl), ← hdelay]
    simp only [if_true, ns_of_delay]
    congr 1
    by_cases hd : d = 0
    · rw [if_pos hd, hd]
      rfl
    · have hpos : d.toNat ≠ 0 := fun h => hd (UInt64.toNat_inj.1 h)
      rw [if_neg hd]
      omega

theorem updateLongPressTimer_lines (s : State) (nowMs : UInt64) :
    (s.updateLongPressTimer nowMs).lines = s.lines := by
  obtain ⟨t, ht⟩ := s.updateLongPressTimer_eq nowMs
  rw [ht]

/-! ## The exact condition -/

/-- The list of awaiting buttons around one of them. -/
theorem awaiting_split {s : State} {pre post : List (Fin 3)} {k : Fin 3}
    (h : s.awaiting = pre ++ k :: post) {j : Fin 3} :
    j ∈ post ↔ k < j ∧ awaitsLong (s.lines j) := by
  have hsorted := s.awaiting_sorted
  rw [h, List.pairwise_append, List.pairwise_cons] at hsorted
  obtain ⟨-, ⟨hafter, -⟩, hbefore⟩ := hsorted
  rw [← mem_awaiting, h, List.mem_append, List.mem_cons]
  constructor
  · intro hj
    exact ⟨hafter j hj, Or.inr (Or.inr hj)⟩
  · rintro ⟨hlt, hj | rfl | hj⟩
    · exact absurd (hbefore j hj k List.mem_cons_self) hlt.asymm
    · exact absurd hlt (lt_irrefl _)
    · exact hj

/-- What the property says of the number that is folded. -/
theorem timerOk_iff_foldMin {s : State} (htimer : s.timerOpen = true) (nowMs : UInt64) :
    TimerOk (s.updateLongPressTimer nowMs) nowMs ↔ ∀ i ∈ s.awaiting,
      max 1 (FoldMin.foldMin (s.awaiting.map fun i => wrappedTimeLeft (s.lines i) nowMs)) ≤
        max 1 (timeLeft (s.lines i) nowMs) := by
  have hns := ns_updateLongPressTimer htimer nowMs
  have hlines := s.updateLongPressTimer_lines nowMs
  generalize s.updateLongPressTimer nowMs = s' at hns hlines ⊢
  generalize FoldMin.foldMin (s.awaiting.map fun i => wrappedTimeLeft (s.lines i) nowMs) = d at hns ⊢
  have hnone : s.awaiting = [] ↔ ∀ i, ¬awaitsLong (s.lines i) := by
    rw [List.eq_nil_iff_forall_not_mem]
    exact forall_congr' fun i => not_congr mem_awaiting
  constructor
  · intro hok i hi
    obtain ⟨d', hd', -, hle⟩ := hok.armed ⟨i, by rw [hlines]; exact mem_awaiting.1 hi⟩
    rw [hns, if_neg (List.ne_nil_of_mem hi)] at hd'
    have hbound := hle i (by rw [hlines]; exact mem_awaiting.1 hi)
    rw [hlines] at hbound
    omega
  · intro hle
    refine ⟨?_, ?_⟩
    · rw [hns, hlines, ← hnone]
      split_ifs with hnil
      · exact iff_of_true rfl hnil
      · exact iff_of_false (by omega) hnil
    · rintro ⟨i, hi⟩
      rw [hlines] at hi
      refine ⟨max 1 d, ?_, le_max_left .., fun j hj => ?_⟩
      · rw [hns, if_neg (List.ne_nil_of_mem (mem_awaiting.2 hi))]
      · rw [hlines] at hj ⊢
        exact hle j (mem_awaiting.2 hj)

theorem foldMin_le_of_noneDelayed {s : State} {nowMs : UInt64} (h : NoneDelayed s nowMs)
    {i : Fin 3} (hi : i ∈ s.awaiting) :
    FoldMin.foldMin (s.awaiting.map fun i => wrappedTimeLeft (s.lines i) nowMs) ≤
      max 1 (timeLeft (s.lines i) nowMs) := by
  have hleft : ∀ j, wrappedTimeLeft (s.lines j) nowMs ≤ max 1 (timeLeft (s.lines j) nowMs) :=
    fun j => (wrappedTimeLeft_le _ _).trans (le_max_right _ _)
  by_cases hzero : ∃ k ∈ s.awaiting, wrappedTimeLeft (s.lines k) nowMs = 0
  swap
  · have hno : 0 ∉ s.awaiting.map fun i => wrappedTimeLeft (s.lines i) nowMs := by
      intro hm
      obtain ⟨k, hk, hkz⟩ := List.mem_map.1 hm
      exact hzero ⟨k, hk, hkz⟩
    have hleast := FoldMin.foldMin_isLeast (List.ne_nil_of_mem (List.mem_map_of_mem hi)) hno
    exact (hleast.2 (List.mem_map_of_mem hi)).trans (hleft i)
  -- the entries after the last passed deadline decide
  obtain ⟨pre, k, post, hsplit, hkz, hpost⟩ := FoldMin.exists_last hzero
  have hk : awaitsLong (s.lines k) := mem_awaiting.1 (hsplit ▸ List.mem_append_right _ List.mem_cons_self)
  have hfold : FoldMin.foldMin (s.awaiting.map fun i => wrappedTimeLeft (s.lines i) nowMs) =
      FoldMin.foldMin (post.map fun i => wrappedTimeLeft (s.lines i) nowMs) := by
    rw [hsplit, List.map_append, List.map_cons, hkz, FoldMin.foldMin_append_zero]
  rw [hfold]
  have hle : ∀ j ∈ post, FoldMin.foldMin (post.map fun i => wrappedTimeLeft (s.lines i) nowMs) ≤
      wrappedTimeLeft (s.lines j) nowMs := by
    intro j hj
    have hmem : wrappedTimeLeft (s.lines j) nowMs ∈
        post.map fun i => wrappedTimeLeft (s.lines i) nowMs := List.mem_map_of_mem hj
    refine (FoldMin.foldMin_isLeast (List.ne_nil_of_mem hmem) ?_).2 hmem
    intro hm
    obtain ⟨j', hj', hz⟩ := List.mem_map.1 hm
    exact hpost j' hj' hz
  rcases h k hk hkz with hlast | hlater
  · have hnil : post = [] := by
      refine List.eq_nil_iff_forall_not_mem.2 fun j hj => ?_
      obtain ⟨hlt, hj⟩ := (awaiting_split hsplit).1 hj
      exact hlast j hlt hj
    rw [hnil]
    exact Nat.zero_le _
  · by_cases hik : i ≤ k
    · obtain ⟨j, hlt, hj, hjle⟩ := hlater i hik (mem_awaiting.1 hi)
      exact (hle j ((awaiting_split hsplit).2 ⟨hlt, hj⟩)).trans hjle
    · have hmem := (awaiting_split hsplit).2 ⟨not_le.1 hik, mem_awaiting.1 hi⟩
      exact (hle i hmem).trans (hleft i)

theorem noneDelayed_of_foldMin_le {s : State} {nowMs : UInt64}
    (h : ∀ i ∈ s.awaiting,
      FoldMin.foldMin (s.awaiting.map fun i => wrappedTimeLeft (s.lines i) nowMs) ≤
        max 1 (timeLeft (s.lines i) nowMs)) : NoneDelayed s nowMs := by
  intro k hk hkz
  obtain ⟨pre, post, hsplit⟩ := List.append_of_mem (mem_awaiting.2 hk)
  rw [hsplit, List.map_append, List.map_cons, hkz, FoldMin.foldMin_append_zero, ← hsplit] at h
  by_cases hnil : post = []
  · refine Or.inl fun j hlt hj => ?_
    have hm := (awaiting_split hsplit).2 ⟨hlt, hj⟩
    rw [hnil] at hm
    exact absurd hm List.not_mem_nil
  refine Or.inr fun i _ hi => ?_
  have hbound := h i (mem_awaiting.2 hi)
  by_cases hzero : 0 ∈ post.map fun i => wrappedTimeLeft (s.lines i) nowMs
  · obtain ⟨j, hj, hjz⟩ := List.mem_map.1 hzero
    obtain ⟨hlt, hj⟩ := (awaiting_split hsplit).1 hj
    exact ⟨j, hlt, hj, hjz.le.trans (Nat.zero_le _)⟩
  · have hne : (post.map fun i => wrappedTimeLeft (s.lines i) nowMs) ≠ [] :=
      fun heq => hnil (List.map_eq_nil_iff.1 heq)
    obtain ⟨j, hj, hjd⟩ := List.mem_map.1 (FoldMin.foldMin_isLeast hne hzero).1
    obtain ⟨hlt, hj⟩ := (awaiting_split hsplit).1 hj
    exact ⟨j, hlt, hj, hjd.le.trans hbound⟩

/-- **When the timer is right.** For all lines and every time, the function leaves the timer
disarmed, or armed with a delay that no awaited deadline needs shorter, exactly when no passed
deadline is followed by later ones only. -/
theorem timerOk_iff {s : State} (htimer : s.timerOpen = true) (nowMs : UInt64) :
    TimerOk (s.updateLongPressTimer nowMs) nowMs ↔ NoneDelayed s nowMs := by
  rw [timerOk_iff_foldMin htimer]
  constructor
  · intro h
    exact noneDelayed_of_foldMin_le fun i hi => (le_max_right _ _).trans (h i hi)
  · intro h i hi
    exact max_le (le_max_left _ _) (foldMin_le_of_noneDelayed h hi)

/-- K1 and K2 are held since 1000 ms and 1599 ms. -/
def twoHeld : State :=
  { ready with lines := ![{ pressTimeMs := 1000, lastEdgeMs := 1000, pressed := true },
      { pressTimeMs := 1599, lastEdgeMs := 1599, pressed := true }, {}] }

/-- One millisecond before the first deadline. -/
theorem timerOk_twoHeld : TimerOk (twoHeld.updateLongPressTimer 1599) 1599 :=
  (timerOk_iff rfl 1599).2 (by unfold NoneDelayed; decide +kernel)

/-- The failing input: at the deadline of K1 the timer is set to that of K2, 599 ms later. -/
theorem k1_delayed_by_k2 : ¬∀ (s : State) (nowMs : UInt64), s.timerOpen = true →
    TimerOk (s.updateLongPressTimer nowMs) nowMs := by
  intro h
  obtain ⟨d, hd, -, hle⟩ := (h twoHeld 1600 rfl).armed ⟨0, by decide +kernel⟩
  have hns : (twoHeld.updateLongPressTimer 1600).timer.ns = 599000000 := by decide +kernel
  have hk1 : d ≤ 1 := hle 0 (by decide +kernel)
  omega

end State

end NanoHat.Gpio
