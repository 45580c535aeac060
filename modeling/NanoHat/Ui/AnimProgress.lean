import Mathlib.Data.Int.ConditionallyCompleteOrder
import Mathlib.Order.Interval.Set.Basic
import Mathlib.Tactic.NormNum
import Mathlib.Tactic.Ring
import NanoHat.Foundations.Rounding
import NanoHat.Ui.Anim

/-!
# Animation progress

The functions of `anim.c` that compute in floating point, over a rounding of their results. The
progress of an animation and its end (`anim_is_complete`) are two judgements of the same elapsed
time; they agree precisely if the clock has not gone back behind the start (`agrees_iff`). The
offset of a sliding page is within the width of the screen, as long as the errors are small
(`animSlideOffset_mem`).
-/

namespace NanoHat

open Rounding

/-- `SCREEN_WIDTH`. -/
abbrev screenWidth : ℤ := 128

/-- `ease_out_quad`. -/
def easeOutQuad (rnd : Rounding) (t : ℚ) : ℚ := rnd (t * rnd (2 - t))

/-- `ease_in_out_quad`. -/
def easeInOutQuad (rnd : Rounding) (t : ℚ) : ℚ :=
  if t < 1 / 2 then rnd (rnd (2 * t) * t)
  else rnd (1 - rnd (rnd (2 * rnd (1 - t)) * rnd (1 - t)))

/-- `anim_progress`. -/
def animProgress (rnd : Rounding) (startMs nowMs durationMs : UInt64) : ℚ :=
  if nowMs ≤ startMs then 0
  else if durationMs = 0 then 1
  else
    let elapsed := nowMs - startMs
    if elapsed ≥ durationMs then 1
    else rnd (rnd elapsed.toNat / rnd durationMs.toNat)

/-- The keyframes of `anim_shake_offset`. -/
def shakeKeyframes (rnd : Rounding) : List (ℚ × ℚ) :=
  [(0, 0), (rnd (16 / 100), 8), (rnd (33 / 100), -8), (rnd (49 / 100), 6), (rnd (65 / 100), -6),
    (rnd (81 / 100), 3), (1, 0)]

/-- `anim_shake_offset`. -/
def animShakeOffset (rnd : Rounding) (progress : ℚ) : ℤ :=
  if progress ≤ 0 ∨ progress ≥ 1 then 0
  else
    let keyframes := shakeKeyframes rnd
    match (keyframes.zip keyframes.tail).find?
      fun k => progress ≥ k.1.1 ∧ progress < k.2.1 with
    | none => 0
    | some ((t0, v0), (t1, v1)) =>
      let localT := rnd (rnd (progress - t0) / rnd (t1 - t0))
      truncate (rnd (v0 + rnd (rnd (v1 - v0) * localT)))

/-- `anim_slide_offset`. -/
def animSlideOffset (rnd : Rounding) (progress : ℚ) (direction : AnimType) (isOutgoing : Bool) :
    ℤ :=
  let eased := easeOutQuad rnd progress
  match direction with
  | .slideLeft =>
    if isOutgoing then truncate (rnd (-screenWidth * eased))
    else truncate (rnd (screenWidth * rnd (1 - eased)))
  | .slideRight =>
    if isOutgoing then truncate (rnd (screenWidth * eased))
    else truncate (rnd (-screenWidth * rnd (1 - eased)))
  | _ => 0

namespace AnimState

variable {a : AnimState} {nowMs : UInt64}

theorem duration_ne_zero (h : a.type ≠ .none) : a.type.duration ≠ 0 := by
  cases ht : a.type with
  | none => exact absurd ht h
  | slideLeft => decide
  | slideRight => decide
  | titleShake => decide
  | enterMode => decide
  | exitMode => decide

/-- The two judgements of the end of an animation agree. -/
def Agrees (a : AnimState) (nowMs : UInt64) : Prop :=
  a.animIsComplete nowMs = true ↔ animProgress exact a.startMs nowMs a.type.duration = 1

/-- The clock is not behind the start, or so far behind it that the unsigned difference has come
round to a time within the duration. -/
def InOrder (a : AnimState) (nowMs : UInt64) : Prop :=
  a.startMs ≤ nowMs ∨ nowMs - a.startMs < a.type.duration

instance (a : AnimState) (nowMs : UInt64) : Decidable (a.InOrder nowMs) :=
  inferInstanceAs (Decidable (_ ∨ _))

theorem animIsComplete_iff (h : a.type ≠ .none) :
    a.animIsComplete nowMs = true ↔ a.type.duration ≤ nowMs - a.startMs := by
  rw [animIsComplete_of_ne_none h, decide_eq_true_iff]

/-- The progress is 1 when the clock is past the start by the duration. -/
theorem animProgress_eq_one_iff {startMs durationMs : UInt64} (h : durationMs ≠ 0) :
    animProgress exact startMs nowMs durationMs = 1 ↔
      startMs < nowMs ∧ durationMs ≤ nowMs - startMs := by
  unfold animProgress
  split
  · rename_i hle
    exact ⟨fun hc => absurd hc zero_ne_one, fun hc => absurd hle (UInt64.not_le.2 hc.1)⟩
  rename_i hlt
  dsimp only
  split
  · rename_i hge
    exact ⟨fun _ => ⟨UInt64.not_le.1 hlt, hge⟩, fun _ => rfl⟩
  · rename_i hge
    refine ⟨fun hc => ?_, fun hc => absurd hc.2 hge⟩
    have hpos : (0 : ℚ) < durationMs.toNat := by
      have hne : durationMs.toNat ≠ 0 := fun hz => h (UInt64.toNat_inj.1 hz)
      exact_mod_cast Nat.pos_of_ne_zero hne
    rw [exact_apply, exact_apply, exact_apply, div_eq_one_iff_eq hpos.ne'] at hc
    have heq : nowMs - startMs = durationMs := UInt64.toNat_inj.1 (by exact_mod_cast hc)
    exact absurd (UInt64.le_of_eq heq.symm) hge

/-- **The two judgements agree** precisely if the times are in order. -/
theorem agrees_iff (h : a.type ≠ .none) : a.Agrees nowMs ↔ a.InOrder nowMs := by
  unfold Agrees InOrder
  rw [animIsComplete_iff h, animProgress_eq_one_iff (duration_ne_zero h)]
  have hd : 0 < a.type.duration := UInt64.pos_iff_ne_zero.2 (duration_ne_zero h)
  constructor
  · intro hagree
    by_cases hcomplete : a.type.duration ≤ nowMs - a.startMs
    · exact Or.inl (UInt64.le_of_lt (hagree.1 hcomplete).1)
    · exact Or.inr (UInt64.not_le.1 hcomplete)
  · rintro horder
    refine ⟨fun hcomplete => ⟨?_, hcomplete⟩, And.right⟩
    have hle : a.startMs ≤ nowMs := horder.resolve_right (UInt64.not_lt.2 hcomplete)
    refine UInt64.lt_of_le_of_ne hle fun heq => ?_
    rw [heq, UInt64.sub_self] at hcomplete
    exact absurd hcomplete (UInt64.not_le.2 hd)

end AnimState

/-! ## Slides -/

variable {rnd : Rounding}

/-- The progress of a slide is between 0 and 1, up to errors. -/
theorem animProgress_range (h : Accurate rnd) (startMs nowMs : UInt64) :
    -(1 / 1000) ≤ animProgress rnd startMs nowMs 250 ∧
      animProgress rnd startMs nowMs 250 ≤ 1 + 1 / 1000 := by
  unfold animProgress
  split
  · norm_num
  rename_i hlt
  rw [if_neg (by decide)]
  dsimp only
  split
  · norm_num
  rename_i hlt250
  generalize hm : (nowMs - startMs).toNat = m
  have hm250 : (m : ℚ) ≤ 249 := by
    have hlt := UInt64.lt_iff_toNat_lt.1 (UInt64.not_le.1 hlt250)
    rw [hm] at hlt
    exact_mod_cast Nat.le_of_lt_succ hlt
  have hm1 : (1 : ℚ) ≤ m := by
    have hle := UInt64.le_of_lt (UInt64.not_le.1 hlt)
    have hlt := UInt64.lt_iff_toNat_lt.1 (UInt64.not_le.1 hlt)
    rw [UInt64.toNat_sub_of_le _ _ hle] at hm
    exact_mod_cast (by omega : 1 ≤ m)
  have helapsed := abs_le.1 (h.error_le (q := m) (b := 249)
    (abs_le.2 ⟨by linarith, hm250⟩) (by norm_num))
  have hduration := abs_le.1 (h.error_le (q := 250) (b := 250) (by norm_num) (by norm_num))
  change -(1 / 1000) ≤ rnd (rnd m / rnd 250) ∧ rnd (rnd m / rnd 250) ≤ 1 + 1 / 1000
  have hpos : 0 < rnd 250 := by linarith
  have hlo : 0 ≤ rnd m / rnd 250 := div_nonneg (by linarith) hpos.le
  have hhi : rnd m / rnd 250 ≤ 1 := (div_le_one hpos).2 (by linarith)
  have hquot := abs_le.1 (h.error_le (q := rnd m / rnd 250) (b := 1)
    (abs_le.2 ⟨by linarith, hhi⟩) (by norm_num))
  exact ⟨by linarith, by linarith⟩

theorem easeOutQuad_range (h : Accurate rnd) {t : ℚ} (hlo : -(1 / 1000) ≤ t)
    (hhi : t ≤ 1 + 1 / 1000) :
    -(6 / 1000) ≤ easeOutQuad rnd t ∧ easeOutQuad rnd t ≤ 1 + 6 / 1000 := by
  unfold easeOutQuad
  have hrest := h.error_le (q := 2 - t) (b := 3) (abs_le.2 ⟨by linarith, by linarith⟩)
    (by norm_num)
  generalize hr : rnd (2 - t) - (2 - t) = r at hrest
  have hprod : t * rnd (2 - t) = 1 - (1 - t) ^ 2 + t * r := by
    rw [← hr]
    ring
  have hsq : (1 - t) ^ 2 ≤ (1 + 1 / 1000) ^ 2 := sq_le_sq.2 (by
    rw [abs_of_nonneg (by norm_num : (0 : ℚ) ≤ 1 + 1 / 1000)]
    exact abs_le.2 ⟨by linarith, by linarith⟩)
  have hcross := abs_le.1 (show |t * r| ≤ 1 / 500 by
    rw [abs_mul]
    calc |t| * |r| ≤ 2 * (1 / 1000) :=
          mul_le_mul (abs_le.2 ⟨by linarith, by linarith⟩) hrest (abs_nonneg r) (by norm_num)
      _ = 1 / 500 := by norm_num)
  have hnonneg := sq_nonneg (1 - t)
  have hq := abs_le.1 (h.error_le (q := t * rnd (2 - t)) (b := 2) (by
    rw [hprod]
    exact abs_le.2 ⟨by linarith, by linarith⟩) (by norm_num))
  rw [hprod] at hq ⊢
  exact ⟨by linarith, by linarith⟩

theorem natAbs_truncate_scaled (h : Accurate rnd) {c e : ℚ} (hc : |c| = 128)
    (he : |e| ≤ 1 + 7 / 1000) : (truncate (rnd (c * e))).natAbs ≤ 128 := by
  have hce : |c * e| ≤ 128 + 896 / 1000 := by
    rw [abs_mul, hc]
    linarith
  have herror := h.error_le hce (by norm_num)
  refine natAbs_truncate_le ?_
  have hsum := abs_sub_abs_le_abs_sub (rnd (c * e)) (c * e)
  norm_num
  linarith

/-- **A page slides by at most a screen.** -/
theorem animSlideOffset_mem (h : Accurate rnd) (startMs nowMs : UInt64) (direction : AnimType)
    (isOutgoing : Bool) :
    animSlideOffset rnd (animProgress rnd startMs nowMs 250) direction isOutgoing ∈
      Set.Icc (-screenWidth) screenWidth := by
  obtain ⟨hlo, hhi⟩ := animProgress_range h startMs nowMs
  obtain ⟨hlo, hhi⟩ := easeOutQuad_range h hlo hhi
  generalize animProgress rnd startMs nowMs 250 = t at hlo hhi ⊢
  have hout : |easeOutQuad rnd t| ≤ 1 + 7 / 1000 := abs_le.2 ⟨by linarith, by linarith⟩
  have hin : |rnd (1 - easeOutQuad rnd t)| ≤ 1 + 7 / 1000 := by
    have herror := abs_le.1 (h.error_le (q := 1 - easeOutQuad rnd t) (b := 2)
      (abs_le.2 ⟨by linarith, by linarith⟩) (by norm_num))
    exact abs_le.2 ⟨by linarith, by linarith⟩
  have hwidth : ∀ x : ℤ, x.natAbs ≤ 128 → x ∈ Set.Icc (-screenWidth) screenWidth := by
    intro x hx
    have hscreen : screenWidth = 128 := rfl
    rw [Set.mem_Icc]
    omega
  unfold animSlideOffset
  dsimp only
  cases direction with
  | slideLeft =>
    cases isOutgoing with
    | true => exact hwidth _ (natAbs_truncate_scaled h (by norm_num) hout)
    | false => exact hwidth _ (natAbs_truncate_scaled h (by norm_num) hin)
  | slideRight =>
    cases isOutgoing with
    | true => exact hwidth _ (natAbs_truncate_scaled h (by norm_num) hout)
    | false => exact hwidth _ (natAbs_truncate_scaled h (by norm_num) hin)
  | none => exact hwidth 0 (by decide)
  | titleShake => exact hwidth 0 (by decide)
  | enterMode => exact hwidth 0 (by decide)
  | exitMode => exact hwidth 0 (by decide)

end NanoHat
