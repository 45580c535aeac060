import Mathlib.Algebra.Order.Field.Basic
import Mathlib.Algebra.Order.Field.Rat
import Mathlib.Tactic.Linarith
import Mathlib.Tactic.Positivity

/-!
# Rounded arithmetic

A computation in floating point is written once, in the order of its operations, with a hook that
every result of an operation passes through. With the hook `exact` it has its meaning over the
rationals; what is proved for every hook holds of every format and rounding mode, as long as no
operation leaves the finite numbers. A hook is `Accurate` if its errors are small.
-/

namespace NanoHat

/-- What an operation makes of its exact result. -/
abbrev Rounding := ℚ → ℚ

namespace Rounding

/-- Nothing is rounded. -/
def exact : Rounding := id

@[simp] theorem exact_apply (q : ℚ) : exact q = q := rfl

/-- The conversion to an integer, towards zero. -/
def truncate (q : ℚ) : ℤ := q.num.tdiv q.den

/-! ## Errors -/

/-- The error of an operation is small; those of single precision are a good deal smaller. -/
def Accurate (rnd : Rounding) : Prop := ∀ q : ℚ, |q| ≤ 2 ^ 64 → |rnd q - q| ≤ (|q| + 1) / 2 ^ 20

theorem accurate_exact : Accurate exact := by
  intro q _
  rw [exact_apply, sub_self, abs_zero]
  positivity

theorem Accurate.error_le {rnd : Rounding} (h : Accurate rnd) {q b : ℚ} (hq : |q| ≤ b)
    (hb : b ≤ 999) : |rnd q - q| ≤ 1 / 1000 := by
  have herror := h q (by linarith)
  linarith

/-- The conversion to an integer does not leave a range of integers. -/
theorem natAbs_truncate_le {q : ℚ} {n : ℕ} (h : |q| < n + 1) : (truncate q).natAbs ≤ n := by
  unfold truncate
  rw [Int.natAbs_tdiv, Int.natAbs_natCast]
  refine Nat.le_of_lt_succ (Nat.div_lt_of_lt_mul ?_)
  have hden : (0 : ℚ) < q.den := by exact_mod_cast q.den_pos
  have hnum : |q| * q.den = (q.num.natAbs : ℚ) := by
    calc |q| * q.den = |q * q.den| := by rw [abs_mul, abs_of_pos hden]
      _ = |(q.num : ℚ)| := by rw [Rat.mul_den_eq_num]
      _ = (q.num.natAbs : ℚ) := by rw [Nat.cast_natAbs, Int.cast_abs]
  have hlt := mul_lt_mul_of_pos_right h hden
  rw [hnum, mul_comm] at hlt
  exact_mod_cast hlt

end Rounding

end NanoHat
