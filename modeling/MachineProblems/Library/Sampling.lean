import Mathlib.Tactic.Linarith
import Mathlib.Tactic.Ring
import Mathlib.Algebra.Order.Group.Unbundled.Abs
import Mathlib.Algebra.Order.Ring.Abs

/-!
# Sampling a line at equal steps

A point moves by `(a, b)` at every step, where `a` and `b` are `k * D / m` and `k * M / m`
rounded down.  The step is then parallel to `(D, M)` up to the rounding, so the multiples of
`(a, b)` pass by the multiples of `(D, M)`: when the larger coordinate has come to within
half a step of `q * D`, the smaller is as near to `q * M`, but for one unit a step.
-/

set_option autoImplicit false

namespace MachineProblems.Library

/-- Some multiple of `a` lies within half of `a` of any number. -/
theorem multiple_near {a n : ℤ} (ha : 0 < a) (hn : 0 ≤ n) :
    ∃ t : ℤ, 0 ≤ t ∧ t * a ≤ n + a / 2 ∧ n - a / 2 - 1 < t * a := by
  refine ⟨(n + a / 2) / a, Int.ediv_nonneg (by omega) ha.le, ?_, ?_⟩
  · exact Int.ediv_mul_le _ ha.ne'
  · have hlt := Int.lt_ediv_add_one_mul_self (n + a / 2) ha
    rw [add_mul, one_mul] at hlt
    omega

/-- Two quotients with one divisor are proportional up to the rounding. -/
theorem slope_near {D M k m : ℤ} (hD : 0 ≤ D) (hM : 0 ≤ M) (hMD : M ≤ D) (hm : 0 < m) :
    |D * (k * M / m) - M * (k * D / m)| ≤ D := by
  have ha := Int.ediv_mul_le (k * D) hm.ne'
  have ha' := Int.lt_ediv_add_one_mul_self (k * D) hm
  have hb := Int.ediv_mul_le (k * M) hm.ne'
  have hb' := Int.lt_ediv_add_one_mul_self (k * M) hm
  set a := k * D / m
  set b := k * M / m
  -- both products stand between multiples of `m * (k * D * M)`
  have hupper : m * (D * b - M * a) ≤ m * M := by nlinarith
  have hlower : m * (M * a - D * b) ≤ m * D := by nlinarith
  have hu := le_of_mul_le_mul_left hupper hm
  have hl := le_of_mul_le_mul_left hlower hm
  rw [abs_le]
  constructor <;> linarith

/-- **The smaller coordinate follows the larger one.** -/
theorem minor_follows {D M a b t q : ℤ} (hD : 0 < D) (hM : 0 ≤ M) (hMD : M ≤ D) (ht : 0 ≤ t)
    (hslope : |D * b - M * a| ≤ D) : |t * b - q * M| ≤ t + |t * a - q * D| := by
  have hsplit : D * (t * b - q * M) = t * (D * b - M * a) + M * (t * a - q * D) := by ring
  have hbound : D * |t * b - q * M| ≤ D * (t + |t * a - q * D|) :=
    calc D * |t * b - q * M| = |D * (t * b - q * M)| := by rw [abs_mul, abs_of_pos hD]
      _ = |t * (D * b - M * a) + M * (t * a - q * D)| := by rw [hsplit]
      _ ≤ |t * (D * b - M * a)| + |M * (t * a - q * D)| := abs_add_le _ _
      _ = t * |D * b - M * a| + M * |t * a - q * D| := by
          rw [abs_mul, abs_mul, abs_of_nonneg ht, abs_of_nonneg hM]
      _ ≤ t * D + D * |t * a - q * D| := by
          apply add_le_add
          · exact mul_le_mul_of_nonneg_left hslope ht
          · exact mul_le_mul_of_nonneg_right hMD (abs_nonneg _)
      _ = D * (t + |t * a - q * D|) := by ring
  exact le_of_mul_le_mul_left hbound hD

end MachineProblems.Library
