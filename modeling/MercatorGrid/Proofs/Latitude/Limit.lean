import Mathlib.Analysis.Real.Pi.Bounds
import Mathlib.Analysis.SpecialFunctions.Arsinh
import Mathlib.Analysis.SpecialFunctions.Trigonometric.ArctanDeriv
import Mathlib.Analysis.Calculus.Deriv.MeanValue
import MercatorGrid.Proofs.Latitude

/-! Latitudes over the real numbers, and the one at which the square plane ends.
The constant that bounds latitudes exceeds the true limit by less than 2e-10 degrees, so the
exponential and the arctangent are bounded to twelve digits. The limit is taken through
`arctan (exp (-π))`, whose argument is small enough for a few terms of each series. -/
namespace MercatorGrid
open Real

noncomputable def Elementary.exact : Elementary ℝ where
  pi := π
  degreesPerRadian := 180 / π
  tan := Real.tan
  cos := Real.cos
  log := Real.log
  sinh := Real.sinh
  atan := arctan

namespace Mercator

noncomputable def latitudeAt (northing : ℝ) : ℝ := arctan (sinh northing) * (180 / π)

theorem latitudeAt_strictMono : StrictMono latitudeAt := fun _ _ h =>
  mul_lt_mul_of_pos_right (arctan_strictMono (sinh_strictMono h)) (by positivity)

@[simp] theorem latitudeAt_neg (n : ℝ) : latitudeAt (-n) = -latitudeAt n := by
  simp only [latitudeAt, sinh_neg, arctan_neg, neg_mul]

theorem latitudeAt_pos {n : ℝ} (positive : 0 < n) : 0 < latitudeAt n :=
  mul_pos (arctan_pos.mpr (sinh_pos_iff.mpr positive)) (by positivity)

theorem hasDerivAt_arctan_remainder (t : ℝ) :
    HasDerivAt (fun t => arctan t - (t - t ^ 3 / 3 + t ^ 5 / 5 - t ^ 7 / 7))
      (t ^ 8 / (1 + t ^ 2)) t := by
  have power (n : ℕ) (c : ℝ) := (hasDerivAt_pow n t).div_const c
  have series := (((hasDerivAt_id' t).sub (power 3 3)).add (power 5 5)).sub (power 7 7)
  refine ((hasDerivAt_arctan t).sub series).congr_deriv ?_
  have positive : 1 + t ^ 2 ≠ 0 := by positivity
  push_cast
  field_simp
  ring

theorem arctan_ge {x : ℝ} (nonneg : 0 ≤ x) :
    x - x ^ 3 / 3 + x ^ 5 / 5 - x ^ 7 / 7 ≤ arctan x := by
  have rising := monotone_of_hasDerivAt_nonneg hasDerivAt_arctan_remainder fun t => by positivity
  have remainder : 0 ≤ arctan x - (x - x ^ 3 / 3 + x ^ 5 / 5 - x ^ 7 / 7) := by
    simpa using rising nonneg
  linarith only [remainder]

theorem arctan_sinh {n : ℝ} (positive : 0 < n) :
    arctan (sinh n) = π / 2 - 2 * arctan (exp (-n)) := by
  have least := exp_pos (-n)
  have most : exp (-n) < 1 := exp_lt_one_iff.mpr (by linarith)
  have inverse : 2 * exp (-n) / (1 - exp (-n) ^ 2) = (sinh n)⁻¹ := by
    have gap : 1 - exp (-n) ^ 2 ≠ 0 := by nlinarith only [least, most]
    have whole : exp n = (exp (-n))⁻¹ := by rw [exp_neg, inv_inv]
    rw [sinh_eq, whole]
    field_simp
  rw [two_mul_arctan (by linarith) most, inverse,
    arctan_inv_of_pos (sinh_pos_iff.mpr positive)]
  ring

theorem exp_quarter_pi_le : exp (π / 4) ≤ 2.1932800507382 := by
  have quarter : π / 4 ≤ 0.7853981633975 := by linarith only [pi_lt_d20]
  have series := exp_bound' (x := 0.7853981633975) (by norm_num) (by norm_num)
    (n := 15) (by norm_num)
  refine (exp_le_exp.mpr quarter).trans (series.trans ?_)
  simp only [Finset.sum_range_succ, Finset.sum_range_zero, Nat.factorial]
  norm_num

theorem exp_neg_pi_ge : 0.0432139182637 ≤ exp (-π) := by
  have fourth : exp π = exp (π / 4) ^ 4 := by
    rw [← exp_nat_mul]
    ring_nf
  have above : exp π ≤ 2.1932800507382 ^ 4 := by
    rw [fourth]
    exact pow_le_pow_left₀ (exp_pos _).le exp_quarter_pi_le 4
  rw [exp_neg, le_inv_comm₀ (by norm_num) (exp_pos _)]
  exact above.trans (by norm_num)

theorem latitudeAt_pi_le : latitudeAt π ≤ edge := by
  have polar : (90 - edge : ℝ) / 360 ≤ 0.01374686450000001 := by norm_num [edge]
  have angle : (90 - edge : ℝ) / 360 * π ≤ arctan (exp (-π)) := by
    calc (90 - edge : ℝ) / 360 * π
        ≤ 0.01374686450000001 * 3.14159265358979323847 :=
          mul_le_mul polar pi_lt_d20.le pi_pos.le (by norm_num)
      _ ≤ 0.0432139182637 - 0.0432139182637 ^ 3 / 3 + 0.0432139182637 ^ 5 / 5
            - 0.0432139182637 ^ 7 / 7 := by norm_num
      _ ≤ arctan 0.0432139182637 := arctan_ge (by norm_num)
      _ ≤ arctan (exp (-π)) := arctan_mono exp_neg_pi_ge
  rw [latitudeAt, arctan_sinh pi_pos, mul_div_assoc', div_le_iff₀ pi_pos]
  linarith only [angle]

end Mercator
end MercatorGrid
