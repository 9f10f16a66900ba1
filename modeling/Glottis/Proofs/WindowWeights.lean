import Mathlib
import Glottis.Proofs.ExactArithmetic
import Glottis.Window

/-!
# Window weights

No weight of a named window is negative, so a taper may silence a sample but never
turns its sign.  The cosine sums are polynomials in one cosine that are smallest at
the edge of the window, the edges of the Gaussian are pulled down by less than its
smallest value, and the Kaiser window is a quotient of Bessel values at arguments for
which the polynomial approximation has positive terms only.
-/

namespace Glottis.Window

/-! ## Cosine sums -/

theorem weight_two_cosines (level depth : ℝ) (length index : Nat) :
    (cosineSum [level, depth]).weight length index =
      level - depth * Real.cos (2 * Real.pi * index / (length - 1 : Nat)) := by
  simp only [weight, cosineTerms, Scalar.cos, Scalar.pi]
  norm_num
  ring

/-- A multiple of the cosine that is at most the level never exceeds it. -/
theorem weight_two_cosines_nonneg {level depth : ℝ} (hdepth : 0 ≤ depth) (hlevel : depth ≤ level)
    (length index : Nat) : 0 ≤ (cosineSum [level, depth]).weight length index := by
  rw [weight_two_cosines, sub_nonneg]
  calc
    depth * Real.cos (2 * Real.pi * index / (length - 1 : Nat))
        ≤ depth * 1 := mul_le_mul_of_nonneg_left (Real.cos_le_one _) hdepth
    _ ≤ level := by rwa [mul_one]

/-- The four terms of the Blackman-Harris window as a polynomial in the cosine. -/
noncomputable def blackmanHarrisAt (cosine : ℝ) : ℝ :=
  0.21747 - 0.45325 * cosine + 0.28256 * cosine ^ 2 - 0.04672 * cosine ^ 3

theorem weight_blackmanHarris_eq (length index : Nat) :
    (WindowKind.blackmanHarris.shape : Window ℝ).weight length index =
      blackmanHarrisAt (Real.cos (2 * Real.pi * index / (length - 1 : Nat))) := by
  simp only [WindowKind.shape, weight, cosineTerms, Scalar.cos, Scalar.pi]
  norm_num [Real.cos_two_mul, Real.cos_three_mul]
  rw [blackmanHarrisAt]
  ring

/-- The polynomial falls from minus one to one, where 0.00006 is left. -/
theorem blackmanHarrisAt_pos {cosine : ℝ} (hlow : -1 ≤ cosine) (hhigh : cosine ≤ 1) :
    0 < blackmanHarrisAt cosine := by
  have hedge : 0 ≤ cosine + 1 := neg_le_iff_add_nonneg.mp hlow
  rw [blackmanHarrisAt]
  nlinarith [mul_nonneg (sub_nonneg.mpr hhigh) (sub_nonneg.mpr hhigh),
    mul_nonneg (mul_nonneg (sub_nonneg.mpr hhigh) (sub_nonneg.mpr hhigh)) hedge]

theorem weight_blackmanHarris_pos (length index : Nat) :
    0 < (WindowKind.blackmanHarris.shape : Window ℝ).weight length index := by
  rw [weight_blackmanHarris_eq]
  exact blackmanHarrisAt_pos (Real.neg_one_le_cos _) (Real.cos_le_one _)

/-- Terms that depend on the phase through cosines of its multiples only. -/
theorem cosineTerms_congr {phase phase' : ℝ}
    (hphase : ∀ order : Nat, Real.cos (order * phase) = Real.cos (order * phase'))
    (coefficients : List ℝ) (order : Nat) (total : ℝ) :
    cosineTerms phase coefficients order total = cosineTerms phase' coefficients order total := by
  induction coefficients generalizing order total with
  | nil => rfl
  | cons coefficient coefficients ih =>
      have hcos : Scalar.cos ((order : ℝ) * phase) = Scalar.cos ((order : ℝ) * phase') :=
        hphase order
      rw [cosineTerms, cosineTerms, hcos]
      exact ih _ _

/-- A cosine sum is the same from both ends. -/
theorem weight_cosineSum_symm (coefficients : List ℝ) {length index : Nat}
    (hlength : 2 ≤ length) (hindex : index < length) :
    (cosineSum coefficients).weight length (length - 1 - index) =
      (cosineSum coefficients).weight length index := by
  have hpi : (Scalar.pi : ℝ) = Real.pi := rfl
  have htwo : (2.0 : ℝ) = 2 := by norm_num
  have hspan : (((length - 1 : Nat) : ℝ)) ≠ 0 := by
    rw [Nat.cast_ne_zero]
    omega
  have hplace : ((length - 1 - index : Nat) : ℝ) = ((length - 1 : Nat) : ℝ) - index :=
    Nat.cast_sub (Nat.le_sub_one_of_lt hindex)
  rw [weight, weight]
  apply cosineTerms_congr
  intro order
  rw [hpi, htwo, hplace, mul_sub, sub_div, mul_div_cancel_right₀ _ hspan, mul_sub,
    Real.cos_nat_mul_two_pi_sub]

/-! ## The Gaussian -/

theorem weight_gaussian_nonneg {length index : Nat} (hindex : index < length) :
    0 ≤ (gaussian : Window ℝ).weight length index := by
  have hlength : (index : ℝ) + 1 ≤ length := by exact_mod_cast hindex
  have hstart : (0 : ℝ) ≤ index := Nat.cast_nonneg index
  have hwidth : (0 : ℝ) < ((length + 1 : Nat) : ℝ) := by positivity
  have hedge : Real.exp (-12.0) < 1 := Real.exp_lt_one_iff.mpr (by norm_num)
  have hexponent : (-12.0 : ℝ) ≤ -48.0 * ((index : ℝ) - ((length : ℝ) - 1) / 2.0) *
      ((index : ℝ) - ((length : ℝ) - 1) / 2.0) /
        (((length + 1 : Nat) : ℝ) * ((length + 1 : Nat) : ℝ)) := by
    rw [le_div_iff₀ (mul_pos hwidth hwidth)]
    push_cast
    nlinarith
  simp only [weight, Scalar.exp]
  exact div_nonneg (sub_nonneg.mpr (Real.exp_le_exp.mpr hexponent)) (sub_nonneg.mpr hedge.le)

/-! ## The Kaiser window -/

theorem bessel_pos {value : ℝ} (hvalue : |value| < 3.75) : 0 < bessel value := by
  rw [bessel, Scalar.magnitude_real]
  dsimp only
  rw [if_pos hvalue]
  positivity

theorem weight_kaiser_nonneg (length index : Nat) :
    0 ≤ (WindowKind.kaiser.shape : Window ℝ).weight length index := by
  have hargument : ∀ radius : ℝ, 0 ≤ radius → radius ≤ 1 → 0 < bessel (0.5 * radius) := by
    intro radius hpositive hradius
    apply bessel_pos
    rw [abs_of_nonneg (by positivity)]
    linarith
  have hcentre : (0 : ℝ) < bessel 0.5 := bessel_pos (by norm_num)
  simp only [WindowKind.shape, weight, Scalar.sqrt]
  refine div_nonneg (hargument _ (Real.sqrt_nonneg _) (Real.sqrt_le_one.mpr ?_)).le hcentre.le
  split
  case isTrue => linarith [mul_self_nonneg (((index : ℝ) - ((length : ℝ) - 1) / 2.0) /
    (((length : ℝ) - 1) / 2.0))]
  case isFalse => exact zero_le_one

end Glottis.Window

namespace Glottis.WindowKind

/-- No weight of a named window is negative. -/
theorem weight_nonneg (kind : WindowKind) {length index : Nat} (hindex : index < length) :
    0 ≤ (kind.shape : Window ℝ).weight length index := by
  cases kind with
  | hamming => exact Window.weight_two_cosines_nonneg (by norm_num) (by norm_num) length index
  | hanning => exact Window.weight_two_cosines_nonneg (by norm_num) (by norm_num) length index
  | blackmanHarris => exact (Window.weight_blackmanHarris_pos length index).le
  | gaussian => exact Window.weight_gaussian_nonneg hindex
  | kaiser => exact Window.weight_kaiser_nonneg length index

end Glottis.WindowKind
