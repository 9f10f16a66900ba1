import Mathlib
import Glottis.Proofs.RecursiveFilters
import Glottis.Proofs.Scaling

/-!
# The leading coefficient of the denominator

The recursive filter normalizes its feedback by the leading coefficient of the denominator and
takes the moving sum of the signal as it is.  Its output is therefore the solution of the
difference equation multiplied by the leading coefficient.  A common factor of numerator and
denominator is one of both sides of the equation, so the solution stays the same and the factor
comes out of the filter.
-/

namespace Glottis

namespace Filter

variable {numerator denominator signal : Signal ℝ}

/-! ## The difference equation -/

/-- A signal solves the difference equation of a filter: at each index the output, multiplied by
the leading coefficient, is the moving sum of the signal less that of the earlier outputs. -/
structure SolvesDifference (numerator denominator signal output : Signal ℝ) : Prop where
  size_eq : output.size = signal.size
  equation : ∀ index < signal.size,
    denominator.sample 0 * output.sample index =
      (∑ delay ∈ Finset.range (index + 1),
        numerator.sample delay * signal.sample (index - delay)) -
      ∑ delay ∈ Finset.range index,
        denominator.sample (delay + 1) * output.sample (index - (delay + 1))

namespace SolvesDifference

variable {output : Signal ℝ}

/-- The earlier outputs determine the next one. -/
theorem unique {other : Signal ℝ} (hleading : denominator.sample 0 ≠ 0)
    (houtput : SolvesDifference numerator denominator signal output)
    (hother : SolvesDifference numerator denominator signal other) : output = other := by
  apply Signal.ext_sample (houtput.size_eq.trans hother.size_eq.symm)
  intro index hindex
  rw [houtput.size_eq] at hindex
  induction index using Nat.strong_induction_on with
  | _ index ih =>
    apply mul_left_cancel₀ hleading
    rw [houtput.equation index hindex, hother.equation index hindex]
    congr 1
    apply Finset.sum_congr rfl
    intro delay hdelay
    have hearlier : index - (delay + 1) < index :=
      Nat.sub_lt (Nat.zero_lt_of_lt (Finset.mem_range.mp hdelay)) (Nat.succ_pos delay)
    rw [ih _ hearlier (hearlier.trans hindex)]

/-- A factor of the numerator is one of the output. -/
theorem scaled (houtput : SolvesDifference numerator denominator signal output) (factor : ℝ) :
    SolvesDifference (numerator.scaled factor) denominator signal (output.scaled factor) where
  size_eq := by rw [Signal.size_scaled, houtput.size_eq]
  equation := by
    intro index hindex
    simp only [Signal.sample_scaled, mul_left_comm _ factor, mul_assoc factor]
    rw [houtput.equation index hindex, ← Finset.mul_sum, ← Finset.mul_sum, mul_sub]

/-- A common factor of numerator and denominator multiplies both sides of the equation. -/
theorem common_factor (houtput : SolvesDifference numerator denominator signal output)
    (factor : ℝ) :
    SolvesDifference (numerator.scaled factor) (denominator.scaled factor) signal output where
  size_eq := houtput.size_eq
  equation := by
    intro index hindex
    simp only [Signal.sample_scaled, mul_assoc factor]
    rw [houtput.equation index hindex, ← Finset.mul_sum, ← Finset.mul_sum, mul_sub]

theorem common_factor_iff {factor : ℝ} (hfactor : factor ≠ 0) :
    SolvesDifference (numerator.scaled factor) (denominator.scaled factor) signal output ↔
      SolvesDifference numerator denominator signal output := by
  constructor
  · intro hscaled
    have hdivided := hscaled.common_factor factor⁻¹
    rwa [Signal.scaled_scaled, Signal.scaled_scaled, inv_mul_cancel₀ hfactor, Signal.scaled_one,
      Signal.scaled_one] at hdivided
  · intro hsolves
    exact hsolves.common_factor factor

end SolvesDifference

/-! ## The output of the filter -/

theorem leading_of_ne_zero (hleading : denominator.sample 0 ≠ 0) :
    leading denominator = denominator.sample 0 := by
  have hsize : denominator.size ≠ 0 := by
    intro hempty
    exact hleading (Signal.sample_of_size_le _ hempty.le)
  rw [leading, if_neg hsize]

/-- The output solves the equation with the leading coefficient on the moving sum, too. -/
theorem solvesDifference_iir (numerator signal : Signal ℝ) (hleading : denominator.sample 0 ≠ 0) :
    SolvesDifference (numerator.scaled (denominator.sample 0)) denominator signal
      (iir numerator denominator signal) where
  size_eq := size_iir _ _ _
  equation := by
    intro index hindex
    simp only [Signal.sample_scaled, mul_assoc (denominator.sample 0)]
    rw [sample_iir _ _ hindex, feedForward_eq_sum, leading_of_ne_zero hleading, mul_sub,
      Finset.mul_sum, Finset.mul_sum]
    simp only [mul_div_cancel₀ _ hleading]

/-- The solution is the output divided by the leading coefficient. -/
theorem solvesDifference_iff (hleading : denominator.sample 0 ≠ 0) (output : Signal ℝ) :
    SolvesDifference numerator denominator signal output ↔
      output = (iir numerator denominator signal).scaled (denominator.sample 0)⁻¹ := by
  have hsolution := (solvesDifference_iir numerator signal hleading).scaled
    (denominator.sample 0)⁻¹
  rw [Signal.scaled_scaled, inv_mul_cancel₀ hleading, Signal.scaled_one] at hsolution
  constructor
  · intro houtput
    exact houtput.unique hleading hsolution
  · intro houtput
    rw [houtput]
    exact hsolution

/-- A common factor of numerator and denominator comes out of the filter. -/
theorem iir_common_factor (numerator signal : Signal ℝ) (hleading : denominator.sample 0 ≠ 0)
    {factor : ℝ} (hfactor : factor ≠ 0) :
    iir (numerator.scaled factor) (denominator.scaled factor) signal =
      (iir numerator denominator signal).scaled factor := by
  have hscaledLeading : (denominator.scaled factor).sample 0 ≠ 0 := by
    rw [Signal.sample_scaled]
    exact mul_ne_zero hfactor hleading
  have hleft := solvesDifference_iir (numerator.scaled factor) signal hscaledLeading
  rw [Signal.sample_scaled, Signal.scaled_scaled, mul_comm _ factor, ← Signal.scaled_scaled,
    SolvesDifference.common_factor_iff hfactor] at hleft
  have hright := (solvesDifference_iir numerator signal hleading).scaled factor
  rw [Signal.scaled_scaled] at hright
  exact hleft.unique hleading hright

/-- The recursive filter divides its feedback alone by the leading coefficient of the denominator.
The solution of the difference equation is the output divided by the leading coefficient, so the
output solves it only with the leading coefficient one or if it is silent.  A common factor of
numerator and denominator comes out of the filter; only the factor one leaves an output that is
not silent as it is. -/
theorem iir_normalizes_feedback (numerator denominator signal : Signal ℝ)
    (hleading : denominator.sample 0 ≠ 0) :
    SolvesDifference (numerator.scaled (denominator.sample 0)) denominator signal
        (iir numerator denominator signal) ∧
      (∀ output, SolvesDifference numerator denominator signal output ↔
        output = (iir numerator denominator signal).scaled (denominator.sample 0)⁻¹) ∧
      (SolvesDifference numerator denominator signal (iir numerator denominator signal) ↔
        denominator.sample 0 = 1 ∨
          iir numerator denominator signal = .silence signal.size) ∧
      ∀ factor, factor ≠ 0 →
        iir (numerator.scaled factor) (denominator.scaled factor) signal =
            (iir numerator denominator signal).scaled factor ∧
          (iir (numerator.scaled factor) (denominator.scaled factor) signal =
              iir numerator denominator signal ↔
            factor = 1 ∨ iir numerator denominator signal = .silence signal.size) := by
  refine ⟨solvesDifference_iir numerator signal hleading, solvesDifference_iff hleading, ?_,
    fun factor hfactor => ⟨iir_common_factor numerator signal hleading hfactor, ?_⟩⟩
  · rw [solvesDifference_iff hleading, eq_comm, Signal.scaled_eq_self_iff, inv_eq_one, size_iir]
  · rw [iir_common_factor numerator signal hleading hfactor, Signal.scaled_eq_self_iff, size_iir]

theorem iir_normalizes_feedback_of_leading_two :
    SolvesDifference (Signal.scaled #[1] 2) #[2, -1] #[2, 0, 0] (iir #[1] #[2, -1] #[2, 0, 0]) ∧
      iir (Signal.scaled #[1] (1 / 2)) (Signal.scaled #[2, -1] (1 / 2)) #[2, 0, 0] =
        (iir #[1] #[2, -1] #[2, 0, 0] : Signal ℝ).scaled (1 / 2) := by
  obtain ⟨hsolves, _, _, hfactor⟩ := iir_normalizes_feedback #[1] #[2, -1] #[2, 0, 0] two_ne_zero
  exact ⟨hsolves, (hfactor (1 / 2) (by norm_num)).1⟩

/-- The first output for the leading coefficient two is the first sample, which the difference
equation halves. -/
theorem not_forall_iir_normalized :
    (¬ ∀ (numerator denominator signal : Signal ℝ) (factor : ℝ), denominator.sample 0 ≠ 0 →
      factor ≠ 0 → iir (numerator.scaled factor) (denominator.scaled factor) signal =
        iir numerator denominator signal) ∧
      ¬ ∀ numerator denominator signal : Signal ℝ, denominator.sample 0 ≠ 0 →
        SolvesDifference numerator denominator signal (iir numerator denominator signal) := by
  have hleading : Signal.sample (#[2, -1] : Signal ℝ) 0 = 2 := rfl
  have hfirst : (iir #[1] #[2, -1] #[2, 0, 0] : Signal ℝ).sample 0 = 2 := by
    rw [sample_iir _ _ (Nat.succ_pos 2), feedForward_eq_sum]
    simp [Signal.sample]
  have hsounds : iir #[1] #[2, -1] #[2, 0, 0] ≠ (.silence 3 : Signal ℝ) := by
    intro hsilent
    rw [hsilent, Signal.silence, Signal.sample_tabulate, ite_self] at hfirst
    exact two_ne_zero hfirst.symm
  constructor
  · intro hall
    have hsame := hall #[1] #[2, -1] #[2, 0, 0] (1 / 2) two_ne_zero (by norm_num)
    rw [iir_common_factor _ _ two_ne_zero (by norm_num), Signal.scaled_eq_self_iff,
      size_iir] at hsame
    exact hsame.elim (by norm_num) hsounds
  · intro hall
    have hsolves := hall #[1] #[2, -1] #[2, 0, 0] two_ne_zero
    rw [solvesDifference_iff two_ne_zero, eq_comm, Signal.scaled_eq_self_iff, inv_eq_one, hleading,
      size_iir] at hsolves
    exact hsolves.elim (by norm_num) hsounds

end Filter

end Glottis
