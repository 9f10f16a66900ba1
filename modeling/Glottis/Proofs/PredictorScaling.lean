import Mathlib
import Glottis.LinearPrediction
import Glottis.Proofs.Autocorrelation
import Glottis.Proofs.Scaling

/-!
# Predictors of scaled segments

Both prediction methods work on sums of products of samples.  A factor of the segment
comes out squared of each of them, so every reflection coefficient is a quotient from
which it cancels and every test for remaining power has the same outcome.  The
polynomial does not change and the gain is multiplied by the square of the factor.
-/

namespace Glottis.LinearPrediction

noncomputable def Predictor.amplified (predictor : Predictor ℝ) (factor : ℝ) : Predictor ℝ :=
  { predictor with gain := factor * predictor.gain }

theorem Predictor.flat_amplified (order : Nat) (factor : ℝ) :
    (flat order : Predictor ℝ).amplified factor = flat order := by
  rw [amplified, flat, mul_zero]

/-! ## The recursion on the autocorrelation -/

theorem autocorrelation_scaled (segment : Signal ℝ) (factor : ℝ) (lag : Nat) :
    autocorrelation (segment.scaled factor) lag = factor ^ 2 * autocorrelation segment lag := by
  simp only [autocorrelation_eq_lagProduct, lagProduct, Signal.size_scaled,
    Signal.sample_scaled, Finset.mul_sum]
  apply Finset.sum_congr rfl
  intro index _
  ring

theorem tabulate_autocorrelation_scaled (segment : Signal ℝ) (factor : ℝ) (count : Nat) :
    Signal.tabulate count (autocorrelation (segment.scaled factor)) =
      (Signal.tabulate count (autocorrelation segment)).scaled (factor ^ 2) := by
  rw [Signal.scaled_tabulate]
  congr 1
  funext lag
  exact autocorrelation_scaled segment factor lag

theorem mismatch_scaled (correlation polynomial : Signal ℝ) (factor : ℝ) (stage : Nat) :
    mismatch (correlation.scaled factor) polynomial stage =
      factor * mismatch correlation polynomial stage := by
  rw [mismatch, mismatch, ← sumRange_mul_left]
  congr 1
  funext index
  rw [Signal.sample_scaled, mul_assoc]

/-- The recursion takes the same stages with the same reflection coefficients. -/
theorem levinsonStages_scaled (correlation : Signal ℝ) (remaining reached : Nat)
    (polynomial : Signal ℝ) (gain : ℝ) {factor : ℝ} (hfactor : 0 < factor) :
    levinsonStages (correlation.scaled factor) remaining reached polynomial (factor * gain) =
      (levinsonStages correlation remaining reached polynomial gain).amplified factor := by
  induction remaining generalizing reached polynomial gain with
  | zero => rfl
  | succ remaining ih =>
      have hreflection : ∀ residue : ℝ,
          -(factor * residue) / (factor * gain) = -residue / gain := by
        intro residue
        rw [← mul_neg, mul_div_mul_left _ _ hfactor.ne']
      have hleft : ∀ reflection residue : ℝ, factor * gain + reflection * (factor * residue) =
          factor * (gain + reflection * residue) := by
        intro reflection residue
        ring
      simp only [levinsonStages, mismatch_scaled, hreflection, hleft,
        mul_nonpos_iff_of_factor_pos hfactor]
      split
      case isTrue => rfl
      case isFalse => exact ih _ _ _

theorem levinson_scaled (correlation : Signal ℝ) (order : Nat) {factor : ℝ}
    (hfactor : 0 < factor) :
    levinson (correlation.scaled factor) order =
      (levinson correlation order).amplified factor := by
  simp only [levinson, Signal.sample_scaled, mul_nonpos_iff_of_factor_pos hfactor,
    mul_nonneg_iff_of_pos_left hfactor]
  split
  case isTrue => exact (Predictor.flat_amplified order factor).symm
  case isFalse => exact levinsonStages_scaled correlation order 0 _ _ hfactor

theorem ofAutocorrelation_scaled (segment : Signal ℝ) (order : Nat) {factor : ℝ}
    (hfactor : factor ≠ 0) :
    ofAutocorrelation (segment.scaled factor) order =
      (·.amplified (factor ^ 2)) <$> ofAutocorrelation segment order := by
  rw [ofAutocorrelation, ofAutocorrelation, tabulate_autocorrelation_scaled,
    levinson_scaled _ _ (sq_pos_of_ne_zero hfactor), map_bind]
  rfl

/-! ## The lattice on the samples -/

namespace Lattice

noncomputable def scaled (lattice : Lattice ℝ) (factor : ℝ) : Lattice ℝ :=
  { lattice with
    forward := lattice.forward.scaled factor
    backward := lattice.backward.scaled factor
    power := factor ^ 2 * lattice.power }

theorem start_scaled (segment : Signal ℝ) (power factor : ℝ) :
    start (segment.scaled factor) (factor ^ 2 * power) =
      (start segment power).scaled factor := by
  simp only [start, scaled, Signal.size_scaled, Signal.tabulate_sample_scaled,
    Signal.sample_scaled, Signal.scaled_tabulate]

theorem correlations_eq_sum (lattice : Lattice ℝ) :
    lattice.correlations =
      (∑ index ∈ Finset.range lattice.forward.size,
          lattice.forward.sample index * lattice.backward.sample index,
        ∑ index ∈ Finset.range lattice.forward.size,
          (lattice.forward.sample index * lattice.forward.sample index +
            lattice.backward.sample index * lattice.backward.sample index)) := by
  rw [correlations]
  induction lattice.forward.size with
  | zero => rfl
  | succ count ih => rw [Nat.fold_succ, ih, Finset.sum_range_succ, Finset.sum_range_succ]

theorem correlations_scaled (lattice : Lattice ℝ) (factor : ℝ) :
    (lattice.scaled factor).correlations =
      (factor ^ 2 * lattice.correlations.1, factor ^ 2 * lattice.correlations.2) := by
  rw [correlations_eq_sum, correlations_eq_sum, scaled, Signal.size_scaled]
  simp only [Signal.sample_scaled, Finset.mul_sum]
  congr 1
  · apply Finset.sum_congr rfl
    intro index _
    ring
  · apply Finset.sum_congr rfl
    intro index _
    ring

theorem advance_scaled (lattice : Lattice ℝ) (reflection factor : ℝ) :
    (lattice.scaled factor).advance reflection = (lattice.advance reflection).scaled factor := by
  have herror : ∀ ahead behind : ℝ,
      factor * ahead - reflection * (factor * behind) = factor * (ahead - reflection * behind) := by
    intro ahead behind
    ring
  simp only [advance, scaled, Signal.size_scaled, Signal.sample_scaled, Signal.scaled_tabulate,
    herror, mul_assoc]

/-- The lattice takes the same stages with the same reflection coefficients. -/
theorem run_scaled (remaining : Nat) (lattice : Lattice ℝ) {factor : ℝ} (hfactor : factor ≠ 0) :
    run remaining (lattice.scaled factor) = (run remaining lattice).scaled factor := by
  have hsquare : 0 < factor ^ 2 := sq_pos_of_ne_zero hfactor
  induction remaining generalizing lattice with
  | zero => rfl
  | succ remaining ih =>
      have hreflection : ∀ product squares : ℝ,
          2.0 * (factor ^ 2 * product) / (factor ^ 2 * squares) = 2.0 * product / squares := by
        intro product squares
        rw [mul_left_comm, mul_div_mul_left _ _ hsquare.ne']
      simp only [run, correlations_scaled, hreflection, mul_nonpos_iff_of_factor_pos hsquare]
      split
      case isTrue => rw [scaled, scaled, mul_zero]
      case isFalse => rw [advance_scaled, ih]

end Lattice

theorem burg_scaled (segment : Signal ℝ) (order : Nat) {factor : ℝ} (hfactor : factor ≠ 0) :
    burg (segment.scaled factor) order = (burg segment order).amplified (factor ^ 2) := by
  have hsquare : 0 < factor ^ 2 := sq_pos_of_ne_zero hfactor
  simp only [burg, Signal.size_scaled, Signal.energy_scaled, mul_div_assoc,
    mul_nonpos_iff_of_factor_pos hsquare]
  split
  case isTrue => exact (Predictor.flat_amplified order _).symm
  case isFalse =>
    rw [Lattice.start_scaled, Lattice.run_scaled _ _ hfactor]
    simp only [Predictor.amplified, Lattice.scaled, Lattice.polynomial, mul_assoc]

theorem ofBurg_scaled (segment : Signal ℝ) (order : Nat) {factor : ℝ} (hfactor : factor ≠ 0) :
    ofBurg (segment.scaled factor) order =
      (·.amplified (factor ^ 2)) <$> ofBurg segment order := by
  rw [ofBurg, ofBurg, burg_scaled segment order hfactor, map_bind]
  rfl

/-- Scaling a segment scales the gain of its predictor and nothing else. -/
theorem analyze_scaled (segment : Signal ℝ) (order : Nat) (method : Method) {factor : ℝ}
    (hfactor : factor ≠ 0) :
    analyze (segment.scaled factor) order method =
      (·.amplified (factor ^ 2)) <$> analyze segment order method := by
  cases method with
  | autocorrelation =>
      rw [analyze, analyze, ofAutocorrelation_scaled segment order hfactor, map_bind]
  | burg => rw [analyze, analyze, ofBurg_scaled segment order hfactor, map_bind]

end Glottis.LinearPrediction
