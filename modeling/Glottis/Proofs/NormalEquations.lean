import Mathlib
import Glottis.Proofs.Autocorrelation
import Glottis.Proofs.Checks

/-!
# The recursion of Levinson and Durbin

A polynomial of an order is the best predictor of that order if it leaves no
correlation at the lags from one to the order.  One stage of the recursion adds a
multiple of the reversed polynomial: the correlations of the reversed polynomial are
those of the polynomial in reverse, so the multiple is chosen to cancel the only one
that is new.  The gain that is left is the quadratic form of the autocorrelation at
the polynomial.  It is positive unless the segment is silent, so no stage divides by
zero and none of them ends the recursion early.
-/

namespace Glottis.LinearPrediction

/-- The correlation that a polynomial of an order leaves at a lag. -/
def leftover (correlation coefficient : Nat → ℝ) (order lag : Nat) : ℝ :=
  ∑ index ∈ Finset.range (order + 1), coefficient index * correlation (Nat.dist lag index)

/-- A polynomial that starts with one, ends with its order, leaves no correlation at
the lags from one to its order, and leaves the gain at lag zero. -/
structure SolvesNormalEquations (correlation coefficient : Nat → ℝ) (order : Nat)
    (gain : ℝ) : Prop where
  leading : coefficient 0 = 1
  beyond : ∀ index, order < index → coefficient index = 0
  leftover_eq_zero : ∀ lag, 1 ≤ lag → lag ≤ order → leftover correlation coefficient order lag = 0
  leftover_zero : leftover correlation coefficient order 0 = gain

/-! ## One stage -/

/-- A polynomial of an order with a multiple of its reversed self added at the next
order. -/
def reflected (coefficient : Nat → ℝ) (order : Nat) (reflection : ℝ) (index : Nat) : ℝ :=
  if index ≤ order + 1 then coefficient index + reflection * coefficient (order + 1 - index)
  else 0

/-- A sum over a reflected polynomial is the sum over the polynomial and a multiple of the
sum over its reverse. -/
theorem sum_reflected_mul (coefficient : Nat → ℝ) (order : Nat) (reflection : ℝ)
    (term : Nat → ℝ) :
    ∑ index ∈ Finset.range (order + 1 + 1),
        reflected coefficient order reflection index * term index =
      ∑ index ∈ Finset.range (order + 1 + 1), coefficient index * term index +
        reflection * ∑ index ∈ Finset.range (order + 1 + 1),
          coefficient index * term (order + 1 - index) := by
  have hreversed : ∑ index ∈ Finset.range (order + 1 + 1),
      coefficient index * term (order + 1 - index) =
        ∑ index ∈ Finset.range (order + 1 + 1), coefficient (order + 1 - index) * term index := by
    rw [← Finset.sum_range_reflect]
    apply Finset.sum_congr rfl
    intro index hindex
    rw [Finset.mem_range] at hindex
    rw [Nat.add_sub_cancel, Nat.sub_sub_self (by omega)]
  rw [hreversed, Finset.mul_sum, ← Finset.sum_add_distrib]
  apply Finset.sum_congr rfl
  intro index hindex
  rw [Finset.mem_range] at hindex
  rw [reflected, if_pos (by omega)]
  ring

/-- The correlations of a reversed polynomial are those of the polynomial in reverse. -/
theorem leftover_reflected (correlation coefficient : Nat → ℝ) (order : Nat)
    (reflection : ℝ) {lag : Nat} (hlag : lag ≤ order + 1) :
    leftover correlation (reflected coefficient order reflection) (order + 1) lag =
      leftover correlation coefficient (order + 1) lag +
        reflection * leftover correlation coefficient (order + 1) (order + 1 - lag) := by
  have hmirrored : ∀ index ∈ Finset.range (order + 1 + 1),
      coefficient index * correlation (Nat.dist lag (order + 1 - index)) =
        coefficient index * correlation (Nat.dist (order + 1 - lag) index) := by
    intro index hindex
    rw [Finset.mem_range] at hindex
    congr 2
    simp only [Nat.dist]
    omega
  rw [leftover, sum_reflected_mul, Finset.sum_congr rfl hmirrored, leftover, leftover]

/-- A polynomial leaves the same correlations when it is read at the next order. -/
theorem SolvesNormalEquations.leftover_succ {correlation coefficient : Nat → ℝ} {order : Nat}
    {gain : ℝ} (hsolves : SolvesNormalEquations correlation coefficient order gain)
    (lag : Nat) :
    leftover correlation coefficient (order + 1) lag =
      leftover correlation coefficient order lag := by
  rw [leftover, Finset.sum_range_succ, hsolves.beyond (order + 1) (Nat.lt_succ_self order),
    zero_mul, add_zero, leftover]

/-- Reflection by the correlation left at the new lag, relative to the gain, solves
the normal equations of the next order. -/
theorem SolvesNormalEquations.reflected {correlation coefficient : Nat → ℝ} {order : Nat}
    {gain : ℝ} (hsolves : SolvesNormalEquations correlation coefficient order gain)
    (hgain : gain ≠ 0) {residue : ℝ}
    (hresidue : leftover correlation coefficient order (order + 1) = residue) :
    SolvesNormalEquations correlation (reflected coefficient order (-residue / gain))
      (order + 1) (gain + -residue / gain * residue) where
  leading := by
    rw [LinearPrediction.reflected, if_pos (Nat.zero_le _), Nat.sub_zero, hsolves.leading,
      hsolves.beyond (order + 1) (Nat.lt_succ_self order), mul_zero, add_zero]
  beyond := by
    intro index hindex
    rw [LinearPrediction.reflected, if_neg (by omega)]
  leftover_eq_zero := by
    intro lag hpositive hlag
    rw [leftover_reflected _ _ _ _ hlag, hsolves.leftover_succ, hsolves.leftover_succ]
    cases Nat.lt_or_ge lag (order + 1) with
    | inl hinner =>
        rw [hsolves.leftover_eq_zero lag hpositive (by omega),
          hsolves.leftover_eq_zero (order + 1 - lag) (by omega) (by omega), mul_zero, add_zero]
    | inr hnew =>
        have heq : lag = order + 1 := by omega
        rw [heq, Nat.sub_self, hsolves.leftover_zero, hresidue, div_mul_cancel₀ _ hgain,
          add_neg_cancel]
  leftover_zero := by
    rw [leftover_reflected _ _ _ _ (Nat.zero_le _), hsolves.leftover_succ, hsolves.leftover_succ,
      hsolves.leftover_zero, Nat.sub_zero, hresidue]

/-- The gain of a solution is the quadratic form of the correlation at it. -/
theorem SolvesNormalEquations.gain_eq {correlation coefficient : Nat → ℝ} {order : Nat}
    {gain : ℝ} (hsolves : SolvesNormalEquations correlation coefficient order gain) :
    gain = ∑ index ∈ Finset.range (order + 1),
      coefficient index * leftover correlation coefficient order index := by
  rw [Finset.sum_eq_single_of_mem 0 (by simp), hsolves.leading, hsolves.leftover_zero, one_mul]
  intro index hindex hne
  rw [Finset.mem_range] at hindex
  rw [hsolves.leftover_eq_zero index (by omega) (by omega), mul_zero]

/-- A solution for a segment that is not silent has a positive gain. -/
theorem SolvesNormalEquations.gain_pos {segment : Signal ℝ} {coefficient : Nat → ℝ}
    {order : Nat} {gain : ℝ}
    (hsolves : SolvesNormalEquations (lagProduct segment) coefficient order gain)
    (hsegment : ∃ index, segment.sample index ≠ 0) : 0 < gain := by
  rw [hsolves.gain_eq]
  exact quadraticForm_pos ⟨0, Nat.zero_le order, by simp [hsolves.leading]⟩ hsegment

/-! ## The whole recursion -/

/-- The recursion, continued from a state, divides by a value: by the gain of a stage
that is still to come, where every earlier stage has left a positive gain. -/
inductive DividesBy (correlation : Signal ℝ) :
    (remaining reached : Nat) → (polynomial : Signal ℝ) → (gain divisor : ℝ) → Prop where
  | now (remaining reached : Nat) (polynomial : Signal ℝ) (gain : ℝ) :
      DividesBy correlation (remaining + 1) reached polynomial gain gain
  | later {remaining reached : Nat} {polynomial : Signal ℝ} {gain divisor reflection left : ℝ}
      (hreflection : reflection = -mismatch correlation polynomial (reached + 1) / gain)
      (hleft : left = gain + reflection * mismatch correlation polynomial (reached + 1))
      (hpositive : 0 < left)
      (hdivides : DividesBy correlation remaining (reached + 1)
        (reflect polynomial (reached + 1) reflection reflection) left divisor) :
      DividesBy correlation (remaining + 1) reached polynomial gain divisor

/-- A stage of the recursion reads the correlation that is left at the new lag. -/
theorem mismatch_eq_leftover {correlation polynomial : Signal ℝ} {lags : Nat → ℝ}
    {reached : Nat}
    (hcorrelation : ∀ lag ≤ reached + 1, correlation.sample lag = lags lag) :
    mismatch correlation polynomial (reached + 1) =
      leftover lags polynomial.sample reached (reached + 1) := by
  rw [mismatch, sumRange_eq_sum, leftover]
  apply Finset.sum_congr rfl
  intro index hindex
  rw [Finset.mem_range] at hindex
  rw [hcorrelation _ (Nat.sub_le _ _), Nat.dist_eq_sub_of_le_right hindex.le, mul_comm]

/-- A stage of the recursion reflects the polynomial. -/
theorem sample_reflect {polynomial : Signal ℝ} {reached : Nat} (reflection : ℝ)
    (hsize : reached + 1 < polynomial.size) (hleading : polynomial.sample 0 = 1)
    (hbeyond : ∀ index, reached < index → polynomial.sample index = 0) :
    (reflect polynomial (reached + 1) reflection reflection).sample =
      reflected polynomial.sample reached reflection := by
  funext index
  rw [reflect, Signal.sample_tabulate, reflected]
  by_cases hinner : 0 < index ∧ index < reached + 1
  · rw [if_pos (by omega), if_pos hinner, if_pos (by omega)]
  by_cases hnewest : index = reached + 1
  · rw [if_pos (by omega), if_neg hinner, if_pos hnewest, if_pos hnewest.le, hnewest,
      Nat.sub_self, hleading, hbeyond _ (Nat.lt_succ_self reached), mul_one, zero_add]
  by_cases hfirst : index = 0
  · rw [if_pos (by omega), if_neg hinner, if_neg hnewest, if_pos (by omega), hfirst, Nat.sub_zero,
      hbeyond _ (Nat.lt_succ_self reached), mul_zero, add_zero]
  · rw [if_neg (by omega : ¬index ≤ reached + 1), if_neg hinner, if_neg hnewest,
      hbeyond index (by omega), ite_self]

variable {segment correlation polynomial : Signal ℝ} {remaining reached : Nat} {gain : ℝ}

/-- A stage turns a solution into a solution of the next order. -/
theorem SolvesNormalEquations.next {lags : Nat → ℝ}
    (hcorrelation : ∀ lag ≤ reached + 1, correlation.sample lag = lags lag)
    (hsize : reached + 1 < polynomial.size)
    (hsolves : SolvesNormalEquations lags polynomial.sample reached gain) (hgain : gain ≠ 0)
    {residue reflection : ℝ} (hresidue : mismatch correlation polynomial (reached + 1) = residue)
    (hreflection : -residue / gain = reflection) :
    SolvesNormalEquations lags
      (reflect polynomial (reached + 1) reflection reflection).sample
      (reached + 1) (gain + reflection * residue) := by
  have hnext := hsolves.reflected hgain ((mismatch_eq_leftover hcorrelation).symm.trans hresidue)
  rwa [hreflection, ← sample_reflect reflection hsize hsolves.leading hsolves.beyond] at hnext

/-- For a segment that is not silent the gain stays positive. -/
theorem SolvesNormalEquations.stage
    (hsegment : ∃ index, segment.sample index ≠ 0)
    (hcorrelation : ∀ lag ≤ reached + 1, correlation.sample lag = lagProduct segment lag)
    (hsize : reached + 1 < polynomial.size)
    (hsolves : SolvesNormalEquations (lagProduct segment) polynomial.sample reached gain)
    {residue reflection : ℝ} (hresidue : mismatch correlation polynomial (reached + 1) = residue)
    (hreflection : -residue / gain = reflection) :
    SolvesNormalEquations (lagProduct segment)
        (reflect polynomial (reached + 1) reflection reflection).sample (reached + 1)
        (gain + reflection * residue) ∧
      0 < gain + reflection * residue := by
  have hnext := hsolves.next hcorrelation hsize (hsolves.gain_pos hsegment).ne' hresidue
    hreflection
  exact ⟨hnext, hnext.gain_pos hsegment⟩

/-- From a solution the recursion runs through all its stages. -/
theorem levinsonStages_solves
    (hsegment : ∃ index, segment.sample index ≠ 0)
    (hcorrelation : ∀ lag ≤ reached + remaining,
      correlation.sample lag = lagProduct segment lag)
    (hsize : reached + remaining < polynomial.size)
    (hsolves : SolvesNormalEquations (lagProduct segment) polynomial.sample reached gain) :
    (levinsonStages correlation remaining reached polynomial gain).orderReached =
        reached + remaining ∧
      SolvesNormalEquations (lagProduct segment)
        (levinsonStages correlation remaining reached polynomial gain).polynomial.sample
        (reached + remaining)
        (levinsonStages correlation remaining reached polynomial gain).gain := by
  induction remaining generalizing reached polynomial gain with
  | zero => exact ⟨rfl, hsolves⟩
  | succ remaining ih =>
      obtain ⟨hnext, hpositive⟩ := hsolves.stage hsegment
        (fun lag hlag => hcorrelation lag (by omega)) (by omega) rfl rfl
      have hrest := ih (fun lag hlag => hcorrelation lag (by omega))
        (by rw [size_reflect]; omega) hnext
      rw [levinsonStages, if_neg (not_le.mpr hpositive)]
      rwa [Nat.add_right_comm, Nat.add_assoc] at hrest

/-- From a solution every divisor of the recursion is positive. -/
theorem DividesBy.pos {divisor : ℝ}
    (hdivides : DividesBy correlation remaining reached polynomial gain divisor)
    (hsegment : ∃ index, segment.sample index ≠ 0)
    (hcorrelation : ∀ lag ≤ reached + remaining,
      correlation.sample lag = lagProduct segment lag)
    (hsize : reached + remaining < polynomial.size)
    (hsolves : SolvesNormalEquations (lagProduct segment) polynomial.sample reached gain) :
    0 < divisor := by
  induction hdivides with
  | now => exact hsolves.gain_pos hsegment
  | later hreflection hleft _ _ ih =>
      obtain ⟨hnext, -⟩ := hsolves.stage hsegment
        (fun lag hlag => hcorrelation lag (by omega)) (by omega) rfl hreflection.symm
      rw [← hleft] at hnext
      exact ih (fun lag hlag => hcorrelation lag (by omega)) (by rw [size_reflect]; omega) hnext

theorem levinson_of_power_pos (hpower : 0 < correlation.sample 0) (order : Nat) :
    levinson correlation order = levinsonStages correlation order 0
      (Predictor.flat order : Predictor ℝ).polynomial (correlation.sample 0) := by
  rw [levinson, if_neg fun hzero => hpower.not_ge hzero.1]

/-- The polynomial one solves the normal equations of order zero. -/
theorem flat_solves_lags (lags : Nat → ℝ) (order : Nat) :
    SolvesNormalEquations lags
      (Predictor.flat order : Predictor ℝ).polynomial.sample 0 (lags 0) where
  leading := by
    rw [Predictor.flat, Signal.sample_tabulate, if_pos (Nat.succ_pos order), if_pos rfl]
  beyond := by
    intro index hindex
    rw [Predictor.flat, Signal.sample_tabulate, if_neg hindex.ne', ite_self]
  leftover_eq_zero := by
    intro lag hpositive hlag
    omega
  leftover_zero := by
    rw [leftover, zero_add, Finset.sum_range_one, Predictor.flat, Signal.sample_tabulate,
      if_pos (Nat.succ_pos order), if_pos rfl, one_mul, Nat.dist_self]

theorem flat_solves (segment : Signal ℝ) (order : Nat) :
    SolvesNormalEquations (lagProduct segment)
      (Predictor.flat order : Predictor ℝ).polynomial.sample 0 (lagProduct segment 0) :=
  flat_solves_lags (lagProduct segment) order

/-- The autocorrelation method succeeds on every segment that is not silent, for every
order.  It completes all stages, divides by positive numbers only, and returns a
polynomial that starts with one and a positive gain: the polynomial leaves the gain
at lag zero and no correlation at the lags from one to the order. -/
theorem ofAutocorrelation_solves_normalEquations (segment : Signal ℝ) (order : Nat)
    (hsegment : ∃ index, segment.sample index ≠ 0) (horder : 1 ≤ order) :
    ∃ predictor, ofAutocorrelation segment order = .ok predictor ∧
      predictor.polynomial.size = order + 1 ∧ predictor.polynomial.sample 0 = 1 ∧
      predictor.orderReached = order ∧ 0 < predictor.gain ∧
      (∀ divisor, DividesBy (.tabulate (order + 1) (autocorrelation segment)) order 0
        (Predictor.flat order : Predictor ℝ).polynomial (autocorrelation segment 0) divisor →
        0 < divisor) ∧
      ∀ lag ≤ order, ∑ index ∈ Finset.range (order + 1),
        predictor.polynomial.sample index * lagProduct segment (Nat.dist lag index) =
          if lag = 0 then predictor.gain else 0 := by
  generalize hcorrelations : Signal.tabulate (order + 1) (autocorrelation segment) = correlations
  have hcorrelation : ∀ lag ≤ 0 + order, correlations.sample lag = lagProduct segment lag := by
    intro lag hlag
    rw [← hcorrelations, Signal.sample_tabulate, if_pos (by omega), autocorrelation_eq_lagProduct]
  have hflat := flat_solves segment order
  have hsize : 0 + order < (Predictor.flat order : Predictor ℝ).polynomial.size := by
    rw [Predictor.flat, Signal.size_tabulate]
    omega
  have hlevinson : levinson correlations order = levinsonStages correlations order 0
      (Predictor.flat order : Predictor ℝ).polynomial (lagProduct segment 0) := by
    have hpower := hflat.gain_pos hsegment
    rw [levinson, hcorrelation 0 (Nat.zero_le _), if_neg (fun hzero => hpower.not_ge hzero.1)]
  obtain ⟨hreached, hsolves⟩ := levinsonStages_solves hsegment hcorrelation hsize hflat
  rw [← hlevinson, zero_add] at hsolves hreached
  refine ⟨levinson correlations order, ?_, size_levinson _ _, hsolves.leading, hreached,
    hsolves.gain_pos hsegment, fun divisor hdivides => ?_, fun lag hlag => ?_⟩
  · rw [ofAutocorrelation, require_bind_eq_ok_iff, pure_eq_ok_iff, hcorrelations]
    exact ⟨decide_eq_true horder, rfl⟩
  · rw [autocorrelation_eq_lagProduct] at hdivides
    exact hdivides.pos hsegment hcorrelation hsize hflat
  · split
    case isTrue hzero =>
      rw [hzero]
      exact hsolves.leftover_zero
    case isFalse hne => exact hsolves.leftover_eq_zero lag (by omega) hlag

/-- The order may exceed the length of the segment. -/
theorem ofAutocorrelation_solves_normalEquations_of_two_samples :
    ∃ predictor : Predictor ℝ, ofAutocorrelation #[1, 2] 3 = .ok predictor ∧
      predictor.orderReached = 3 ∧ 0 < predictor.gain := by
  obtain ⟨predictor, hpredictor, _, _, hreached, hgain, _⟩ :=
    ofAutocorrelation_solves_normalEquations #[1, 2] 3 ⟨0, by norm_num [Signal.sample]⟩
      (by decide)
  exact ⟨predictor, hpredictor, hreached, hgain⟩

end Glottis.LinearPrediction
