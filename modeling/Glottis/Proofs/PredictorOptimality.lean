import Mathlib
import Glottis.Proofs.FilterCascade
import Glottis.Proofs.NormalEquations
import Glottis.Proofs.WhitenedFrames

/-!
# The best predictor

A polynomial that is convolved with a segment leaves an energy, the prediction error
until it has rung out.  A solution of the normal equations leaves no correlation at the
lags from one to its order, so what it leaves is orthogonal to every change of its
coefficients but the first.  Any other polynomial that starts with one therefore leaves
the energy of the solution and that of the change on top, which is positive unless the
segment is silent.
-/

namespace Glottis.LinearPrediction

/-! ## What filters leave -/

/-- A sample of the all-zero filter, with the delays past the start counted as silent. -/
theorem feedForward_eq_filtered {polynomial : Signal ℝ} {order : Nat}
    (hsize : polynomial.size = order + 1) (segment : Signal ℝ) (index : Nat) :
    Filter.feedForward polynomial segment index =
      filtered segment polynomial.sample order index := by
  rw [Filter.feedForward, sumRange_eq_sum, filtered, hsize]
  have hshort : ∀ delay ∈ Finset.range (min (index + 1) (order + 1)),
      polynomial.sample delay * segment.sample (index - delay) =
        polynomial.sample delay * delayed segment delay index := by
    intro delay hdelay
    rw [Finset.mem_range] at hdelay
    rw [delayed, if_pos (by omega)]
  rw [Finset.sum_congr rfl hshort]
  apply Finset.sum_subset (Finset.range_mono (Nat.min_le_right _ _))
  intro delay hdelay houtside
  rw [Finset.mem_range] at hdelay houtside
  rw [delayed, if_neg (by omega), mul_zero]

/-- A sample of the convolution, which goes on until the last sample has passed the last
coefficient. -/
theorem sample_convolve_eq_filtered {polynomial : Signal ℝ} {order : Nat}
    (hsize : polynomial.size = order + 1) (segment : Signal ℝ) (index : Nat) :
    (Filter.convolve polynomial segment).sample index =
      filtered segment polynomial.sample order index := by
  rw [Filter.sample_convolve, ← Filter.feedForward_eq_sum, feedForward_eq_filtered hsize]

/-- The energy of a segment filtered by a polynomial of an order, until it has rung out. -/
noncomputable def errorEnergy (segment : Signal ℝ) (coefficient : Nat → ℝ) (order : Nat) : ℝ :=
  ∑ index ∈ Finset.range (segment.size + order), filtered segment coefficient order index ^ 2

theorem energy_convolve {polynomial segment : Signal ℝ} {order : Nat}
    (hsize : polynomial.size = order + 1) (hsegment : 0 < segment.size) :
    (Filter.convolve polynomial segment).energy =
      errorEnergy segment polynomial.sample order := by
  have hlength : (Filter.convolve polynomial segment).size = segment.size + order := by
    rw [Filter.size_convolve, if_neg (by omega)]
    omega
  rw [Signal.energy_eq_sum, errorEnergy, hlength]
  simp only [sample_convolve_eq_filtered hsize]

/-- The filter that stops with the segment leaves no more than the convolution. -/
theorem energy_fir_le {polynomial : Signal ℝ} {order : Nat}
    (hsize : polynomial.size = order + 1) (segment : Signal ℝ) :
    (Filter.fir polynomial segment).energy ≤ errorEnergy segment polynomial.sample order := by
  rw [Signal.energy_eq_sum, errorEnergy, Filter.size_fir]
  calc ∑ index ∈ Finset.range segment.size, (Filter.fir polynomial segment).sample index ^ 2
      = ∑ index ∈ Finset.range segment.size,
          filtered segment polynomial.sample order index ^ 2 := by
        apply Finset.sum_congr rfl
        intro index hindex
        rw [Filter.sample_fir _ _ (Finset.mem_range.mp hindex), feedForward_eq_filtered hsize]
    _ ≤ ∑ index ∈ Finset.range (segment.size + order),
          filtered segment polynomial.sample order index ^ 2 :=
        Finset.sum_le_sum_of_subset_of_nonneg (Finset.range_mono (Nat.le_add_right _ _))
          fun _ _ _ => sq_nonneg _

/-- The energy is the quadratic form of the autocorrelation. -/
theorem errorEnergy_eq_sum_leftover (segment : Signal ℝ) (coefficient : Nat → ℝ) (order : Nat) :
    errorEnergy segment coefficient order =
      ∑ index ∈ Finset.range (order + 1),
        coefficient index * leftover (lagProduct segment) coefficient order index := by
  simp only [errorEnergy, sq, sum_filtered_mul_filtered, leftover]

/-! ## Orthogonality -/

section

variable {segment : Signal ℝ} {coefficient : Nat → ℝ} {order : Nat} {gain : ℝ}

/-- The gain of a solution is the energy that it leaves. -/
theorem SolvesNormalEquations.errorEnergy_eq
    (hsolves : SolvesNormalEquations (lagProduct segment) coefficient order gain) :
    errorEnergy segment coefficient order = gain := by
  rw [errorEnergy_eq_sum_leftover, hsolves.gain_eq]

/-- What a solution leaves is orthogonal to every change behind the first coefficient. -/
theorem SolvesNormalEquations.sum_filtered_mul_eq_zero
    (hsolves : SolvesNormalEquations (lagProduct segment) coefficient order gain)
    {change : Nat → ℝ} (hfirst : change 0 = 0) :
    ∑ index ∈ Finset.range (segment.size + order),
      filtered segment change order index * filtered segment coefficient order index = 0 := by
  rw [sum_filtered_mul_filtered]
  apply Finset.sum_eq_zero
  intro index hindex
  rw [Finset.mem_range] at hindex
  cases Nat.eq_zero_or_pos index with
  | inl hzero => rw [hzero, hfirst, zero_mul]
  | inr hpositive =>
      have hleft := hsolves.leftover_eq_zero index hpositive (by omega)
      rw [leftover] at hleft
      rw [hleft, mul_zero]

theorem filtered_add (segment : Signal ℝ) (left right : Nat → ℝ) (order index : Nat) :
    filtered segment (fun delay => left delay + right delay) order index =
      filtered segment left order index + filtered segment right order index := by
  simp only [filtered, add_mul, Finset.sum_add_distrib]

/-- A polynomial that starts with one leaves the energy of the solution and that of its
difference from the solution. -/
theorem SolvesNormalEquations.errorEnergy_of_leading
    (hsolves : SolvesNormalEquations (lagProduct segment) coefficient order gain)
    {other : Nat → ℝ} (hleading : other 0 = 1) :
    errorEnergy segment other order =
      gain + errorEnergy segment (fun index => other index - coefficient index) order := by
  have hsplit : ∀ index, filtered segment other order index =
      filtered segment coefficient order index +
        filtered segment (fun index => other index - coefficient index) order index := by
    intro index
    rw [← filtered_add]
    congr 1
    funext delay
    rw [add_sub_cancel]
  have horthogonal : ∑ index ∈ Finset.range (segment.size + order),
      filtered segment (fun index => other index - coefficient index) order index *
        filtered segment coefficient order index = 0 :=
    hsolves.sum_filtered_mul_eq_zero (by rw [hleading, hsolves.leading, sub_self])
  calc errorEnergy segment other order
      = errorEnergy segment coefficient order +
          errorEnergy segment (fun index => other index - coefficient index) order +
          2 * ∑ index ∈ Finset.range (segment.size + order),
            filtered segment (fun index => other index - coefficient index) order index *
              filtered segment coefficient order index := by
        simp only [errorEnergy, hsplit, Finset.mul_sum, ← Finset.sum_add_distrib]
        apply Finset.sum_congr rfl
        intro index _
        ring
    _ = gain + errorEnergy segment (fun index => other index - coefficient index) order := by
        rw [horthogonal, mul_zero, add_zero, hsolves.errorEnergy_eq]

theorem errorEnergy_nonneg (segment : Signal ℝ) (coefficient : Nat → ℝ) (order : Nat) :
    0 ≤ errorEnergy segment coefficient order :=
  Finset.sum_nonneg fun _ _ => sq_nonneg _

/-- Only the zero polynomial leaves nothing of a segment that is not silent. -/
theorem coefficient_eq_zero_of_errorEnergy (hsegment : ∃ index, segment.sample index ≠ 0)
    (henergy : errorEnergy segment coefficient order = 0) :
    ∀ index ≤ order, coefficient index = 0 := by
  intro index hindex
  by_contra hne
  have hpositive := quadraticForm_pos ⟨index, hindex, hne⟩ hsegment
  rw [errorEnergy_eq_sum_leftover] at henergy
  exact hpositive.ne' henergy

/-- No polynomial that starts with one leaves less than the solution. -/
theorem SolvesNormalEquations.gain_le_errorEnergy
    (hsolves : SolvesNormalEquations (lagProduct segment) coefficient order gain)
    {other : Nat → ℝ} (hleading : other 0 = 1) : gain ≤ errorEnergy segment other order := by
  rw [hsolves.errorEnergy_of_leading hleading]
  exact le_add_of_nonneg_right (errorEnergy_nonneg _ _ _)

/-- Only the solution leaves as little as the solution. -/
theorem SolvesNormalEquations.eq_of_errorEnergy_eq
    (hsolves : SolvesNormalEquations (lagProduct segment) coefficient order gain)
    (hsegment : ∃ index, segment.sample index ≠ 0)
    {other : Nat → ℝ} (hleading : other 0 = 1)
    (henergy : errorEnergy segment other order = gain) :
    ∀ index ≤ order, other index = coefficient index := by
  intro index hindex
  rw [hsolves.errorEnergy_of_leading hleading, add_eq_left] at henergy
  exact sub_eq_zero.mp (coefficient_eq_zero_of_errorEnergy hsegment henergy index hindex)

end

/-! ## Higher orders -/

/-- Coefficients past the order change nothing if they are zero. -/
theorem errorEnergy_of_le (segment : Signal ℝ) {coefficient : Nat → ℝ} {order higher : Nat}
    (hbeyond : ∀ index, order < index → coefficient index = 0) (hle : order ≤ higher) :
    errorEnergy segment coefficient higher = errorEnergy segment coefficient order := by
  have hshorter : ∀ term : Nat → ℝ,
      ∑ index ∈ Finset.range (higher + 1), coefficient index * term index =
        ∑ index ∈ Finset.range (order + 1), coefficient index * term index := by
    intro term
    refine (Finset.sum_subset (Finset.range_mono (by omega)) fun index _ houtside => ?_).symm
    rw [Finset.mem_range] at houtside
    rw [hbeyond index (by omega), zero_mul]
  simp only [errorEnergy_eq_sum_leftover, leftover, hshorter]

/-- A higher order leaves no larger gain. -/
theorem SolvesNormalEquations.gain_le_gain {segment : Signal ℝ}
    {coefficient highCoefficient : Nat → ℝ} {order higher : Nat} {gain highGain : ℝ}
    (hsolves : SolvesNormalEquations (lagProduct segment) coefficient order gain)
    (hhigher : SolvesNormalEquations (lagProduct segment) highCoefficient higher highGain)
    (hle : order ≤ higher) : highGain ≤ gain := by
  calc highGain ≤ errorEnergy segment coefficient higher :=
        hhigher.gain_le_errorEnergy hsolves.leading
    _ = errorEnergy segment coefficient order := errorEnergy_of_le segment hsolves.beyond hle
    _ = gain := hsolves.errorEnergy_eq

/-! ## The predictor of the autocorrelation method -/

theorem energy_eq_lagProduct (segment : Signal ℝ) : segment.energy = lagProduct segment 0 := by
  rw [Signal.energy_eq_sum, lagProduct]
  simp only [Nat.sub_zero, Nat.add_zero, sq]

/-- The recursion on the autocorrelation of a segment that is not silent solves the normal
equations. -/
theorem levinson_solves (segment : Signal ℝ) (order : Nat)
    (hsegment : ∃ index, segment.sample index ≠ 0) :
    SolvesNormalEquations (lagProduct segment)
      (levinson (.tabulate (order + 1) (autocorrelation segment)) order).polynomial.sample order
      (levinson (.tabulate (order + 1) (autocorrelation segment)) order).gain := by
  generalize hcorrelations : Signal.tabulate (order + 1) (autocorrelation segment) = correlations
  have hcorrelation : ∀ lag ≤ 0 + order, correlations.sample lag = lagProduct segment lag := by
    intro lag hlag
    rw [← hcorrelations, Signal.sample_tabulate, if_pos (by omega), autocorrelation_eq_lagProduct]
  have hflat := flat_solves segment order
  have hpower : 0 < correlations.sample 0 := by
    rw [hcorrelation 0 (Nat.zero_le _)]
    exact hflat.gain_pos hsegment
  have hsize : 0 + order < (Predictor.flat order : Predictor ℝ).polynomial.size := by
    rw [Predictor.flat, Signal.size_tabulate]
    omega
  rw [levinson_of_power_pos hpower, hcorrelation 0 (Nat.zero_le _)]
  have hsolves := (levinsonStages_solves hsegment hcorrelation hsize hflat).2
  rwa [zero_add] at hsolves

theorem ofAutocorrelation_eq_ok {α : Type} [Scalar α] (segment : Signal α) {order : Nat}
    (horder : 1 ≤ order) :
    ofAutocorrelation segment order =
      .ok (levinson (.tabulate (order + 1) (autocorrelation segment)) order) := by
  rw [ofAutocorrelation, require_bind_of (decide_eq_true horder)]
  rfl

/-- The autocorrelation method gives the best predictor of its order for every segment that
is not silent.  Its gain is the energy of the segment convolved with it.  Every other
polynomial of that order that starts with one leaves more energy.  The whitened segment
has at most that energy, which is at most the energy of the segment, and a higher order
has no larger gain. -/
theorem ofAutocorrelation_is_optimal (segment : Signal ℝ) (order : Nat)
    (hsegment : ∃ index, segment.sample index ≠ 0) (horder : 1 ≤ order) :
    ∃ predictor, ofAutocorrelation segment order = .ok predictor ∧
      (order + 1 ≤ maxLength → analyze segment order .autocorrelation = .ok predictor) ∧
      predictor.polynomial.size = order + 1 ∧ predictor.polynomial.sample 0 = 1 ∧
      predictor.gain = (Filter.convolve predictor.polynomial segment).energy ∧
      (∀ other : Signal ℝ, other.size = order + 1 → other.sample 0 = 1 →
        predictor.gain ≤ (Filter.convolve other segment).energy ∧
          ((Filter.convolve other segment).energy = predictor.gain →
            other = predictor.polynomial)) ∧
      (Filter.fir predictor.polynomial segment).energy ≤ predictor.gain ∧
      predictor.gain ≤ segment.energy ∧
      ∀ higher, order ≤ higher → ∃ highPredictor,
        ofAutocorrelation segment higher = .ok highPredictor ∧
          highPredictor.gain ≤ predictor.gain := by
  have hsolves := levinson_solves segment order hsegment
  have hsize := size_levinson (.tabulate (order + 1) (autocorrelation segment)) order
  have hpositive : 0 < segment.size := by
    obtain ⟨index, hindex⟩ := hsegment
    by_contra hempty
    exact hindex (Signal.sample_of_size_le segment (by omega))
  have hok := ofAutocorrelation_eq_ok segment horder
  refine ⟨_, hok, fun hstored => (analyze_of_stored segment _ hstored).trans hok, hsize,
    hsolves.leading, ?_, ?_, ?_, ?_, ?_⟩
  · rw [energy_convolve hsize hpositive, hsolves.errorEnergy_eq]
  · intro other hother hleading
    rw [energy_convolve hother hpositive]
    refine ⟨hsolves.gain_le_errorEnergy hleading, fun henergy => ?_⟩
    apply Signal.ext_sample (hother.trans hsize.symm)
    intro index hindex
    exact hsolves.eq_of_errorEnergy_eq hsegment hleading henergy index (by omega)
  · rw [← hsolves.errorEnergy_eq]
    exact energy_fir_le hsize segment
  · rw [energy_eq_lagProduct]
    exact (flat_solves segment order).gain_le_gain hsolves (Nat.zero_le order)
  · intro higher hhigher
    exact ⟨_, ofAutocorrelation_eq_ok segment (horder.trans hhigher),
      hsolves.gain_le_gain (levinson_solves segment higher hsegment) hhigher⟩

/-- The order may exceed the length of the segment. -/
theorem ofAutocorrelation_is_optimal_of_two_samples :
    ∃ predictor : Predictor ℝ, ofAutocorrelation #[1, 2] 3 = .ok predictor ∧
      predictor.gain = (Filter.convolve predictor.polynomial #[1, 2]).energy ∧
      predictor.gain ≤ (Filter.convolve #[1, -1, 1, -1] #[1, 2]).energy := by
  obtain ⟨predictor, hpredictor, _, _, _, hgain, hbest, _⟩ :=
    ofAutocorrelation_is_optimal #[1, 2] 3 ⟨0, by norm_num [Signal.sample]⟩ (by decide)
  exact ⟨predictor, hpredictor, hgain, (hbest #[1, -1, 1, -1] rfl rfl).1⟩

end Glottis.LinearPrediction
