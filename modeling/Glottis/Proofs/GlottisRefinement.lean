import Mathlib
import Glottis.InverseFilter
import Glottis.Proofs.Checks
import Glottis.Proofs.PredictorScaling
import Glottis.Proofs.RecursiveFilters
import Glottis.Proofs.WindowWeights

/-!
# Refinement of the gross glottis model

Each refinement fits a first-order model to a filtered signal and multiplies it in.  The
reference algorithm filters by the whole model composed so far; the inverse filter takes the
first-order model of the last stage alone.  Up to one refinement the two are the same.  From
the second one on they differ, and the difference reaches the glottal source.
-/

namespace Glottis.InverseFilter

variable {α : Type} [Scalar α]

/-! ## Two ways to refine -/

section Refinement

variable (extended : Signal α) (ramp : Nat) (first : Signal α)

/-- The first-order model of a stage, fitted to the signal filtered by that of the stage
before. -/
def stageModel : Nat → Signal α
  | 0 => first
  | stage + 1 => fit (filtered extended ramp (stageModel stage)) 1

def stageProduct : Nat → Signal α
  | 0 => first
  | stage + 1 => Filter.convolve (stageProduct stage) (stageModel extended ramp first (stage + 1))

/-- The model composed up to a stage, where each stage is fitted to the signal filtered by the
model composed before it. -/
def composedModel : Nat → Signal α
  | 0 => first
  | stage + 1 =>
      Filter.convolve (composedModel stage) (fit (filtered extended ramp (composedModel stage)) 1)

theorem refineGlottis_eq_stageProduct (reached remaining : Nat) :
    refineGlottis extended ramp remaining (stageModel extended ramp first reached)
        (stageProduct extended ramp first reached) =
      stageProduct extended ramp first (reached + remaining) := by
  induction remaining generalizing reached with
  | zero => rfl
  | succ remaining ih =>
      rw [refineGlottis, ← Nat.add_assoc, Nat.add_right_comm]
      exact ih (reached + 1)

/-- Before the second refinement the last stage is all that has been composed. -/
theorem stageProduct_eq_composedModel {stage : Nat} (hstage : stage ≤ 1) :
    stageProduct extended ramp first stage = composedModel extended ramp first stage := by
  cases Nat.le_one_iff_eq_zero_or_eq_one.mp hstage with
  | inl hzero => rw [hzero, stageProduct, composedModel]
  | inr hone =>
      rw [hone, stageProduct, composedModel, stageModel, stageModel, stageProduct, composedModel]

end Refinement

/-- The glottal source of a segment whose gross glottis model is found from the extended
signal and the first fit: the gross vocal tract, the fine glottis and the fine vocal tract are
fitted in turn. -/
def sourceOf (gross : (extended : Signal α) → (ramp : Nat) → (first : Signal α) → Signal α)
    (segment : Signal α) (parameters : Parameters α) : Signal α :=
  let ramp := rampLength parameters
  let extended := cancelLips (withRamp segment ramp) parameters.lipRadiation
  let first := fit (cancelLips segment parameters.lipRadiation) 1
  let grossTract := fit (filtered extended ramp (gross extended ramp first))
    parameters.vocalTractOrder
  let fineGlottis := fit (filtered extended ramp grossTract) parameters.glottisOrder
  filtered extended ramp (fit (filtered extended ramp fineGlottis) parameters.vocalTractOrder)

/-- The source where each refinement filters by the model of the last stage. -/
def stagewiseSource (segment : Signal α) (parameters : Parameters α) : Signal α :=
  sourceOf (fun extended ramp first =>
    stageProduct extended ramp first (parameters.glottisOrder - 1)) segment parameters

/-- The source where each refinement filters by the model composed so far. -/
def composedSource (segment : Signal α) (parameters : Parameters α) : Signal α :=
  sourceOf (fun extended ramp first =>
    composedModel extended ramp first (parameters.glottisOrder - 1)) segment parameters

theorem source_eq_stagewiseSource (segment : Signal α) (parameters : Parameters α) :
    source segment parameters = stagewiseSource segment parameters := by
  rw [source, vocalTract, stagewiseSource, sourceOf]
  have hrefined := fun extended first : Signal α => refineGlottis_eq_stageProduct extended
    (rampLength parameters) first 0 (parameters.glottisOrder - 1)
  simp only [stageModel, stageProduct, Nat.zero_add] at hrefined
  simp only [hrefined]

theorem size_filtered (extended polynomial : Signal α) (ramp : Nat) :
    (filtered extended ramp polynomial).size = extended.size - ramp := by
  rw [filtered, afterRamp, Signal.size_tabulate, Filter.size_fir]

theorem size_stagewiseSource (segment : Signal α) (parameters : Parameters α) :
    (stagewiseSource segment parameters).size = segment.size := by
  rw [stagewiseSource, sourceOf, size_filtered, cancelLips, Filter.size_iir, withRamp,
    Signal.size_tabulate, Nat.add_sub_cancel]

/-- The conditions under which a segment is filtered. -/
theorem validate_eq_ok {segment : Signal α} {parameters : Parameters α} (hsize : 2 ≤ segment.size)
    (hvocalTract : 1 ≤ parameters.vocalTractOrder) (hglottis : 1 ≤ parameters.glottisOrder)
    (hlips : Scalar.isFinite parameters.lipRadiation = true)
    (hfinite : segment.allFinite = true) : validate segment parameters = .ok () := by
  rw [validate, require_bind_of (decide_eq_true hsize),
    require_bind_of (decide_eq_true hvocalTract), require_bind_of (decide_eq_true hglottis),
    require_bind_of hlips, hfinite]
  rfl

/-- The filter returns a source as long as the segment, in which each refinement of the gross
glottis has filtered by the first-order model of the stage before alone.  With a glottis model
of at most second order that is the source of the reference algorithm. -/
theorem inverseFilter_refines_stagewise (segment : Signal α) (parameters : Parameters α)
    (hsize : 2 ≤ segment.size) (hvocalTract : 1 ≤ parameters.vocalTractOrder)
    (hglottis : 1 ≤ parameters.glottisOrder)
    (hlips : Scalar.isFinite parameters.lipRadiation = true)
    (hfinite : segment.allFinite = true) :
    inverseFilter segment parameters = .ok (stagewiseSource segment parameters) ∧
      (fitsIndex segment.size parameters = true →
        indexedInverseFilter segment parameters = .ok (stagewiseSource segment parameters)) ∧
      (stagewiseSource segment parameters).size = segment.size ∧
      (parameters.glottisOrder ≤ 2 →
        stagewiseSource segment parameters = composedSource segment parameters) := by
  have hvalid := validate_eq_ok hsize hvocalTract hglottis hlips hfinite
  refine ⟨?_, fun hfits => ?_, size_stagewiseSource _ _, fun horder => ?_⟩
  · rw [inverseFilter, hvalid, source_eq_stagewiseSource]
    rfl
  · rw [indexedInverseFilter, hvalid, hfits, source_eq_stagewiseSource]
    rfl
  · rw [stagewiseSource, composedSource]
    congr 1
    funext extended ramp first
    exact stageProduct_eq_composedModel extended ramp first (by omega)

theorem inverseFilter_refines_stagewise_of_two_samples :
    indexedInverseFilter (#[1, -1] : Signal ℝ) ⟨1, 3, 0⟩ =
        .ok (stagewiseSource #[1, -1] ⟨1, 3, 0⟩) ∧
      (stagewiseSource (#[1, -1] : Signal ℝ) ⟨1, 3, 0⟩).size = 2 ∧
      inverseFilter (#[1, -1] : Signal ℝ) ⟨1, 2, 0⟩ = .ok (composedSource #[1, -1] ⟨1, 2, 0⟩) := by
  have hfinite := Signal.allFinite_real #[1, -1]
  obtain ⟨_, hindexed, hsize, _⟩ := inverseFilter_refines_stagewise #[1, -1] ⟨1, 3, 0⟩ (by decide)
    (by decide) (by decide) rfl hfinite
  obtain ⟨hsecond, _, _, hcomposed⟩ := inverseFilter_refines_stagewise #[1, -1] ⟨1, 2, 0⟩
    (by decide) (by decide) (by decide) rfl hfinite
  exact ⟨hindexed rfl, hsize, hcomposed le_rfl ▸ hsecond⟩

/-! ## Segments of two samples

A segment of two samples has two correlations, so its models have closed forms in their
quotient. -/

section Pairs

open LinearPrediction

private theorem tapered_pair (first second : ℝ) :
    tapered #[first, second] = Signal.scaled #[first, second] 0.07672 := by
  have hweight : ∀ index < 2,
      (WindowKind.hamming.shape : Window ℝ).weight 2 index = 0.07672 := by
    intro index hindex
    rw [WindowKind.shape, Window.weight_two_cosines]
    interval_cases index
    · rw [Nat.cast_zero, mul_zero, zero_div, Real.cos_zero]
      norm_num
    · rw [Nat.cast_one, mul_one, div_one, Real.cos_two_pi]
      norm_num
  apply Signal.ext_sample
  · rw [tapered, Signal.size_tabulate, Signal.size_scaled]
  · intro index hindex
    rw [tapered, Signal.size_tabulate] at hindex
    rw [tapered, Signal.sample_tabulate, if_pos hindex, Signal.sample_scaled]
    rw [show (#[first, second] : Signal ℝ).size = 2 from rfl, hweight index hindex, mul_comm]

private theorem lagProduct_pair (first second : ℝ) (lag : Nat) :
    lagProduct #[first, second] lag =
      if lag = 0 then first ^ 2 + second ^ 2 else if lag = 1 then first * second else 0 := by
  match lag with
  | 0 =>
      rw [if_pos rfl, sq, sq]
      simp [lagProduct, Signal.sample, Finset.sum_range_succ]
  | 1 => simp [lagProduct, Signal.sample]
  | lag + 2 => simp [lagProduct]

noncomputable def pairCorrelation (correlation : ℝ) (order : Nat) : Signal ℝ :=
  .tabulate (order + 1) fun lag => if lag = 0 then 1 else if lag = 1 then correlation else 0

/-- The model of two samples depends on their normalized correlation alone. -/
private theorem fit_pair {first second : ℝ} (hpower : 0 < first ^ 2 + second ^ 2) (order : Nat) :
    fit #[first, second] order =
      (levinson (pairCorrelation (first * second / (first ^ 2 + second ^ 2)) order)
        order).polynomial := by
  have hcorrelation : Signal.tabulate (order + 1) (autocorrelation (tapered #[first, second])) =
      (pairCorrelation (first * second / (first ^ 2 + second ^ 2)) order).scaled
        (0.07672 ^ 2 * (first ^ 2 + second ^ 2)) := by
    rw [pairCorrelation, Signal.scaled_tabulate]
    congr 1
    funext lag
    rw [tapered_pair, autocorrelation_scaled, autocorrelation_eq_lagProduct, lagProduct_pair,
      mul_assoc]
    congr 1
    split_ifs
    · rw [mul_one]
    · rw [mul_div_cancel₀ _ hpower.ne']
    · rw [mul_zero]
  rw [fit, hcorrelation, levinson_scaled _ _ (mul_pos (by norm_num) hpower)]
  rfl

private theorem mismatch_pairCorrelation (correlation : ℝ) (polynomial : Signal ℝ)
    {order : Nat} (horder : 1 ≤ order) (stage : Nat) :
    mismatch (pairCorrelation correlation order) polynomial (stage + 1) =
      correlation * polynomial.sample stage := by
  have hdistant : ∀ index ∈ Finset.range stage,
      (pairCorrelation correlation order).sample (stage + 1 - index) * polynomial.sample index =
        0 := by
    intro index hindex
    have hindex := Finset.mem_range.mp hindex
    rw [pairCorrelation, Signal.sample_tabulate, if_neg (by omega : ¬ stage + 1 - index = 0),
      if_neg (by omega : ¬ stage + 1 - index = 1), ite_self, zero_mul]
  rw [mismatch, sumRange_eq_sum, Finset.sum_range_succ, Finset.sum_eq_zero hdistant, zero_add,
    Nat.add_sub_cancel_left, pairCorrelation, Signal.sample_tabulate, if_pos (by omega),
    if_neg Nat.one_ne_zero, if_pos rfl]

/-- A stage that leaves some power on two samples. -/
private theorem levinsonStages_pairCorrelation {correlation gain : ℝ} {polynomial : Signal ℝ}
    {order reached : Nat} (horder : 1 ≤ order) (remaining : Nat) (latest reflection left : ℝ)
    (hlatest : polynomial.sample reached = latest)
    (hreflection : -(correlation * latest) / gain = reflection)
    (hleft : gain + reflection * (correlation * latest) = left) (hpositive : 0 < left) :
    levinsonStages (pairCorrelation correlation order) (remaining + 1) reached polynomial gain =
      levinsonStages (pairCorrelation correlation order) remaining (reached + 1)
        (reflect polynomial (reached + 1) reflection reflection) left := by
  rw [levinsonStages, mismatch_pairCorrelation _ _ horder, hlatest, hreflection, hleft]
  exact if_neg (not_le.mpr hpositive)

private theorem levinson_pairCorrelation (correlation : ℝ) (order : Nat) :
    levinson (pairCorrelation correlation order) order =
      levinsonStages (pairCorrelation correlation order) order 0
        (Predictor.flat order : Predictor ℝ).polynomial 1 := by
  have hpower : (pairCorrelation correlation order).sample 0 = 1 := by
    rw [pairCorrelation, Signal.sample_tabulate, if_pos (Nat.succ_pos _), if_pos rfl]
  rw [levinson, hpower, if_neg (by norm_num)]

/-- The first-order model. -/
private theorem levinson_pairCorrelation_one {correlation : ℝ}
    (hcorrelation : correlation ^ 2 < 1) :
    (levinson (pairCorrelation correlation 1) 1).polynomial = #[1, -correlation] := by
  have hflat : (Predictor.flat 1 : Predictor ℝ).polynomial = #[1, 0] := by
    simp [Predictor.flat, Signal.tabulate, Array.ofFn_succ]
  have hreflect : reflect (#[1, 0] : Signal ℝ) 1 (-correlation) (-correlation) =
      #[1, -correlation] := by
    simp [reflect, Signal.tabulate, Array.ofFn_succ, Signal.sample]
  rw [levinson_pairCorrelation, hflat,
    levinsonStages_pairCorrelation le_rfl 0 1 (-correlation) (1 - correlation ^ 2) rfl
      (by rw [mul_one, div_one]) (by ring) (by linarith),
    hreflect, levinsonStages]

private theorem reflect_three (linear quadratic reflection : ℝ) :
    reflect #[1, 0, 0, 0] 1 reflection reflection = #[1, reflection, 0, 0] ∧
      reflect #[1, linear, 0, 0] 2 reflection reflection =
        #[1, linear + reflection * linear, reflection, 0] ∧
      reflect #[1, linear, quadratic, 0] 3 reflection reflection =
        #[1, linear + reflection * quadratic, quadratic + reflection * linear, reflection] := by
  simp [reflect, Signal.tabulate, Array.ofFn_succ, Signal.sample]

/-- The third-order model. -/
private theorem levinson_pairCorrelation_three {correlation : ℝ}
    (hcorrelation : correlation ^ 2 ≤ 1 / 4) :
    (levinson (pairCorrelation correlation 3) 3).polynomial =
      #[1, -(correlation * (1 - correlation ^ 2)) / (1 - correlation ^ 2 * 2),
        correlation ^ 2 / (1 - correlation ^ 2 * 2),
        -(correlation ^ 3) / (1 - correlation ^ 2 * 2)] := by
  have hflat : (Predictor.flat 3 : Predictor ℝ).polynomial = #[1, 0, 0, 0] := by
    simp [Predictor.flat, Signal.tabulate, Array.ofFn_succ]
  have hsquare := sq_nonneg correlation
  have hfirst : 0 < 1 - correlation ^ 2 := by linarith
  have hsecond : 0 < 1 - correlation ^ 2 * 2 := by linarith
  have hthird : 0 < (1 - correlation ^ 2 * 2) ^ 2 - (correlation ^ 2) ^ 3 := by
    nlinarith [mul_nonneg hsquare hsquare, mul_nonneg (mul_nonneg hsquare hsquare) hsquare]
  rw [levinson_pairCorrelation, hflat,
    levinsonStages_pairCorrelation (by decide) 2 1 (-correlation) (1 - correlation ^ 2) rfl
      (by rw [mul_one, div_one]) (by ring) hfirst,
    (reflect_three 0 0 _).1,
    levinsonStages_pairCorrelation (by decide) 1 (-correlation)
      (correlation ^ 2 / (1 - correlation ^ 2))
      ((1 - correlation ^ 2 * 2) / (1 - correlation ^ 2)) rfl (by ring) (by field_simp; ring)
      (div_pos hsecond hfirst),
    (reflect_three _ 0 _).2.1,
    levinsonStages_pairCorrelation (by decide) 0 (correlation ^ 2 / (1 - correlation ^ 2))
      (-(correlation ^ 3) / (1 - correlation ^ 2 * 2))
      (((1 - correlation ^ 2 * 2) ^ 2 - (correlation ^ 2) ^ 3) /
        ((1 - correlation ^ 2 * 2) * (1 - correlation ^ 2))) rfl (by field_simp)
      (by field_simp; ring) (div_pos hthird (mul_pos hsecond hfirst)),
    (reflect_three _ _ _).2.2, levinsonStages]
  refine congrArg Array.mk
    (congrArg _ (List.cons_eq_cons.mpr ⟨?_, List.cons_eq_cons.mpr ⟨?_, rfl⟩⟩))
  · field_simp
    ring
  · field_simp
    ring

private theorem sq_correlation_le {first second : ℝ} (hpower : 0 < first ^ 2 + second ^ 2) :
    (first * second / (first ^ 2 + second ^ 2)) ^ 2 ≤ 1 / 4 := by
  rw [div_pow, div_le_iff₀ (pow_pos hpower 2)]
  linarith [sq_nonneg (first ^ 2 - second ^ 2)]

/-- The first-order model of two samples. -/
private theorem fit_one {first second coefficient : ℝ} (hpower : 0 < first ^ 2 + second ^ 2)
    (hcoefficient : -(first * second / (first ^ 2 + second ^ 2)) = coefficient) :
    fit #[first, second] 1 = #[1, coefficient] := by
  have hcorrelation := sq_correlation_le hpower
  rw [fit_pair hpower, levinson_pairCorrelation_one (by linarith), hcoefficient]

/-! ### A segment on which the two ways differ -/

/-- The segment `1, -1` behind its ramp of three samples. -/
noncomputable def alternating : Signal ℝ := #[-1, 0, 1, 1, -1]

theorem withRamp_alternating : withRamp #[1, -1] 3 = alternating := by
  norm_num [withRamp, alternating, Signal.tabulate, Array.ofFn_succ, Signal.sample]

/-- Without lip radiation nothing is taken out. -/
theorem cancelLips_zero (signal : Signal ℝ) : cancelLips signal 0 = signal := by
  have hdenominator : Signal.series (#[1, -0] : Signal ℝ) = 1 := by
    ext index
    rw [Signal.coeff_series, PowerSeries.coeff_one]
    match index with
    | 0 => rfl
    | 1 => exact neg_zero
    | index + 2 => exact Signal.sample_of_size_le _ (Nat.le_add_left 2 index)
  symm
  apply Filter.eq_iir_of_agreeBelow rfl rfl
  rw [hdenominator, Filter.series_one]
  exact fun _ _ => rfl

theorem filtered_alternating (polynomial : Signal ℝ) :
    filtered alternating 3 polynomial =
      #[polynomial.sample 0 + polynomial.sample 1 - polynomial.sample 3,
        -polynomial.sample 0 + polynomial.sample 1 + polynomial.sample 2 -
          polynomial.sample 4] := by
  have hsample : ∀ index < 2, (filtered alternating 3 polynomial).sample index =
      ∑ delay ∈ Finset.range (3 + index + 1),
        polynomial.sample delay * alternating.sample (3 + index - delay) := by
    intro index hindex
    rw [filtered, afterRamp, Signal.sample_tabulate, Filter.size_fir,
      if_pos (show index < alternating.size - 3 from hindex),
      Filter.sample_fir _ _ (show 3 + index < 5 by omega), Filter.feedForward_eq_sum]
  apply Signal.ext_sample
  · rw [size_filtered]
    rfl
  · intro index hindex
    rw [size_filtered] at hindex
    have hindex : index < 2 := hindex
    rw [hsample index hindex]
    have hzero : alternating.sample 0 = -1 := rfl
    have hone : alternating.sample 1 = 0 := rfl
    have htwo : alternating.sample 2 = 1 := rfl
    have hthree : alternating.sample 3 = 1 := rfl
    have hfour : alternating.sample 4 = -1 := rfl
    interval_cases index <;>
      simp only [Finset.sum_range_succ, Finset.sum_range_zero, Nat.reduceAdd, Nat.reduceSub,
        hzero, hone, htwo, hthree, hfour]
    · change _ = polynomial.sample 0 + polynomial.sample 1 - polynomial.sample 3
      ring
    · change _ = -polynomial.sample 0 + polynomial.sample 1 + polynomial.sample 2 -
        polynomial.sample 4
      ring

private theorem filtered_linear (linear : ℝ) :
    filtered alternating 3 #[1, linear] = #[1 + linear, -1 + linear] := by
  rw [filtered_alternating]
  simp [Signal.sample]

private theorem filtered_cubic (linear quadratic cubic : ℝ) :
    filtered alternating 3 #[1, linear, quadratic, cubic] =
      #[1 + linear - cubic, -1 + linear + quadratic] := by
  rw [filtered_alternating]
  simp [Signal.sample]

/-- What the fine glottis of two samples leaves of the segment. -/
private theorem filtered_fit_three {first second correlation : ℝ}
    (hpower : 0 < first ^ 2 + second ^ 2)
    (hcorrelation : first * second / (first ^ 2 + second ^ 2) = correlation) :
    filtered alternating 3 (fit #[first, second] 3) =
      #[1 - correlation, (correlation ^ 3 + 3 * correlation ^ 2 - (1 + correlation)) /
        (1 - correlation ^ 2 * 2)] := by
  have hsmall := sq_correlation_le hpower
  rw [hcorrelation] at hsmall
  have hrest : 0 < 1 - correlation ^ 2 * 2 := by linarith
  rw [fit_pair hpower, hcorrelation, levinson_pairCorrelation_three hsmall, filtered_cubic]
  refine congrArg Array.mk (List.cons_eq_cons.mpr ⟨?_, List.cons_eq_cons.mpr ⟨?_, rfl⟩⟩)
  · field_simp
    ring
  · field_simp
    ring

/-- The fine vocal tract that follows from a gross one, and the sign of its coefficient. -/
private theorem fit_fineGlottis {grossTract correlation : ℝ}
    (hcorrelation : (1 + grossTract) * (-1 + grossTract) /
      ((1 + grossTract) ^ 2 + (-1 + grossTract) ^ 2) = correlation) :
    ∃ fineTract, fit (filtered alternating 3 (fit (filtered alternating 3 #[1, grossTract]) 3)) 1 =
        #[1, fineTract] ∧
      (0 < fineTract ↔ correlation ^ 3 + 3 * correlation ^ 2 < 1 + correlation) := by
  have hpower : 0 < (1 + grossTract) ^ 2 + (-1 + grossTract) ^ 2 := by
    nlinarith [sq_nonneg grossTract]
  have hsmall := sq_correlation_le hpower
  rw [hcorrelation] at hsmall
  have hbelow : 0 < 1 - correlation := by nlinarith
  have hrest : 0 < 1 - correlation ^ 2 * 2 := by linarith
  have hfine := filtered_fit_three hpower hcorrelation
  obtain ⟨second, hsecond⟩ : ∃ second, second =
      (correlation ^ 3 + 3 * correlation ^ 2 - (1 + correlation)) / (1 - correlation ^ 2 * 2) :=
    ⟨_, rfl⟩
  rw [← hsecond] at hfine
  have hfinePower : 0 < (1 - correlation) ^ 2 + second ^ 2 :=
    add_pos_of_pos_of_nonneg (pow_pos hbelow 2) (sq_nonneg second)
  refine ⟨-((1 - correlation) * second / ((1 - correlation) ^ 2 + second ^ 2)), ?_, ?_⟩
  · rw [filtered_linear, hfine, fit_one hfinePower rfl]
  · rw [neg_pos, div_lt_iff₀ hfinePower, zero_mul, mul_neg_iff_of_factor_pos hbelow, hsecond,
      div_lt_iff₀ hrest, zero_mul, sub_neg]

/-- The first sample of the source of `1, -1` in terms of its gross vocal tract. -/
private theorem one_lt_sample_sourceOf (gross : Signal ℝ → Nat → Signal ℝ → Signal ℝ)
    {first second grossTract correlation : ℝ}
    (hgross : filtered alternating 3 (gross alternating 3 #[1, 1 / 2]) = #[first, second])
    (hpower : 0 < first ^ 2 + second ^ 2)
    (htract : -(first * second / (first ^ 2 + second ^ 2)) = grossTract)
    (hcorrelation : (1 + grossTract) * (-1 + grossTract) /
      ((1 + grossTract) ^ 2 + (-1 + grossTract) ^ 2) = correlation) :
    1 < (sourceOf gross #[1, -1] ⟨1, 3, 0⟩).sample 0 ↔
      correlation ^ 3 + 3 * correlation ^ 2 < 1 + correlation := by
  obtain ⟨fineTract, hfine, hsign⟩ := fit_fineGlottis hcorrelation
  have hramp : rampLength (⟨1, 3, 0⟩ : Parameters ℝ) = 3 := rfl
  have hstart : fit (#[1, -1] : Signal ℝ) 1 = #[1, 1 / 2] :=
    fit_one (by norm_num) (by norm_num)
  rw [sourceOf, hramp, withRamp_alternating]
  dsimp only
  rw [cancelLips_zero, cancelLips_zero, hstart, hgross, fit_one hpower htract, hfine,
    filtered_linear, ← hsign]
  simp [Signal.sample]

/-! ### Three stages -/

private theorem convolve_linear (left right : ℝ) :
    Filter.convolve #[1, left] #[1, right] = #[1, right + left, left * right] := by
  simp [Filter.convolve, Signal.tabulate, Array.ofFn_succ, Signal.sample, sumRange_eq_sum,
    Finset.sum_range_succ]

private theorem convolve_quadratic (linear quadratic right : ℝ) :
    Filter.convolve #[1, linear, quadratic] #[1, right] =
      #[1, right + linear, linear * right + quadratic, quadratic * right] := by
  simp [Filter.convolve, Signal.tabulate, Array.ofFn_succ, Signal.sample, sumRange_eq_sum,
    Finset.sum_range_succ]

private theorem filtered_quadratic (linear quadratic : ℝ) :
    filtered alternating 3 #[1, linear, quadratic] =
      #[1 + linear, -1 + linear + quadratic] := by
  rw [filtered_alternating]
  simp [Signal.sample]

private theorem fit_second_stage : fit (filtered alternating 3 #[1, 1 / 2]) 1 = #[1, 3 / 10] := by
  rw [filtered_linear]
  exact fit_one (by norm_num) (by norm_num)

/-- What the gross glottis leaves if the third stage is fitted behind the second one alone. -/
theorem filtered_stageProduct_alternating :
    filtered alternating 3 (stageProduct alternating 3 #[1, 1 / 2] 2) =
      #[1879 / 872, 1529 / 2180] := by
  have hthird : fit (filtered alternating 3 #[1, 3 / 10]) 1 = #[1, 91 / 218] := by
    rw [filtered_linear]
    exact fit_one (by norm_num) (by norm_num)
  simp only [stageProduct, stageModel]
  rw [fit_second_stage, hthird, convolve_linear, convolve_quadratic, filtered_cubic]
  norm_num

/-- What it leaves if the third stage is fitted behind the two before it. -/
theorem filtered_composedModel_alternating :
    filtered alternating 3 (composedModel alternating 3 #[1, 1 / 2] 2) =
      #[11826 / 6485, -1 / 25940] := by
  have hthird : fit (filtered alternating 3 #[1, 3 / 10 + 1 / 2, 1 / 2 * (3 / 10)]) 1 =
      #[1, 36 / 1297] := by
    rw [filtered_quadratic]
    exact fit_one (by norm_num) (by norm_num)
  simp only [composedModel]
  rw [fit_second_stage, convolve_linear, hthird, convolve_quadratic, filtered_cubic]
  norm_num

end Pairs

/-- The source of `1, -1` with a glottis model of third order starts above one, and starts
below one if each refinement filters by the model composed so far. -/
theorem not_forall_inverseFilter_eq_composedSource :
    ¬ ∀ (segment : Signal ℝ) (parameters : Parameters ℝ), 2 ≤ segment.size →
      1 ≤ parameters.vocalTractOrder → 1 ≤ parameters.glottisOrder →
        inverseFilter segment parameters = .ok (composedSource segment parameters) := by
  intro hall
  have hsource := hall #[1, -1] ⟨1, 3, 0⟩ (by decide) (by decide) (by decide)
  have hvalid : validate (#[1, -1] : Signal ℝ) ⟨1, 3, 0⟩ = .ok () :=
    validate_eq_ok (by decide) (by decide) (by decide) rfl (Signal.allFinite_real _)
  rw [inverseFilter, hvalid, source_eq_stagewiseSource] at hsource
  have hsame : stagewiseSource (#[1, -1] : Signal ℝ) ⟨1, 3, 0⟩ =
      composedSource #[1, -1] ⟨1, 3, 0⟩ := Except.ok.inj hsource
  have hstagewise := (one_lt_sample_sourceOf
    (fun extended ramp first => stageProduct extended ramp first 2)
    filtered_stageProduct_alternating (by norm_num) rfl rfl).mpr (by norm_num)
  have hcomposed := (one_lt_sample_sourceOf
    (fun extended ramp first => composedModel extended ramp first 2)
    filtered_composedModel_alternating (by norm_num) rfl rfl).not.mpr (by norm_num)
  rw [stagewiseSource, composedSource] at hsame
  exact hcomposed (hsame ▸ hstagewise)

end Glottis.InverseFilter
