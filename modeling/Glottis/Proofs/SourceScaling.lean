import Mathlib
import Glottis.Proofs.GlottisRefinement

/-!
# The source of a scaled segment

Every signal inside the inverse filter is a linear function of the segment once the models are
given: the ramp, the integrator of the lip radiation, the filters and the window.  The models
are the same for a segment and its multiples, because the correlations they are fitted to are
multiplied by one positive number.  Only the factor zero changes them, and then all signals are
silent.
-/

namespace Glottis.InverseFilter

open LinearPrediction

variable (segment extended : Signal ℝ) (ramp : Nat) (factor : ℝ)

/-! ## Signals -/

theorem withRamp_scaled :
    withRamp (segment.scaled factor) ramp = (withRamp segment ramp).scaled factor := by
  rw [withRamp, withRamp, Signal.scaled_tabulate, Signal.size_scaled]
  congr 1
  funext index
  simp only [Signal.sample_scaled]
  split
  · ring
  · rfl

theorem cancelLips_scaled (lipRadiation : ℝ) :
    cancelLips (segment.scaled factor) lipRadiation =
      (cancelLips segment lipRadiation).scaled factor :=
  Filter.iir_scaled _ _ segment factor

theorem filtered_scaled (polynomial : Signal ℝ) :
    filtered (extended.scaled factor) ramp polynomial =
      (filtered extended ramp polynomial).scaled factor := by
  simp only [filtered, afterRamp, Filter.fir_scaled, Signal.size_scaled, Signal.scaled_tabulate,
    Signal.sample_scaled]

theorem tapered_scaled : tapered (segment.scaled factor) = (tapered segment).scaled factor := by
  simp only [tapered, Signal.size_scaled, Signal.scaled_tabulate, Signal.sample_scaled, mul_assoc]

/-! ## Models -/

section Models

variable {factor} (hfactor : factor ≠ 0)

include hfactor

theorem fit_scaled (order : Nat) : fit (segment.scaled factor) order = fit segment order := by
  rw [fit, tapered_scaled, tabulate_autocorrelation_scaled,
    levinson_scaled _ _ (sq_pos_of_ne_zero hfactor)]
  rfl

theorem refineGlottis_scaled (remaining : Nat) (stage composed : Signal ℝ) :
    refineGlottis (extended.scaled factor) ramp remaining stage composed =
      refineGlottis extended ramp remaining stage composed := by
  induction remaining generalizing stage composed with
  | zero => rfl
  | succ remaining ih =>
      rw [refineGlottis, refineGlottis, filtered_scaled, fit_scaled _ hfactor]
      exact ih _ _

theorem vocalTract_scaled (parameters : Parameters ℝ) :
    vocalTract (segment.scaled factor) (extended.scaled factor) parameters =
      vocalTract segment extended parameters := by
  simp only [vocalTract, filtered_scaled, fit_scaled _ hfactor,
    refineGlottis_scaled extended _ hfactor]

end Models

/-! ## The source -/

theorem filtered_scaled_zero (left right : Signal ℝ) :
    (filtered extended ramp left).scaled 0 = (filtered extended ramp right).scaled 0 := by
  apply Signal.ext_sample
  · rw [Signal.size_scaled, Signal.size_scaled, size_filtered, size_filtered]
  · intro index _
    rw [Signal.sample_scaled, Signal.sample_scaled, zero_mul, zero_mul]

theorem source_scaled (parameters : Parameters ℝ) :
    source (segment.scaled factor) parameters = (source segment parameters).scaled factor := by
  simp only [source, withRamp_scaled, cancelLips_scaled, filtered_scaled]
  by_cases hfactor : factor = 0
  · rw [hfactor]
    exact filtered_scaled_zero _ _ _ _
  · rw [vocalTract_scaled _ _ hfactor]

theorem size_source (parameters : Parameters ℝ) :
    (source segment parameters).size = segment.size := by
  rw [source_eq_stagewiseSource, size_stagewiseSource]

/-- Every segment of at least two samples has a source of its length, for every lip radiation
and all orders from one on.  The source of a multiple of the segment is that multiple of the
source, also for a negative factor and for zero. -/
theorem inverseFilter_homogeneous (parameters : Parameters ℝ) (hsize : 2 ≤ segment.size)
    (hvocalTract : 1 ≤ parameters.vocalTractOrder) (hglottis : 1 ≤ parameters.glottisOrder) :
    ∃ output, inverseFilter segment parameters = .ok output ∧ output.size = segment.size ∧
      (∀ factor, inverseFilter (segment.scaled factor) parameters =
        .ok (output.scaled factor)) ∧
      (fitsIndex segment.size parameters = true → ∀ factor,
        indexedInverseFilter (segment.scaled factor) parameters = .ok (output.scaled factor)) := by
  have hvalid : ∀ factor, validate (segment.scaled factor) parameters = .ok () := fun factor =>
    validate_eq_ok (by rwa [Signal.size_scaled]) hvocalTract hglottis rfl
      (Signal.allFinite_real _)
  have hscaled : ∀ factor, inverseFilter (segment.scaled factor) parameters =
      .ok ((source segment parameters).scaled factor) := by
    intro factor
    rw [inverseFilter, hvalid, source_scaled]
    rfl
  refine ⟨source segment parameters, ?_, size_source segment parameters, hscaled,
    fun hfits factor => ?_⟩
  · have hone := hscaled 1
    rwa [Signal.scaled_one, Signal.scaled_one] at hone
  · rw [indexedInverseFilter, hvalid, Signal.size_scaled, hfits, source_scaled]
    rfl

/-- A segment whose models are not the polynomial one, turned upside down. -/
theorem inverseFilter_homogeneous_of_two_samples :
    ∃ output : Signal ℝ, inverseFilter #[1, -1] ⟨1, 3, 1 / 2⟩ = .ok output ∧ output.size = 2 ∧
      inverseFilter (Signal.scaled #[1, -1] (-2)) ⟨1, 3, 1 / 2⟩ = .ok (output.scaled (-2)) ∧
      inverseFilter (Signal.scaled #[1, -1] 0) ⟨1, 3, 1 / 2⟩ = .ok (output.scaled 0) := by
  obtain ⟨output, houtput, hsize, hscaled, _⟩ :=
    inverseFilter_homogeneous #[1, -1] ⟨1, 3, 1 / 2⟩ (by decide) (by decide) (by decide)
  exact ⟨output, houtput, hsize, hscaled (-2), hscaled 0⟩

end Glottis.InverseFilter
