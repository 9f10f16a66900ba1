import Mathlib
import Glottis.Proofs.FilterCascade

/-!
# Recursive filters

The recursive filter divides by the series of its denominator.  If the denominator starts with
one, its product with the series of the output is that of the numerator with the series of the
signal, up to the length of the signal.  Such a denominator has an inverse series, so nothing
else has this product: every equation between filters follows from one between products.
-/

namespace Glottis

open PowerSeries

namespace AgreeBelow

/-- A factor that does not start with zero can be taken out. -/
theorem of_mul_left {length : Nat} {factor left right : ℝ⟦X⟧} (hfactor : constantCoeff factor ≠ 0)
    (hagree : AgreeBelow length (factor * left) (factor * right)) :
    AgreeBelow length left right := by
  have hdivided := hagree.mul_left factor⁻¹
  rwa [← mul_assoc, ← mul_assoc, PowerSeries.inv_mul_cancel factor hfactor, one_mul,
    one_mul] at hdivided

end AgreeBelow

namespace Filter

variable {numerator denominator signal : Signal ℝ}

/-! ## The output -/

/-- An output is the moving sum of the signal, less the earlier outputs weighted with the
coefficients behind the leading one. -/
theorem sample_iir (numerator denominator : Signal ℝ) {index : Nat}
    (hindex : index < signal.size) :
    (iir numerator denominator signal).sample index =
      feedForward numerator signal index -
        ∑ delay ∈ Finset.range index, denominator.sample (delay + 1) *
          (iir numerator denominator signal).sample (index - (delay + 1)) /
            leading denominator := by
  have hpast : ∀ delay, index - (delay + 1) < index →
      (Signal.grow index (recursiveStep numerator denominator signal)).sample
          (index - (delay + 1)) =
        (iir numerator denominator signal).sample (index - (delay + 1)) := by
    intro delay hdelay
    rw [iir, Signal.sample_grow index _ hdelay, Signal.sample_grow signal.size _ (by omega)]
  rw [iir, Signal.sample_grow _ _ hindex, recursiveStep, fold_sub_eq_sub_sum, ← iir]
  congr 1
  calc ∑ delay ∈ Finset.range (min (index + 1) denominator.size - 1),
        denominator.sample (delay + 1) *
          (Signal.grow index (recursiveStep numerator denominator signal)).sample
            (index - (delay + 1)) / leading denominator
      = ∑ delay ∈ Finset.range (min (index + 1) denominator.size - 1),
        denominator.sample (delay + 1) *
          (iir numerator denominator signal).sample (index - (delay + 1)) /
            leading denominator := by
        apply Finset.sum_congr rfl
        intro delay hdelay
        rw [Finset.mem_range] at hdelay
        rw [hpast delay (by omega)]
    _ = ∑ delay ∈ Finset.range index, denominator.sample (delay + 1) *
          (iir numerator denominator signal).sample (index - (delay + 1)) /
            leading denominator := by
        apply Finset.sum_subset (Finset.range_mono (by omega))
        intro delay hdelay houtside
        rw [Finset.mem_range] at hdelay houtside
        rw [Signal.sample_of_size_le denominator (by omega), zero_mul, zero_div]

theorem leading_eq_one (hleading : denominator.sample 0 = 1) : leading denominator = 1 := by
  rw [leading, hleading, ite_self]

theorem agreeBelow_series_iir (numerator signal : Signal ℝ)
    (hleading : denominator.sample 0 = 1) :
    AgreeBelow signal.size (denominator.series * (iir numerator denominator signal).series)
      (numerator.series * signal.series) := by
  intro index hindex
  rw [Signal.coeff_series_mul, Signal.coeff_series_mul, ← feedForward_eq_sum numerator,
    Finset.sum_range_succ', hleading, one_mul, Nat.sub_zero, sample_iir _ _ hindex,
    leading_eq_one hleading]
  simp only [div_one]
  exact add_sub_cancel _ _

/-- The output is the only signal of its length with this product. -/
theorem eq_iir_of_agreeBelow (hleading : denominator.sample 0 = 1) {output : Signal ℝ}
    (hsize : output.size = signal.size)
    (hagree : AgreeBelow signal.size (denominator.series * output.series)
      (numerator.series * signal.series)) :
    output = iir numerator denominator signal := by
  have hconstant : constantCoeff denominator.series ≠ 0 := by
    rw [← coeff_zero_eq_constantCoeff_apply, Signal.coeff_series, hleading]
    exact one_ne_zero
  apply Signal.eq_of_agreeBelow
  · rw [hsize, size_iir]
  · rw [hsize]
    exact (hagree.trans (agreeBelow_series_iir numerator signal hleading).symm).of_mul_left
      hconstant

/-! ## Synthesis and whitening -/

theorem series_one : Signal.series (#[1] : Signal ℝ) = 1 := by
  ext index
  rw [Signal.coeff_series, coeff_one]
  cases index with
  | zero => rfl
  | succ index => exact Signal.sample_of_size_le _ (Nat.le_add_left 1 index)

/-- The synthesis filter undoes the whitening filter. -/
theorem iir_fir (hleading : denominator.sample 0 = 1) (signal : Signal ℝ) :
    iir #[1] denominator (fir denominator signal) = signal := by
  symm
  apply eq_iir_of_agreeBelow hleading (size_fir _ _).symm
  rw [size_fir, series_one, one_mul]
  exact (agreeBelow_series_fir denominator signal).symm

/-- The whitening filter undoes the synthesis filter. -/
theorem fir_iir (hleading : denominator.sample 0 = 1) (signal : Signal ℝ) :
    fir denominator (iir #[1] denominator signal) = signal := by
  symm
  apply eq_fir_of_agreeBelow (size_iir _ _ _).symm
  have hproduct := agreeBelow_series_iir #[1] signal hleading
  rw [series_one, one_mul] at hproduct
  rw [size_iir]
  exact hproduct.symm

/-- The numerator may be applied before the feedback. -/
theorem iir_eq_iir_fir (numerator : Signal ℝ) (hleading : denominator.sample 0 = 1)
    (signal : Signal ℝ) :
    iir numerator denominator signal = iir #[1] denominator (fir numerator signal) := by
  apply eq_iir_of_agreeBelow hleading
  · rw [size_iir, size_fir]
  · rw [size_fir, series_one, one_mul]
    exact (agreeBelow_series_iir numerator signal hleading).trans
      (agreeBelow_series_fir numerator signal).symm

/-- The numerator may be applied behind the feedback. -/
theorem iir_eq_fir_iir (numerator : Signal ℝ) (hleading : denominator.sample 0 = 1)
    (signal : Signal ℝ) :
    iir numerator denominator signal = fir numerator (iir #[1] denominator signal) := by
  have hwhitened : iir numerator denominator signal =
      iir #[1] denominator (fir denominator (fir numerator (iir #[1] denominator signal))) := by
    rw [fir_comm denominator, fir_iir hleading, ← iir_eq_iir_fir numerator hleading]
  rw [hwhitened, iir_fir hleading]

/-- With a denominator that starts with one, the recursive filter and the all-zero filter undo
each other, and the recursive filter with a numerator is both in a row, in either order.  The
signal may be shorter than the denominator and the numerator. -/
theorem recursive_filter_inverts (numerator denominator signal : Signal ℝ)
    (hleading : denominator.sample 0 = 1) :
    iir #[1] denominator (fir denominator signal) = signal ∧
      fir denominator (iir #[1] denominator signal) = signal ∧
      iir numerator denominator signal = iir #[1] denominator (fir numerator signal) ∧
      iir numerator denominator signal = fir numerator (iir #[1] denominator signal) :=
  ⟨iir_fir hleading signal, fir_iir hleading signal, iir_eq_iir_fir numerator hleading signal,
    iir_eq_fir_iir numerator hleading signal⟩

/-- An integrator and a numerator that are both longer than the signal. -/
theorem recursive_filter_inverts_of_short_signal :
    iir #[1] #[1, -1, 1 / 2] (fir #[1, -1, 1 / 2] #[3, 5]) = (#[3, 5] : Signal ℝ) ∧
      fir #[1, -1, 1 / 2] (iir #[1] #[1, -1, 1 / 2] #[3, 5]) = (#[3, 5] : Signal ℝ) ∧
      iir #[2, 0, 4] #[1, -1, 1 / 2] (#[3, 5] : Signal ℝ) =
        iir #[1] #[1, -1, 1 / 2] (fir #[2, 0, 4] #[3, 5]) ∧
      iir #[2, 0, 4] #[1, -1, 1 / 2] (#[3, 5] : Signal ℝ) =
        fir #[2, 0, 4] (iir #[1] #[1, -1, 1 / 2] #[3, 5]) :=
  recursive_filter_inverts #[2, 0, 4] #[1, -1, 1 / 2] #[3, 5] rfl

end Filter

end Glottis
