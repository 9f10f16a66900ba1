import Mathlib
import Glottis.Filter
import Glottis.Proofs.ExactArithmetic

/-!
# Filters in a row

The samples of a signal are the coefficients of a power series.  The full convolution is the
product of two series, and the all-zero filter is the same product up to the length of the
signal.  A coefficient of a product depends on no later coefficient of its factors, so what a
filter leaves out at the end of a signal is not missed by the next one: filters in a row
multiply, in any order.
-/

namespace Glottis

open PowerSeries

def AgreeBelow (length : Nat) (left right : ℝ⟦X⟧) : Prop :=
  ∀ index < length, coeff index left = coeff index right

namespace AgreeBelow

variable {length : Nat} {left middle right : ℝ⟦X⟧}

theorem symm (hagree : AgreeBelow length left right) : AgreeBelow length right left :=
  fun index hindex => (hagree index hindex).symm

theorem trans (hleft : AgreeBelow length left middle) (hright : AgreeBelow length middle right) :
    AgreeBelow length left right :=
  fun index hindex => (hleft index hindex).trans (hright index hindex)

/-- No coefficient of a product depends on a later coefficient of a factor. -/
theorem mul_left (hagree : AgreeBelow length left right) (factor : ℝ⟦X⟧) :
    AgreeBelow length (factor * left) (factor * right) := by
  intro index hindex
  rw [coeff_mul, coeff_mul]
  apply Finset.sum_congr rfl
  intro split hsplit
  have hsum := Finset.HasAntidiagonal.mem_antidiagonal.mp hsplit
  rw [hagree split.2 (by omega)]

end AgreeBelow

namespace Signal

noncomputable def series (signal : Signal ℝ) : ℝ⟦X⟧ := PowerSeries.mk signal.sample

@[simp]
theorem coeff_series (signal : Signal ℝ) (index : Nat) :
    coeff index signal.series = signal.sample index :=
  coeff_mk index signal.sample

theorem coeff_series_mul (left right : Signal ℝ) (index : Nat) :
    coeff index (left.series * right.series) =
      ∑ delay ∈ Finset.range (index + 1), left.sample delay * right.sample (index - delay) := by
  rw [coeff_mul, Finset.Nat.sum_antidiagonal_eq_sum_range_succ_mk]
  simp only [coeff_series]

/-- A signal is determined by its length and by its series up to there. -/
theorem eq_of_agreeBelow {left right : Signal ℝ} (hsize : left.size = right.size)
    (hagree : AgreeBelow left.size left.series right.series) : left = right := by
  apply ext_sample hsize
  intro index hindex
  rw [← coeff_series, ← coeff_series]
  exact hagree index hindex

theorem eq_of_series_eq {left right : Signal ℝ} (hsize : left.size = right.size)
    (hseries : left.series = right.series) : left = right :=
  eq_of_agreeBelow hsize fun index _ => congrArg (coeff index) hseries

end Signal

namespace Filter

/-! ## The series of a filtered signal -/

theorem feedForward_eq_sum (coefficients signal : Signal ℝ) (index : Nat) :
    feedForward coefficients signal index =
      ∑ delay ∈ Finset.range (index + 1),
        coefficients.sample delay * signal.sample (index - delay) := by
  rw [feedForward, sumRange_eq_sum]
  apply Finset.sum_subset (Finset.range_mono (Nat.min_le_left _ _))
  intro delay hdelay houtside
  rw [Finset.mem_range] at hdelay houtside
  rw [Signal.sample_of_size_le coefficients (by omega), zero_mul]

/-- The delays that the convolution leaves out read outside one of the two signals. -/
theorem sample_convolve (left right : Signal ℝ) (index : Nat) :
    (convolve left right).sample index =
      ∑ delay ∈ Finset.range (index + 1), left.sample delay * right.sample (index - delay) := by
  have houtside : ∀ delay, left.size ≤ delay ∨ right.size ≤ index - delay →
      left.sample delay * right.sample (index - delay) = 0 := by
    intro delay hdelay
    cases hdelay with
    | inl hleft => rw [Signal.sample_of_size_le left hleft, zero_mul]
    | inr hright => rw [Signal.sample_of_size_le right hright, mul_zero]
  by_cases hinside : index < (convolve left right).size
  · rw [size_convolve] at hinside
    split at hinside
    case isTrue => omega
    case isFalse hnonempty =>
      rw [convolve, if_neg hnonempty, Signal.sample_tabulate, if_pos hinside]
      dsimp only
      rw [sumRange_eq_sum, ← Finset.sum_Ico_eq_sum_range (fun delay =>
        left.sample delay * right.sample (index - delay))]
      apply Finset.sum_subset
      · intro delay hdelay
        rw [Finset.mem_Ico] at hdelay
        rw [Finset.mem_range]
        omega
      · intro delay hdelay hleftOut
        rw [Finset.mem_range] at hdelay
        rw [Finset.mem_Ico] at hleftOut
        exact houtside delay (by omega)
  · rw [Signal.sample_of_size_le _ (not_lt.mp hinside)]
    rw [size_convolve] at hinside
    symm
    apply Finset.sum_eq_zero
    intro delay hdelay
    rw [Finset.mem_range] at hdelay
    refine houtside delay ?_
    split at hinside <;> omega

theorem series_convolve (left right : Signal ℝ) :
    (convolve left right).series = left.series * right.series := by
  ext index
  rw [Signal.coeff_series, sample_convolve, Signal.coeff_series_mul]

theorem agreeBelow_series_fir (coefficients signal : Signal ℝ) :
    AgreeBelow signal.size (fir coefficients signal).series
      (coefficients.series * signal.series) := by
  intro index hindex
  rw [Signal.coeff_series, sample_fir _ _ hindex, feedForward_eq_sum, Signal.coeff_series_mul]

/-- Whatever agrees with the product of the series is the filtered signal. -/
theorem eq_fir_of_agreeBelow {coefficients signal output : Signal ℝ}
    (hsize : output.size = signal.size)
    (hagree : AgreeBelow signal.size output.series (coefficients.series * signal.series)) :
    output = fir coefficients signal := by
  apply Signal.eq_of_agreeBelow
  · rw [hsize, size_fir]
  · rw [hsize]
    exact hagree.trans (agreeBelow_series_fir coefficients signal).symm

/-! ## Convolutions -/

theorem convolve_comm (left right : Signal ℝ) : convolve left right = convolve right left := by
  apply Signal.eq_of_series_eq
  · rw [size_convolve, size_convolve, Nat.add_comm]
    exact if_congr or_comm rfl rfl
  · rw [series_convolve, series_convolve, mul_comm]

theorem convolve_assoc (left middle right : Signal ℝ) :
    convolve (convolve left middle) right = convolve left (convolve middle right) := by
  apply Signal.eq_of_series_eq
  · simp only [size_convolve]
    split_ifs <;> omega
  · simp only [series_convolve, mul_assoc]

/-! ## Filters -/

/-- The filter cuts the convolution off at the length of the signal, and pads it with zeros
where the coefficients are empty. -/
theorem fir_eq_tabulate_convolve (coefficients signal : Signal ℝ) :
    fir coefficients signal = .tabulate signal.size (convolve coefficients signal).sample := by
  symm
  apply eq_fir_of_agreeBelow (Signal.size_tabulate _ _)
  intro index hindex
  rw [← series_convolve, Signal.coeff_series, Signal.coeff_series, Signal.sample_tabulate,
    if_pos hindex]

theorem agreeBelow_series_fir_fir (outer inner signal : Signal ℝ) :
    AgreeBelow signal.size (fir outer (fir inner signal)).series
      (outer.series * inner.series * signal.series) := by
  have houter := agreeBelow_series_fir outer (fir inner signal)
  rw [size_fir] at houter
  rw [mul_assoc]
  exact houter.trans ((agreeBelow_series_fir inner signal).mul_left outer.series)

theorem fir_fir (outer inner signal : Signal ℝ) :
    fir outer (fir inner signal) = fir (convolve outer inner) signal := by
  apply eq_fir_of_agreeBelow
  · rw [size_fir, size_fir]
  · rw [series_convolve]
    exact agreeBelow_series_fir_fir outer inner signal

theorem fir_comm (left right signal : Signal ℝ) :
    fir left (fir right signal) = fir right (fir left signal) := by
  rw [fir_fir, convolve_comm, ← fir_fir]

/-- The convolution is commutative and associative.  The all-zero filter is its beginning, as
long as the signal, and the filter by a convolution is the filters by its factors one after
the other, in either order.  Any of the signals may be empty or longer than the others. -/
theorem filter_cascade (first second third signal : Signal ℝ) :
    convolve first second = convolve second first ∧
      convolve (convolve first second) third = convolve first (convolve second third) ∧
      fir first signal = .tabulate signal.size (convolve first signal).sample ∧
      fir (convolve first second) signal = fir first (fir second signal) ∧
      fir (convolve first second) signal = fir second (fir first signal) := by
  refine ⟨convolve_comm first second, convolve_assoc first second third,
    fir_eq_tabulate_convolve first signal, (fir_fir first second signal).symm, ?_⟩
  rw [← fir_fir, fir_comm]

end Filter

end Glottis
