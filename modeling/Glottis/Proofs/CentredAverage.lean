import Mathlib
import Glottis.Proofs.AverageSlices
import Glottis.Proofs.WindowWeights

/-!
# The centred average

The causal filter behind the mean-based signal looks back over twice the half window, and its
output is moved back by half of that.  As the weights are the same from both ends, what comes
out is an average around each sample, with no delay.  It therefore sees a signal played
backwards as the average played backwards, and it keeps a constant level.
-/

namespace Glottis

/-! ## Signals played backwards -/

namespace Signal

theorem sample_reverse {α : Type} [Scalar α] (signal : Signal α) {index : Nat}
    (hindex : index < signal.size) :
    sample signal.reverse index = signal.sample (signal.size - 1 - index) := by
  have hreversed : index < signal.reverse.size := by rwa [Array.size_reverse]
  have hmirrored : signal.size - 1 - index < signal.size := by omega
  rw [sample_eq_getElem _ hreversed, sample_eq_getElem _ hmirrored, Array.getElem_reverse]

private theorem peak_reverse_le (signal : Signal ℝ) : peak signal.reverse ≤ signal.peak := by
  have hpeak : 0 ≤ signal.peak := (abs_nonneg _).trans (signal.abs_sample_le_peak 0)
  apply peak_le hpeak
  intro index hindex
  rw [Array.size_reverse] at hindex
  rw [sample_reverse signal hindex]
  exact signal.abs_sample_le_peak _

theorem peak_reverse (signal : Signal ℝ) : peak signal.reverse = signal.peak := by
  apply le_antisymm (peak_reverse_le signal)
  calc
    signal.peak = peak signal.reverse.reverse := by rw [Array.reverse_reverse]
    _ ≤ peak signal.reverse := peak_reverse_le _

theorem normalize_reverse (signal : Signal ℝ) :
    normalize signal.reverse = signal.normalize.reverse := by
  rw [normalize, normalize, peak_reverse]
  split
  case isTrue => rw [Array.map_reverse]
  case isFalse => rfl

end Signal

/-! ## Sums around a centre -/

theorem sum_around_eq_sum_range (half : Nat) (term : ℤ → ℝ) :
    ∑ offset ∈ Finset.Icc (-(half : ℤ)) half, term offset =
      ∑ place ∈ Finset.range (2 * half + 1), term (place - half) := by
  apply Finset.sum_nbij' (fun offset : ℤ => (offset + half).toNat)
    (fun place : Nat => (place : ℤ) - half)
  · intro offset hoffset
    rw [Finset.mem_Icc] at hoffset
    rw [Finset.mem_range]
    omega
  · intro place hplace
    rw [Finset.mem_range] at hplace
    rw [Finset.mem_Icc]
    omega
  · intro offset hoffset
    rw [Finset.mem_Icc] at hoffset
    omega
  · intro place _
    omega
  · intro offset hoffset
    rw [Finset.mem_Icc] at hoffset
    congr 1
    omega

theorem sum_around_neg (half : Nat) (term : ℤ → ℝ) :
    ∑ offset ∈ Finset.Icc (-(half : ℤ)) half, term (-offset) =
      ∑ offset ∈ Finset.Icc (-(half : ℤ)) half, term offset := by
  apply Finset.sum_equiv (Equiv.neg ℤ)
  · intro offset
    rw [Equiv.neg_apply, Finset.mem_Icc, Finset.mem_Icc]
    omega
  · intro offset _
    rw [Equiv.neg_apply]

namespace MeanBased

/-! ## The weights -/

/-- The weight at an offset from the centre of the window. -/
noncomputable def centredWeight (half : Nat) (offset : ℤ) : ℝ :=
  (weights half).sample (offset + half).toNat

/-- A weight of the window and its share of the total. -/
theorem sample_weights {half place : Nat} (hplace : place < 2 * half + 1) :
    (weights half : Signal ℝ).sample place =
      WindowKind.blackmanHarris.shape.weight (2 * half + 1) place /
        ∑ other ∈ Finset.range (2 * half + 1),
          (WindowKind.blackmanHarris.shape : Window ℝ).weight (2 * half + 1) other := by
  have htotal : ∀ other ∈ Finset.range (2 * half + 1),
      (Signal.tabulate (2 * half + 1) (WindowKind.blackmanHarris.shape.weight (2 * half + 1)) :
        Signal ℝ).sample other = WindowKind.blackmanHarris.shape.weight (2 * half + 1) other := by
    intro other hother
    rw [Signal.sample_tabulate, if_pos (Finset.mem_range.mp hother)]
  rw [weights, Signal.sample_map _ _ (zero_div _), Signal.size_tabulate, sumLanes_eq_sum,
    htotal place (Finset.mem_range.mpr hplace), Finset.sum_congr rfl htotal]

private theorem total_pos (half : Nat) :
    0 < ∑ place ∈ Finset.range (2 * half + 1),
      (WindowKind.blackmanHarris.shape : Window ℝ).weight (2 * half + 1) place :=
  Finset.sum_pos (fun place _ => Window.weight_blackmanHarris_pos _ place)
    (Finset.nonempty_range_iff.mpr (Nat.succ_ne_zero _))

theorem sample_weights_pos {half place : Nat} (hplace : place < 2 * half + 1) :
    0 < (weights half : Signal ℝ).sample place := by
  rw [sample_weights hplace]
  exact div_pos (Window.weight_blackmanHarris_pos _ place) (total_pos half)

/-- The weights are the same from both ends of the window. -/
theorem sample_weights_symm {half place : Nat} (hhalf : 1 ≤ half) (hplace : place < 2 * half + 1) :
    (weights half : Signal ℝ).sample (2 * half - place) = (weights half).sample place := by
  have hmirrored : 2 * half - place < 2 * half + 1 := by omega
  have hlength : 2 ≤ 2 * half + 1 := by omega
  have hsymm := Window.weight_cosineSum_symm [0.35875, 0.48829, 0.14128, 0.01168] hlength hplace
  rw [Nat.add_sub_cancel] at hsymm
  rw [sample_weights hmirrored, sample_weights hplace, WindowKind.shape, hsymm]

theorem sum_sample_weights (half : Nat) :
    ∑ place ∈ Finset.range (2 * half + 1), (weights half : Signal ℝ).sample place = 1 := by
  calc
    ∑ place ∈ Finset.range (2 * half + 1), (weights half : Signal ℝ).sample place
        = ∑ place ∈ Finset.range (2 * half + 1),
            WindowKind.blackmanHarris.shape.weight (2 * half + 1) place /
              ∑ other ∈ Finset.range (2 * half + 1),
                (WindowKind.blackmanHarris.shape : Window ℝ).weight (2 * half + 1) other :=
      Finset.sum_congr rfl fun place hplace => sample_weights (Finset.mem_range.mp hplace)
    _ = 1 := by rw [← Finset.sum_div, div_self (total_pos half).ne']

section CentredWeights

variable {half : Nat} {offset : ℤ}

theorem centredWeight_pos (hoffset : offset ∈ Finset.Icc (-(half : ℤ)) half) :
    0 < centredWeight half offset := by
  rw [Finset.mem_Icc] at hoffset
  exact sample_weights_pos (by omega)

theorem centredWeight_neg (hhalf : 1 ≤ half) (hoffset : offset ∈ Finset.Icc (-(half : ℤ)) half) :
    centredWeight half (-offset) = centredWeight half offset := by
  rw [Finset.mem_Icc] at hoffset
  have hmirrored : (-offset + half).toNat = 2 * half - (offset + half).toNat := by omega
  rw [centredWeight, hmirrored]
  exact sample_weights_symm hhalf (by omega)

theorem sum_centredWeight (half : Nat) :
    ∑ offset ∈ Finset.Icc (-(half : ℤ)) half, centredWeight half offset = 1 := by
  rw [sum_around_eq_sum_range]
  simp only [centredWeight, sub_add_cancel, Int.toNat_natCast]
  exact sum_sample_weights half

end CentredWeights

/-! ## The average around a sample -/

variable {signal : Signal ℝ} {half index : Nat}

/-- The causal filter reads backwards from half a window ahead, which by the symmetry of the
weights is an average around the sample. -/
theorem sample_average (hhalf : 1 ≤ half) (hstart : half ≤ index)
    (hstop : index + half < signal.size) :
    (average signal half).sample index =
      ∑ offset ∈ Finset.Icc (-(half : ℤ)) half,
        centredWeight half offset * signal.sample (index + offset).toNat := by
  have hsize : (weights half : Signal ℝ).size = 2 * half + 1 := by
    rw [weights, Array.size_map, Signal.size_tabulate]
  have hcount : min (index + half + 1) (2 * half + 1) = 2 * half + 1 := min_eq_right (by omega)
  have hinside : index < signal.size := by omega
  rw [average, Signal.sample_tabulate, if_pos hinside, if_pos ⟨hstart, hstop⟩,
    Filter.feedForward, hsize, hcount, sumRange_eq_sum, sum_around_eq_sum_range,
    ← Finset.sum_range_reflect]
  apply Finset.sum_congr rfl
  intro place hplace
  rw [Finset.mem_range] at hplace
  have hmirrored : 2 * half + 1 - 1 - place = 2 * half - place := by omega
  have hread : index + half - (2 * half - place) = ((index : ℤ) + (place - half)).toNat := by omega
  rw [hmirrored, sample_weights_symm hhalf hplace, hread, centredWeight, sub_add_cancel,
    Int.toNat_natCast]

/-- The average of a signal played backwards is the average played backwards. -/
theorem average_reverse (signal : Signal ℝ) (hhalf : 1 ≤ half) :
    average signal.reverse half = (average signal half).reverse := by
  apply Signal.ext_sample
  · rw [size_average, Array.size_reverse, Array.size_reverse, size_average]
  · intro index hindex
    rw [size_average, Array.size_reverse] at hindex
    rw [Signal.sample_reverse _ (by rwa [size_average]), size_average]
    by_cases hinside : half ≤ index ∧ index + half < signal.size
    · rw [sample_average hhalf hinside.1 (by rw [Array.size_reverse]; exact hinside.2),
        sample_average hhalf (by omega) (by omega), ← sum_around_neg]
      apply Finset.sum_congr rfl
      intro offset hoffset
      rw [centredWeight_neg hhalf hoffset]
      rw [Finset.mem_Icc] at hoffset
      have hread : signal.size - 1 - ((index : ℤ) + -offset).toNat =
          (((signal.size - 1 - index : Nat) : ℤ) + offset).toNat := by omega
      rw [Signal.sample_reverse _ (by omega), hread]
    · have hmirrored : ¬(half ≤ signal.size - 1 - index ∧
          signal.size - 1 - index + half < signal.size) := by omega
      rw [sample_average_of_outside (by rwa [Array.size_reverse]),
        sample_average_of_outside hmirrored]

/-- The average keeps a constant level where the window fits. -/
theorem sample_average_of_constant {level : ℝ}
    (hlevel : ∀ index < signal.size, signal.sample index = level) (hhalf : 1 ≤ half)
    (hstart : half ≤ index) (hstop : index + half < signal.size) :
    (average signal half).sample index = level := by
  rw [sample_average hhalf hstart hstop]
  calc
    ∑ offset ∈ Finset.Icc (-(half : ℤ)) half,
          centredWeight half offset * signal.sample (index + offset).toNat
        = ∑ offset ∈ Finset.Icc (-(half : ℤ)) half, centredWeight half offset * level := by
      apply Finset.sum_congr rfl
      intro offset hoffset
      rw [Finset.mem_Icc] at hoffset
      rw [hlevel _ (by omega)]
    _ = level := by rw [← Finset.sum_mul, sum_centredWeight, one_mul]

/-- A constant level is the peak of its average. -/
theorem peak_average_of_constant {level : ℝ} (hpositive : 0 < level)
    (hlevel : ∀ index < signal.size, signal.sample index = level) (hhalf : 1 ≤ half)
    (hfits : 2 * half < signal.size) : (average signal half).peak = level := by
  apply le_antisymm
  · apply Signal.peak_le hpositive.le
    intro index _
    by_cases hinside : half ≤ index ∧ index + half < signal.size
    · rw [sample_average_of_constant hlevel hhalf hinside.1 hinside.2, abs_of_pos hpositive]
    · rw [sample_average_of_outside hinside, abs_zero]
      exact hpositive.le
  · calc
      level = |(average signal half).sample half| := by
        rw [sample_average_of_constant hlevel hhalf le_rfl (by omega), abs_of_pos hpositive]
      _ ≤ (average signal half).peak := Signal.abs_sample_le_peak _ half

/-! ## The mean-based signal -/

theorem halfLength_real (length : Nat) (sampleRate meanPeriod : ℝ) (config : SedreamsConfig ℝ) :
    halfLength length sampleRate meanPeriod config =
      min (max (min ⌊config.meanBasedSpan * meanPeriod * sampleRate / 2 + 1 / 2⌋₊ maxIndex) 1)
        (length / 3) := by
  have htwo : (2.0 : ℝ) = 2 := by norm_num
  rw [halfLength, htwo, Scalar.round_real]

theorem meanBased_without_passes {sampleRate meanPeriod : ℝ} {config : SedreamsConfig ℝ}
    (hsize : 3 ≤ signal.size) (hpasses : config.highpassPasses = 0) :
    meanBased signal sampleRate meanPeriod config =
      .ok (average signal (halfLength signal.size sampleRate meanPeriod config)).normalize := by
  rw [meanBased_eq_ok_iff, one_le_halfLength_iff, hpasses]
  exact ⟨hsize, rfl⟩

/-- Without passes of the high-pass filter, the mean-based signal is the normalized average
around each sample, taken where the window fits: the weights are positive, the same on both
sides and of unit sum.  A signal played backwards gives the result played backwards, and a
constant level above zero gives one where the window fits. -/
theorem meanBased_is_centred_average (signal : Signal ℝ) (sampleRate meanPeriod : ℝ)
    (config : SedreamsConfig ℝ) (hsize : 3 ≤ signal.size) (hpasses : config.highpassPasses = 0) :
    let half := min
      (max (min ⌊config.meanBasedSpan * meanPeriod * sampleRate / 2 + 1 / 2⌋₊ maxIndex) 1)
      (signal.size / 3)
    (∀ offset ∈ Finset.Icc (-(half : ℤ)) half,
      0 < centredWeight half offset ∧ centredWeight half (-offset) = centredWeight half offset) ∧
    ∑ offset ∈ Finset.Icc (-(half : ℤ)) half, centredWeight half offset = 1 ∧
    (∃ averaged : Signal ℝ,
      averageInSlices? (weights half) signal half = some averaged ∧
      meanBased signal sampleRate meanPeriod config = .ok averaged.normalize ∧
      averaged.size = signal.size ∧
      ∀ index, averaged.sample index =
        if half ≤ index ∧ index < signal.size - half then
          ∑ offset ∈ Finset.Icc (-(half : ℤ)) half,
            centredWeight half offset * signal.sample (index + offset).toNat
        else 0) ∧
    meanBased signal.reverse sampleRate meanPeriod config =
      (meanBased signal sampleRate meanPeriod config).map Array.reverse ∧
    ∀ level, 0 < level → (∀ index < signal.size, signal.sample index = level) →
      ∃ result, meanBased signal sampleRate meanPeriod config = .ok result ∧
        ∀ index, half ≤ index → index < signal.size - half → result.sample index = 1 := by
  intro half
  have hresult : meanBased signal sampleRate meanPeriod config =
      .ok (average signal half).normalize := by
    rw [meanBased_without_passes hsize hpasses, halfLength_real]
  have hbackwards : meanBased signal.reverse sampleRate meanPeriod config =
      .ok (average signal.reverse half).normalize := by
    rw [meanBased_without_passes (by rwa [Array.size_reverse]) hpasses, Array.size_reverse,
      halfLength_real]
  have hhalf : 1 ≤ half := by omega
  have hfits : 2 * half < signal.size := by omega
  clear_value half
  refine ⟨fun offset hoffset => ⟨centredWeight_pos hoffset, centredWeight_neg hhalf hoffset⟩,
    sum_centredWeight half, ⟨average signal half, averageInSlices?_eq_some hfits.le, hresult,
      size_average _ _, fun index => ?_⟩, ?_, fun level hpositive hlevel => ?_⟩
  · split
    case isTrue hinside => exact sample_average hhalf hinside.1 (by omega)
    case isFalse houtside => exact sample_average_of_outside fun hinside => houtside (by omega)
  · rw [hbackwards, hresult, average_reverse signal hhalf, Signal.normalize_reverse]
    rfl
  · have hpeak := peak_average_of_constant hpositive hlevel hhalf hfits
    refine ⟨_, hresult, fun index hstart hstop => ?_⟩
    rw [Signal.normalize_of_peak_pos (by rwa [hpeak]), Signal.sample_scaled, hpeak,
      sample_average_of_constant hlevel hhalf hstart (by omega), inv_mul_cancel₀ hpositive.ne']

/-- The middle of three equal samples, at any rate and period. -/
theorem meanBased_is_centred_average_of_constant :
    3 ≤ (#[2, 2, 2] : Signal ℝ).size ∧
      ({ SedreamsConfig.standard with highpassPasses := 0 } :
        SedreamsConfig ℝ).highpassPasses = 0 ∧
      ∃ result, meanBased (#[2, 2, 2] : Signal ℝ) 8000 (1 / 100)
          { SedreamsConfig.standard with highpassPasses := 0 } = .ok result ∧
        result.sample 1 = 1 := by
  have hlevel : ∀ index < (#[2, 2, 2] : Signal ℝ).size,
      Signal.sample (#[2, 2, 2] : Signal ℝ) index = 2 := by
    intro index hindex
    rw [Signal.sample_eq_getElem _ hindex]
    change index < 3 at hindex
    interval_cases index <;> rfl
  obtain ⟨_, _, _, _, hconstant⟩ := meanBased_is_centred_average #[2, 2, 2] 8000 (1 / 100)
    { SedreamsConfig.standard with highpassPasses := 0 } (by decide) rfl
  obtain ⟨result, hresult, hone⟩ := hconstant 2 two_pos hlevel
  have hstart : ∀ span : Nat, min span ((#[2, 2, 2] : Signal ℝ).size / 3) ≤ 1 :=
    fun span => min_le_right span 1
  have hstop : ∀ span : Nat, 1 < (#[2, 2, 2] : Signal ℝ).size -
      min span ((#[2, 2, 2] : Signal ℝ).size / 3) := by
    intro span
    have hthird := hstart span
    change 1 < 3 - _
    omega
  exact ⟨by decide, rfl, result, hresult, hone 1 (hstart _) (hstop _)⟩

end MeanBased

end Glottis
