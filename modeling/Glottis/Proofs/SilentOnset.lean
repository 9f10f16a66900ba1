import Mathlib
import Glottis.Proofs.AverageSlices
import Glottis.Proofs.Binary64Signs

/-!
# Silent onset of the mean-based signal

The average leaves half a window of silence in front.  Every pass of the high-pass filter starts
from the first sample and moves on by differences, so silence in front stays silent as long as
the factor of the filter is finite, and so it does when the signal is normalized.
-/

namespace Glottis

def Signal.SilentBelow (signal : Signal Float) (stop : Nat) : Prop :=
  ∀ index < stop, signal.sample index = 0

variable {signal : Signal Float} {stop : Nat} {sampleRate frequency : Float}

/-- The peak is only divided by where it is positive and finite. -/
theorem Signal.SilentBelow.normalize (hsilent : signal.SilentBelow stop) :
    signal.normalize.SilentBelow stop := by
  intro index hindex
  rw [Signal.normalize]
  split
  case isTrue hpeak =>
    have hpositive : Scalar.isPositive signal.peak = true := by
      rw [Scalar.isPositive, Bool.and_eq_true, decide_eq_true_iff]
      exact hpeak.symm
    have hzero : 0 / signal.peak = 0 := Binary64.zero_div_of_isPositive hpositive
    rw [Signal.sample_map _ _ hzero, hsilent index hindex]
    exact hzero
  case isFalse => exact hsilent index hindex

namespace Filter

/-- A pass of the filter keeps silence in front. -/
theorem silentBelow_preEmphasis (hrate : Scalar.isPositive sampleRate = true)
    (hfrequency : Scalar.isPositive frequency = true) (hsilent : signal.SilentBelow stop) :
    (preEmphasis signal sampleRate frequency).SilentBelow stop := by
  by_cases hbelow : 0.5 * sampleRate ≤ frequency
  · rwa [preEmphasis, if_pos hbelow]
  · intro index hindex
    cases Nat.lt_or_ge index signal.size with
    | inr hbeyond => exact Signal.sample_of_size_le _ (by rwa [size_preEmphasis])
    | inl hinside =>
        induction index with
        | zero => rw [sample_preEmphasis_zero hbelow hinside, hsilent 0 hindex]
        | succ index ih =>
            obtain ⟨grains, hfactor⟩ := Binary64.exists_isValue_emphasisFactor hrate hfrequency
            have hsum : (0 : Float) + 0 - 0 = 0 := rfl
            rw [sample_preEmphasis_succ hbelow hinside,
              ih (Nat.lt_of_succ_lt hindex) (Nat.lt_of_succ_lt hinside), hsilent _ hindex,
              hsilent _ (Nat.lt_of_succ_lt hindex)]
            exact (congrArg _ hsum).trans hfactor.mul_zero

theorem silentBelow_preEmphasisPasses (hrate : Scalar.isPositive sampleRate = true)
    (hfrequency : Scalar.isPositive frequency = true) (passes : Nat)
    (hsilent : signal.SilentBelow stop) :
    (preEmphasisPasses passes signal sampleRate frequency).SilentBelow stop := by
  induction passes with
  | zero => exact hsilent
  | succ passes ih =>
      rw [preEmphasisPasses, Nat.fold_succ]
      exact silentBelow_preEmphasis hrate hfrequency ih

end Filter

namespace MeanBased

theorem silentBelow_average (signal : Signal Float) (half : Nat) :
    (average signal half).SilentBelow half := by
  intro index hindex
  exact sample_average_of_outside fun hinside => absurd hindex (not_lt.mpr hinside.1)

/-- Whatever the rate, the period and the configuration, undefined and infinite values among
them, fewer than three samples are the only ground for refusal, and a violated precondition.
From three samples on, the two stretches lie inside their signals and have one length, the
result has the length of the signal, and a positive and finite rate and cutoff leave it silent
below half a window after any number of passes. -/
theorem meanBased_accepts_three_samples (signal : Signal Float) (sampleRate meanPeriod : Float)
    (config : SedreamsConfig Float) :
    let half := min (max (Scalar.round (config.meanBasedSpan * meanPeriod * sampleRate / 2.0)) 1)
      (signal.size / 3)
    let averaged := Filter.fir (weights half) signal
    ((∃ error, meanBased signal sampleRate meanPeriod config = .error error) ↔
      signal.size < 3) ∧
    (∀ error, meanBased signal sampleRate meanPeriod config = .error error →
      error.kind = .precondition) ∧
    (3 ≤ signal.size →
      half ≤ signal.size - half ∧ 2 * half ≤ averaged.size ∧
      signal.size - half - half = averaged.size - 2 * half ∧
      ∃ result, meanBasedInSlices signal sampleRate meanPeriod config = .ok (some result) ∧
        meanBased signal sampleRate meanPeriod config = .ok result ∧
        result.size = signal.size ∧
        (Scalar.isPositive sampleRate = true →
          Scalar.isPositive config.highpassCutoffHz = true →
          ∀ index < half, result.sample index = 0)) := by
  intro half averaged
  refine ⟨?_, fun error herror => ?_, fun hsize => ?_⟩
  · simp only [meanBased_eq_error_iff, exists_and_left, exists_eq, and_true]
  · rw [((meanBased_eq_error_iff _ _ _ _ _).mp herror).2]
    rfl
  · have hthird : half ≤ signal.size / 3 :=
      halfLength_le_third signal.size sampleRate meanPeriod config
    have hfiltered : averaged.size = signal.size := Filter.size_fir _ _
    obtain ⟨result, hresult⟩ := exists_meanBased_eq_ok hsize sampleRate meanPeriod config
    refine ⟨by omega, by omega, by omega, result, ?_, hresult, size_of_meanBased_eq_ok hresult,
      fun hrate hcutoff => ?_⟩
    · rw [meanBasedInSlices_eq, hresult]
      rfl
    · rw [← ((meanBased_eq_ok_iff _ _ _ _ _).mp hresult).2]
      exact (Filter.silentBelow_preEmphasisPasses hrate hcutoff _
        (silentBelow_average signal half)).normalize

/-- The standard configuration, a rate of eight kilohertz and an undefined period. -/
theorem meanBased_accepts_three_samples_of_undefined_period :
    3 ≤ (#[1, 1, 1] : Signal Float).size ∧ Scalar.isPositive (8000 : Float) = true ∧
      Scalar.isPositive (SedreamsConfig.standard : SedreamsConfig Float).highpassCutoffHz = true ∧
      ∃ result, meanBased (#[1, 1, 1] : Signal Float) 8000 (0 / 0) .standard = .ok result ∧
        result.size = 3 ∧ result.sample 0 = 0 := by
  have hrate : Scalar.isPositive (8000 : Float) = true := by decide +kernel
  have hcutoff : Scalar.isPositive
      (SedreamsConfig.standard : SedreamsConfig Float).highpassCutoffHz = true := by
    decide +kernel
  obtain ⟨_, _, haccepted⟩ :=
    meanBased_accepts_three_samples #[1, 1, 1] 8000 (0 / 0) .standard
  obtain ⟨_, _, _, result, _, hresult, hlength, hsilent⟩ := haccepted (by decide)
  have hhalf : ∀ span : Nat, 0 < min (max span 1) ((#[1, 1, 1] : Signal Float).size / 3) :=
    fun span => lt_min (one_pos.trans_le (le_max_right span 1)) (by decide)
  exact ⟨by decide, hrate, hcutoff, result, hresult, hlength, hsilent hrate hcutoff 0 (hhalf _)⟩

end MeanBased

end Glottis
