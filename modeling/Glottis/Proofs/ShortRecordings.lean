import Mathlib
import Glottis.Proofs.InstantPairing
import Glottis.Proofs.SedreamsTraces
import Glottis.Proofs.ThresholdSearch
import Glottis.Proofs.TurningPoints

/-!
# Recordings shorter than a frame

No frame fits into such a recording, so its residual is silent and no sample exceeds
a threshold.  The turning points of the mean-based signal are the instants
themselves.
-/

namespace Glottis.Sedreams

theorem cleanResidual_real (residual : Signal ℝ) : cleanResidual residual = residual := by
  have hkeep : (fun value : ℝ => if Scalar.isNormal value then value else 0) = id := by
    funext value
    by_cases hvalue : value = 0
    · rw [hvalue, ite_self, id]
    · rw [if_pos ((Scalar.isNormal_real_iff value).mpr hvalue), id]
  rw [cleanResidual, hkeep, Array.map_id]

/-- In a silent residual every turning point is an instant. -/
theorem instants_silence (length span : Nat) {threshold : ℝ} (hthreshold : 0 ≤ threshold)
    {starts : List Nat} (hstarts : ∀ start ∈ starts, start < length ∧ start + span ≤ maxIndex) :
    instants (.silence length : Signal ℝ) span threshold starts = .ok starts := by
  have hsilent : ∀ index, ¬ threshold < (Signal.silence length : Signal ℝ).sample index := by
    intro index
    rw [Signal.silence, Signal.sample_tabulate, ite_self]
    exact not_lt.mpr hthreshold
  rw [instants, require_bind_eq_ok_iff, pure_eq_ok_iff]
  constructor
  · rw [List.all_eq_true]
    intro start hstart
    exact decide_eq_true (hstarts start hstart).2
  · conv_rhs => rw [← List.map_id starts]
    apply List.map_congr_left
    intro start hstart
    have hsize : start < (Signal.silence length : Signal ℝ).size := by
      rw [Signal.size_silence]
      exact (hstarts start hstart).1
    cases strongestAbove_spec (.silence length) span threshold hsize with
    | inl hstrongest => exact absurd hstrongest.above (hsilent _)
    | inr hnone => exact hnone.2

theorem detect_of_size_lt_frame {config : SedreamsConfig ℝ} {signal meanBased : Signal ℝ}
    {sampleRate meanF0 : ℝ} (hrate : 0 < sampleRate) (hf0 : 0 < meanF0)
    (hhop : 1 ≤ (config.framing sampleRate).hop)
    (hframe : 2 ≤ (config.framing sampleRate).frameLength)
    (hstored : (config.framing sampleRate).frameLength ≤ maxLength)
    (hsize : signal.size < (config.framing sampleRate).frameLength)
    (hgci : 0 ≤ config.gciThreshold) (hgoi : 0 ≤ config.goiThreshold)
    (hgciSpan : signal.size + spanSamples config.gciSearchSpan sampleRate (1 / meanF0) ≤ maxIndex)
    (hgoiSpan : signal.size + spanSamples config.goiSearchSpan sampleRate (1 / meanF0) ≤ maxIndex)
    (hmeanBased : MeanBased.meanBased signal sampleRate (1 / meanF0) config = .ok meanBased) :
    detect config signal sampleRate meanF0 =
      .ok (pairInstants (Extremum.find meanBased .maximum) (Extremum.find meanBased .minimum)) := by
  have hresidual := Residual.residual_of_size_lt hhop hframe hstored hsize
  have htraces : Traces config signal sampleRate meanF0 (.silence signal.size) meanBased :=
    ⟨⟨_, hresidual, cleanResidual_real _⟩, hmeanBased⟩
  have hstarts : ∀ (extremum : Extremum) (span : Nat), signal.size + span ≤ maxIndex →
      ∀ start ∈ Extremum.find meanBased extremum,
        start < signal.size ∧ start + span ≤ maxIndex := by
    intro extremum span hspan start hstart
    have hlast := Extremum.succ_lt_size_of_mem_find hstart
    rw [htraces.size_meanBased] at hlast
    omega
  rw [detect_of_traces ((Scalar.isPositive_real_iff _).mpr hrate)
    ((Scalar.isPositive_real_iff _).mpr hf0) htraces
    (instants_silence _ _ hgci (hstarts .minimum _ hgciSpan))
    (instants_silence _ _ hgoi (hstarts .maximum _ hgoiSpan)),
    sortedDistinct_eq_self (Extremum.pairwise_find _ _)]

/-! ## A recording with one cycle -/

noncomputable def twoDips : Signal ℝ := #[0, -1, 1, -1, 0]

noncomputable def unfiltered : SedreamsConfig ℝ :=
  { SedreamsConfig.standard with highpassPasses := 0 }

private theorem weight_blackmanHarris_three {index : Nat} (hindex : index < 3) :
    (WindowKind.blackmanHarris.shape : Window ℝ).weight 3 index =
      if index = 1 then 1 else 0.00006 := by
  have hphase : ∀ order : Nat, Scalar.cos
      ((order : ℝ) * (2.0 * Scalar.pi * (index : ℝ) / ((3 - 1 : Nat) : ℝ))) =
        (-1 : ℝ) ^ (order * index) := by
    intro order
    rw [← Real.cos_nat_mul_pi (order * index)]
    simp only [Scalar.cos, Scalar.pi]
    congr 1
    norm_num
    ring
  simp only [WindowKind.shape, Window.weight, Window.cosineTerms, hphase, Nat.reduceMod,
    Nat.reduceAdd, if_true]
  interval_cases index <;> norm_num

private theorem average_twoDips : MeanBased.average twoDips 1 =
    Signal.scaled #[0, -0.99994, 0.99988, -0.99994, 0] (1 / 1.00012) := by
  have htaper : Signal.tabulate (2 * 1 + 1)
      ((WindowKind.blackmanHarris.shape : Window ℝ).weight (2 * 1 + 1)) =
        #[0.00006, 1, 0.00006] := by
    apply Signal.ext_sample
    · rw [Signal.size_tabulate]
      rfl
    · intro index hindex
      rw [Signal.size_tabulate] at hindex
      rw [Signal.sample_tabulate, if_pos hindex, weight_blackmanHarris_three hindex]
      interval_cases index <;> simp [Signal.sample]
  apply Signal.ext_sample
  · rw [MeanBased.size_average, Signal.size_scaled]
    rfl
  · intro index hindex
    have hsize : index < 5 := hindex
    rw [MeanBased.average, MeanBased.weights, htaper, Signal.sample_tabulate,
      Signal.sample_scaled]
    interval_cases index <;>
      norm_num [twoDips, Signal.sample, Filter.feedForward, sumRange_eq_sum, sumLanes_eq_sum,
        Finset.sum_range_succ]

theorem find_normalize_average_twoDips :
    Extremum.find (MeanBased.average twoDips 1).normalize .minimum = [1, 3] ∧
      Extremum.find (MeanBased.average twoDips 1).normalize .maximum = [2] := by
  rw [Extremum.find_normalize, Extremum.find_normalize, average_twoDips,
    Extremum.find_scaled _ _ (by norm_num), Extremum.find_scaled _ _ (by norm_num)]
  constructor <;>
    norm_num [Extremum.find, Extremum.slope, Extremum.bend, Extremum.sign, Signal.sample,
      List.range_succ]

/-- The window cannot be longer than a third of the signal, whatever the span. -/
theorem meanBased_twoDips {config : SedreamsConfig ℝ} (hpasses : config.highpassPasses = 0)
    (sampleRate meanPeriod : ℝ) :
    MeanBased.meanBased twoDips sampleRate meanPeriod config =
      .ok (MeanBased.average twoDips 1).normalize := by
  have hhalf : MeanBased.halfLength twoDips.size sampleRate meanPeriod config = 1 := by
    rw [MeanBased.halfLength, show twoDips.size / 3 = 1 from rfl]
    omega
  rw [MeanBased.meanBased_eq_ok_iff, hhalf, hpasses]
  exact ⟨le_rfl, rfl⟩

private theorem round_of_eq {value : ℝ} {count : Nat} (hvalue : value = count)
    (hcount : count ≤ 25) : Scalar.round value = count := by
  rw [hvalue, Scalar.round_natCast (by rw [maxIndex]; omega)]

theorem frameLength_unfiltered : (unfiltered.framing 1000).frameLength = 25 :=
  round_of_eq (by norm_num [unfiltered, SedreamsConfig.standard]) (by decide)

theorem hop_unfiltered : (unfiltered.framing 1000).hop = 5 :=
  round_of_eq (by norm_num [unfiltered, SedreamsConfig.standard]) (by decide)

theorem detect_twoDips : detect unfiltered twoDips 1000 50 = .ok [⟨1, 2, 3⟩] := by
  have hgciSpan : spanSamples unfiltered.gciSearchSpan 1000 (1 / 50) = 5 :=
    round_of_eq (by norm_num [unfiltered, SedreamsConfig.standard]) (by decide)
  have hgoiSpan : spanSamples unfiltered.goiSearchSpan 1000 (1 / 50) = 3 :=
    round_of_eq (by norm_num [unfiltered, SedreamsConfig.standard]) (by decide)
  rw [detect_of_size_lt_frame (by norm_num) (by norm_num) (by rw [hop_unfiltered]; decide)
    (by rw [frameLength_unfiltered]; decide) (by rw [frameLength_unfiltered]; decide)
    (by rw [frameLength_unfiltered]; decide)
    (by norm_num [unfiltered, SedreamsConfig.standard])
    (by norm_num [unfiltered, SedreamsConfig.standard])
    (by rw [hgciSpan]; decide) (by rw [hgoiSpan]; decide) (meanBased_twoDips rfl 1000 (1 / 50)),
    find_normalize_average_twoDips.1, find_normalize_average_twoDips.2]
  rfl

end Glottis.Sedreams
