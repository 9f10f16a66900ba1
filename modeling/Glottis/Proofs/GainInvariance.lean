import Mathlib
import Glottis.MultiProduct
import Glottis.Proofs.PredictorScaling
import Glottis.Proofs.ShortRecordings

/-!
# Invariance under recording gain

The cycles that are found do not depend on the gain of the recording.  In the
residual the factor passes through tapering and whitening and is lost when the sum is
normalized; the mean-based signal loses it in the same way.  The multi-scale product
takes one factor from each stage, and its turning points and maxima are those of the
product of the original signal where the resulting factor is positive.
-/

namespace Glottis

/-! ## The residual -/

namespace Residual

open LinearPrediction

theorem frame_scaled (signal : Signal ℝ) (factor : ℝ) (framing : Framing) (start : Nat) :
    frame (signal.scaled factor) framing start = (frame signal framing start).scaled factor := by
  simp only [frame, Signal.scaled_tabulate, Signal.sample_scaled, mul_assoc]

/-- The scale that restores the energy of a frame is a quotient of energies, so the
whitened frame keeps the factor. -/
theorem whiten_scaled (segment : Signal ℝ) (order : Nat) (method : Method) {factor : ℝ}
    (hfactor : factor ≠ 0) :
    whiten (segment.scaled factor) order method =
      Option.map (·.scaled factor) <$> whiten segment order method := by
  have hsquare : 0 < factor ^ 2 := sq_pos_of_ne_zero hfactor
  simp only [whiten, Signal.energy_scaled, mul_pos_iff_of_pos_left hsquare]
  split
  case isFalse => rfl
  case isTrue =>
    rw [analyze_scaled segment order method hfactor, bind_map_left, map_bind]
    congr 1
    funext predictor
    rw [Predictor.amplified, Filter.fir_scaled, Signal.energy_scaled]
    simp only [mul_pos_iff_of_pos_left hsquare, mul_div_mul_left _ _ hsquare.ne']
    split
    case isFalse => rfl
    case isTrue =>
      rw [map_pure, Option.map_some, Signal.map_scaled]
      intro value
      exact mul_assoc factor value _

theorem overlapAdd_scaled (signal contribution : Signal ℝ) (start : Nat) (factor : ℝ) :
    overlapAdd (signal.scaled factor) (contribution.scaled factor) start =
      (overlapAdd signal contribution start).scaled factor := by
  simp only [overlapAdd, Signal.scaled_tabulate, Signal.size_scaled, Signal.sample_scaled,
    mul_ite, mul_add]

theorem accumulate_scaled (signal : Signal ℝ) (framing : Framing) (starts : List Nat)
    (total : Signal ℝ) {factor : ℝ} (hfactor : factor ≠ 0) :
    accumulate (signal.scaled factor) framing starts (total.scaled factor) =
      (·.scaled factor) <$> accumulate signal framing starts total := by
  induction starts generalizing total with
  | nil => rfl
  | cons start starts ih =>
      rw [accumulate, accumulate, frame_scaled, whiten_scaled _ _ _ hfactor, bind_map_left,
        map_bind]
      congr 1
      funext contribution
      cases contribution with
      | none => exact ih total
      | some contribution =>
          rw [Option.map_some]
          dsimp only
          rw [overlapAdd_scaled, ih]

theorem residual_scaled (signal : Signal ℝ) (framing : Framing) {factor : ℝ}
    (hfactor : 0 < factor) :
    residual (signal.scaled factor) framing = residual signal framing := by
  have htotal := accumulate_scaled signal framing (frameStarts framing signal.size)
    (.silence signal.size) hfactor.ne'
  rw [Signal.silence_scaled] at htotal
  simp only [residual, Signal.allFinite_real, Signal.size_scaled, htotal, bind_map_left,
    Signal.normalize_scaled _ hfactor]

end Residual

/-! ## The mean-based signal -/

namespace MeanBased

theorem average_scaled (signal : Signal ℝ) (half : Nat) (factor : ℝ) :
    average (signal.scaled factor) half = (average signal half).scaled factor := by
  simp only [average, Signal.scaled_tabulate, Signal.size_scaled, Filter.feedForward_scaled,
    mul_ite, mul_zero]

theorem meanBased_scaled (signal : Signal ℝ) (sampleRate meanPeriod : ℝ)
    (config : SedreamsConfig ℝ) {factor : ℝ} (hfactor : 0 < factor) :
    meanBased (signal.scaled factor) sampleRate meanPeriod config =
      meanBased signal sampleRate meanPeriod config := by
  simp only [meanBased, Signal.size_scaled, average_scaled, Filter.preEmphasisPasses_scaled,
    Signal.normalize_scaled _ hfactor]

end MeanBased

theorem Sedreams.detect_scaled (config : SedreamsConfig ℝ) (signal : Signal ℝ)
    (sampleRate meanF0 : ℝ) {factor : ℝ} (hfactor : 0 < factor) :
    Sedreams.detect config (signal.scaled factor) sampleRate meanF0 =
      Sedreams.detect config signal sampleRate meanF0 := by
  simp only [Sedreams.detect, Signal.size_scaled, Residual.residual_scaled _ _ hfactor,
    MeanBased.meanBased_scaled _ _ _ _ hfactor]

/-! ## The multi-scale product -/

namespace MultiProduct

theorem pairMeans_scaled (signal : Signal ℝ) (factor : ℝ) :
    pairMeans (signal.scaled factor) = (pairMeans signal).scaled factor := by
  simp only [pairMeans, Signal.scaled_tabulate, Signal.size_scaled, Signal.sample_scaled,
    ← mul_sub, mul_div_assoc, ← mul_add]

/-- Each stage contributes the factor of the means once more. -/
theorem multiplyStages_scaled (remaining width : Nat) (means product : Signal ℝ)
    (factor gain : ℝ) :
    multiplyStages remaining width (means.scaled factor) (product.scaled gain) =
      (multiplyStages remaining width means product).scaled (factor ^ remaining * gain) := by
  induction remaining generalizing width means product gain with
  | zero => rw [multiplyStages, multiplyStages, pow_zero, one_mul]
  | succ remaining ih =>
      have hproduct : (Signal.tabulate product.size fun index =>
            gain * product.sample index *
              (factor * (pairMeans means).sample (index / width))) =
          (Signal.tabulate product.size fun index =>
            product.sample index * (pairMeans means).sample (index / width)).scaled
              (factor * gain) := by
        rw [Signal.scaled_tabulate]
        congr 1
        funext index
        ring
      simp only [multiplyStages, pairMeans_scaled, Signal.size_scaled, Signal.sample_scaled]
      rw [hproduct, ih, pow_succ, mul_assoc]

theorem multiScaleProduct_scaled (signal : Signal ℝ) (levels : Nat) (factor : ℝ) :
    multiScaleProduct (signal.scaled factor) levels =
      (multiScaleProduct signal levels).scaled (factor ^ (min levels maxLevels - 1)) := by
  calc
    multiScaleProduct (signal.scaled factor) levels
        = multiplyStages (min levels maxLevels - 1) 2
            ((Signal.tabulate (usedLength levels signal.size) signal.sample).scaled factor)
            ((Signal.tabulate (usedLength levels signal.size) fun _ => 1).scaled 1) := by
      rw [multiScaleProduct, Signal.size_scaled, Signal.tabulate_sample_scaled,
        Signal.scaled_one]
    _ = (multiScaleProduct signal levels).scaled
          (factor ^ (min levels maxLevels - 1) * 1) := multiplyStages_scaled _ _ _ _ _ _
    _ = (multiScaleProduct signal levels).scaled (factor ^ (min levels maxLevels - 1)) := by
      rw [mul_one]

theorem closures_scaled (product : Signal ℝ) {factor : ℝ} (hfactor : 0 < factor) :
    closures (product.scaled factor) = closures product := by
  rw [closures, closures, Signal.map_scaled product (fun value => (mul_neg factor value).symm),
    Extremum.find_scaled _ _ hfactor]

theorem offsetOfMaximum_scaled (signal : Signal ℝ) (first last : Nat) {factor : ℝ}
    (hfactor : 0 < factor) :
    offsetOfMaximum (signal.scaled factor) first last = offsetOfMaximum signal first last := by
  simp only [offsetOfMaximum, Signal.sample_scaled, mul_lt_mul_iff_right₀ hfactor]

theorem cycles_scaled (product : Signal ℝ) (closures : List Nat) {factor : ℝ}
    (hfactor : 0 < factor) :
    cycles (product.scaled factor) closures = cycles product closures := by
  induction closures with
  | nil => rfl
  | cons closure closures ih =>
      cases closures with
      | nil => rfl
      | cons nextClosure closures =>
          rw [cycles, cycles, ih, cycle, cycle, offsetOfMaximum_scaled _ _ _ hfactor]

/-- Detection sees the factor only through the factor of the product. -/
theorem Detector.detect_scaled (detector : Detector) (signal : Signal ℝ) (sampleRate : ℝ)
    {factor : ℝ} (hfactor : 0 < factor ^ (detector.levels - 1)) :
    detector.detect (signal.scaled factor) sampleRate = detector.detect signal sampleRate := by
  rw [← min_eq_left detector.levels_mem.2] at hfactor
  simp only [Detector.detect, Signal.allFinite_real, multiScaleProduct_scaled,
    closures_scaled _ hfactor, cycles_scaled _ _ hfactor]

end MultiProduct

/-- Both detectors give the same result, cycles or error, for a recording and for the
recording at another gain.  The multi-scale product does so for an inverted recording
too, provided that it multiplies an even number of stages. -/
theorem detection_gain_invariant (config : SedreamsConfig ℝ) (detector : MultiProduct.Detector)
    (signal : Signal ℝ) (sampleRate meanF0 factor : ℝ) :
    (0 < factor →
      Sedreams.detect config (signal.scaled factor) sampleRate meanF0 =
          Sedreams.detect config signal sampleRate meanF0 ∧
        detector.detect (signal.scaled factor) sampleRate =
          detector.detect signal sampleRate) ∧
      (factor < 0 → Odd detector.levels →
        detector.detect (signal.scaled factor) sampleRate =
          detector.detect signal sampleRate) := by
  constructor
  · intro hfactor
    constructor
    · exact Sedreams.detect_scaled config signal sampleRate meanF0 hfactor
    · exact detector.detect_scaled signal sampleRate (pow_pos hfactor _)
  · intro hfactor hodd
    have heven : Even (detector.levels - 1) := hodd.tsub_odd odd_one
    exact detector.detect_scaled signal sampleRate (heven.pow_pos hfactor.ne)

theorem detection_gain_invariant_twoDips :
    Sedreams.detect Sedreams.unfiltered (Sedreams.twoDips.scaled 2) 1000 50 =
        .ok [⟨1, 2, 3⟩] ∧
      (⟨3, by decide⟩ : MultiProduct.Detector).detect (Sedreams.twoDips.scaled (-2)) 1000 =
        (⟨3, by decide⟩ : MultiProduct.Detector).detect Sedreams.twoDips 1000 := by
  have hdoubled := (detection_gain_invariant Sedreams.unfiltered ⟨3, by decide⟩
    Sedreams.twoDips 1000 50 2).1 two_pos
  have hinverted := (detection_gain_invariant Sedreams.unfiltered ⟨3, by decide⟩
    Sedreams.twoDips 1000 50 (-2)).2 (neg_neg_of_pos two_pos) (by decide)
  exact ⟨hdoubled.1.trans Sedreams.detect_twoDips, hinverted⟩

end Glottis
