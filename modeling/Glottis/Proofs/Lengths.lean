import Mathlib
import Glottis.MeanBased
import Glottis.Proofs.Checks
import Glottis.Proofs.Scaling

/-!
# Lengths of derived signals

The residual and the mean-based signal have the length of the signal they are
computed from, so an index into one of them is an index into the signal.  A signal
that is shorter than a frame has a silent residual.
-/

namespace Glottis

variable {α : Type} [Scalar α]

namespace Residual

theorem size_of_accumulate_eq_ok (signal : Signal α) (framing : Framing) {starts : List Nat}
    {total result : Signal α} (hresult : accumulate signal framing starts total = .ok result) :
    result.size = total.size := by
  induction starts generalizing total with
  | nil =>
      rw [accumulate, Except.ok.injEq] at hresult
      rw [hresult]
  | cons start starts ih =>
      rw [accumulate, bind_eq_ok_iff] at hresult
      obtain ⟨contribution, _, hrest⟩ := hresult
      cases contribution with
      | none => exact ih hrest
      | some contribution => rw [ih hrest, size_overlapAdd]

/-- The residual exists if every check is passed and all frames can be added up. -/
theorem residual_eq_ok_iff {signal result : Signal α} {framing : Framing} :
    residual signal framing = .ok result ↔
      1 ≤ framing.hop ∧ signal.allFinite = true ∧ 2 ≤ framing.frameLength ∧
        framing.frameLength ≤ maxLength ∧
        ∃ total, accumulate signal framing (frameStarts framing signal.size)
            (.silence signal.size) = .ok total ∧
          ((frameStarts framing signal.size).isEmpty || framing.fitsIndex signal.size) = true ∧
          total.normalize = result := by
  rw [residual, require_bind_eq_ok_iff, require_bind_eq_ok_iff, Window.checkLength,
    require_bind_eq_ok_iff, require_bind_eq_ok_iff, bind_eq_ok_iff]
  simp only [require_bind_eq_ok_iff, pure_eq_ok_iff, decide_eq_true_iff]

theorem size_of_residual_eq_ok {signal result : Signal α} {framing : Framing}
    (hresult : residual signal framing = .ok result) : result.size = signal.size := by
  obtain ⟨_, _, _, _, total, htotal, _, rfl⟩ := residual_eq_ok_iff.mp hresult
  rw [Signal.size_normalize, size_of_accumulate_eq_ok signal framing htotal, Signal.size_silence]

theorem frameStarts_of_size_lt {framing : Framing} {length : Nat}
    (hlength : length < framing.frameLength) : frameStarts framing length = [] := by
  rw [frameStarts, Framing.frameCount, if_pos hlength, List.range_zero, List.map_nil]

/-- Where no frame fits nothing is added to silence. -/
theorem residual_of_size_lt {signal : Signal ℝ} {framing : Framing} (hhop : 1 ≤ framing.hop)
    (hframe : 2 ≤ framing.frameLength) (hstored : framing.frameLength ≤ maxLength)
    (hsize : signal.size < framing.frameLength) :
    residual signal framing = .ok (.silence signal.size) := by
  rw [residual_eq_ok_iff, frameStarts_of_size_lt hsize]
  exact ⟨hhop, signal.allFinite_real, hframe, hstored, _, rfl, rfl, Signal.silence_normalize _⟩

end Residual

namespace MeanBased

section HalfWindow

variable (length : Nat) (sampleRate meanPeriod : α) (config : SedreamsConfig α)

theorem halfLength_le_third : halfLength length sampleRate meanPeriod config ≤ length / 3 :=
  Nat.min_le_right _ _

/-- Three samples are enough for a half window, whatever the span. -/
theorem one_le_halfLength_iff :
    1 ≤ halfLength length sampleRate meanPeriod config ↔ 3 ≤ length := by
  rw [halfLength]
  omega

end HalfWindow

/-- The mean-based signal exists where the half window is not empty. -/
theorem meanBased_eq_ok_iff (signal result : Signal α) (sampleRate meanPeriod : α)
    (config : SedreamsConfig α) :
    meanBased signal sampleRate meanPeriod config = .ok result ↔
      1 ≤ halfLength signal.size sampleRate meanPeriod config ∧
        (Filter.preEmphasisPasses config.highpassPasses
          (average signal (halfLength signal.size sampleRate meanPeriod config))
          sampleRate config.highpassCutoffHz).normalize = result := by
  rw [meanBased, require_bind_eq_ok_iff, pure_eq_ok_iff, decide_eq_true_iff]

theorem size_of_meanBased_eq_ok {signal result : Signal α} {sampleRate meanPeriod : α}
    {config : SedreamsConfig α}
    (hresult : meanBased signal sampleRate meanPeriod config = .ok result) :
    result.size = signal.size := by
  rw [← ((meanBased_eq_ok_iff signal result sampleRate meanPeriod config).mp hresult).2,
    Signal.size_normalize, Filter.size_preEmphasisPasses, size_average]

/-- A signal of fewer than three samples has no mean-based signal. -/
theorem three_le_size_of_meanBased_eq_ok {signal result : Signal α}
    {sampleRate meanPeriod : α} {config : SedreamsConfig α}
    (hresult : meanBased signal sampleRate meanPeriod config = .ok result) :
    3 ≤ signal.size := by
  rw [← one_le_halfLength_iff signal.size sampleRate meanPeriod config]
  exact ((meanBased_eq_ok_iff signal result sampleRate meanPeriod config).mp hresult).1

/-- Three samples are enough for a mean-based signal, whatever the configuration. -/
theorem exists_meanBased_eq_ok {signal : Signal α} (hsize : 3 ≤ signal.size)
    (sampleRate meanPeriod : α) (config : SedreamsConfig α) :
    ∃ result, meanBased signal sampleRate meanPeriod config = .ok result := by
  have hhalf := (one_le_halfLength_iff signal.size sampleRate meanPeriod config).mpr hsize
  exact ⟨_, (meanBased_eq_ok_iff signal _ sampleRate meanPeriod config).mpr ⟨hhalf, rfl⟩⟩

theorem meanBased_eq_error_iff (signal : Signal α) (sampleRate meanPeriod : α)
    (config : SedreamsConfig α) (error : AnalysisError α) :
    meanBased signal sampleRate meanPeriod config = .error error ↔
      signal.size < 3 ∧ error = .signalTooShort signal.size := by
  have hhalf := one_le_halfLength_iff signal.size sampleRate meanPeriod config
  rw [meanBased]
  by_cases hsize : 3 ≤ signal.size
  · rw [require_bind_of (decide_eq_true (hhalf.mpr hsize))]
    exact iff_of_false nofun fun hshort => absurd hsize (not_le.mpr hshort.1)
  · rw [decide_eq_false (fun hone => hsize (hhalf.mp hone))]
    change Except.error (.signalTooShort signal.size) = .error error ↔ _
    rw [Except.error.injEq, eq_comm]
    exact (and_iff_right (not_le.mp hsize)).symm

end MeanBased

end Glottis
