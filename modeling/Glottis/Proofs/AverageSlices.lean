import Mathlib
import Glottis.Proofs.Lengths
import Glottis.Proofs.PreEmphasis

/-!
# The average in slices

The centred average can be taken without looking ahead: a causal filter runs over the whole
signal, and its output without the first samples overwrites a stretch in the middle of a silent
signal.  Here both stretches have to lie inside their signals and to be of one length, the
window is checked when it is made, and pre-emphasis works in place.  Nothing is ever refused
that way, and the result is the mean-based signal, whatever the arithmetic.
-/

namespace Glottis

variable {α : Type} [Scalar α]

/-- A signal with the samples from `first` up to `stop` overwritten by those of a source from
`start` on.  Stretches that do not lie inside their signals are refused, and so are two of
different lengths. -/
def Signal.assign? (target source : Signal α) (first stop start : Nat) : Option (Signal α) :=
  if first ≤ stop ∧ stop ≤ target.size ∧ start ≤ source.size ∧
      stop - first = source.size - start then
    some (.tabulate target.size fun index =>
      if first ≤ index ∧ index < stop then source.sample (start + (index - first))
      else target.sample index)
  else none

namespace MeanBased

/-- The average as a stretch of the output of a causal filter, put into the middle of silence. -/
def averageInSlices? (window signal : Signal α) (half : Nat) : Option (Signal α) :=
  (Signal.silence signal.size).assign? (Filter.fir window signal) half (signal.size - half)
    (2 * half)

/-- The mean-based signal computed in slices.  A stretch that is refused leaves no signal. -/
def meanBasedInSlices (signal : Signal α) (sampleRate meanPeriod : α)
    (config : SedreamsConfig α) : Except (AnalysisError α) (Option (Signal α)) := do
  let half := halfLength signal.size sampleRate meanPeriod config
  require (1 ≤ half) (.signalTooShort signal.size)
  let taper ← WindowKind.blackmanHarris.generate (2 * half + 1)
  let total := sumLanes taper.size taper.sample
  let averaged := averageInSlices? (taper.map (· / total)) signal half
  return averaged.map fun placed =>
    (config.highpassPasses.fold
      (fun _ _ filtered =>
        Filter.preEmphasisInPlace filtered sampleRate config.highpassCutoffHz)
      placed).normalize

theorem sample_average_of_outside {signal : Signal α} {half index : Nat}
    (houtside : ¬(half ≤ index ∧ index + half < signal.size)) :
    (average signal half).sample index = 0 := by
  rw [average, Signal.sample_tabulate, if_neg houtside, ite_self]

/-- Both stretches lie inside their signals and have the same length where the window fits, and
the causal output is read where the centred average reads it. -/
theorem averageInSlices?_eq_some {signal : Signal α} {half : Nat}
    (hfits : 2 * half ≤ signal.size) :
    averageInSlices? (weights half) signal half = some (average signal half) := by
  have hstretches : half ≤ signal.size - half ∧
      signal.size - half ≤ (Signal.silence signal.size : Signal α).size ∧
      2 * half ≤ (Filter.fir (weights half) signal).size ∧
      signal.size - half - half = (Filter.fir (weights half) signal).size - 2 * half := by
    rw [Signal.size_silence, Filter.size_fir]
    omega
  rw [averageInSlices?, Signal.assign?, if_pos hstretches, Option.some.injEq]
  apply Signal.ext_sample
  · rw [Signal.size_tabulate, Signal.size_silence, size_average]
  · intro index hindex
    rw [Signal.size_tabulate, Signal.size_silence] at hindex
    rw [Signal.sample_tabulate, Signal.size_silence, if_pos hindex]
    by_cases hinside : half ≤ index ∧ index + half < signal.size
    · have hplace : 2 * half + (index - half) = index + half := by omega
      rw [if_pos ⟨hinside.1, by omega⟩, hplace, Filter.sample_fir _ _ hinside.2, average,
        Signal.sample_tabulate, if_pos hindex, if_pos hinside]
    · rw [if_neg (fun hmiddle => hinside ⟨hmiddle.1, by omega⟩), sample_average_of_outside hinside,
        Signal.silence, Signal.sample_tabulate, ite_self]

/-- In slices or not, the mean-based signal is the same, and no stretch is refused. -/
theorem meanBasedInSlices_eq (signal : Signal α) (sampleRate meanPeriod : α)
    (config : SedreamsConfig α) :
    meanBasedInSlices signal sampleRate meanPeriod config =
      (meanBased signal sampleRate meanPeriod config).map some := by
  have hthird := halfLength_le_third signal.size sampleRate meanPeriod config
  rw [meanBasedInSlices, meanBased]
  generalize halfLength signal.size sampleRate meanPeriod config = half at hthird
  by_cases hhalf : 1 ≤ half
  · have hlength : 2 ≤ 2 * half + 1 := by omega
    have hplaced : averageInSlices? (weights half) signal half = some (average signal half) :=
      averageInSlices?_eq_some (by omega)
    rw [require_bind_of (decide_eq_true hhalf), require_bind_of (decide_eq_true hhalf),
      WindowKind.generate, Window.generate, Window.checkLength,
      require_bind_of (decide_eq_true hlength)]
    simp only [Filter.preEmphasisInPlace_eq_preEmphasis]
    rw [weights] at hplaced
    simp only [pure_bind, hplaced]
    rfl
  · rw [decide_eq_false hhalf]
    rfl

end MeanBased

end Glottis
