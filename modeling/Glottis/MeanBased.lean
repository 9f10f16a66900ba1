import Glottis.Config.Basic
import Glottis.Filter

/-!
# Mean-based signal

The waveform averaged over about two pitch periods oscillates once per period.
The average is centred: the weights of a causal moving average are symmetric,
and its output is moved back by half its length.
-/

namespace Glottis.MeanBased

variable {α : Type} [Scalar α]

/-- Half the length of the averaging window: half the configured span, at least
one sample and at most a third of the signal. -/
def halfLength (length : Nat) (sampleRate meanPeriod : α) (config : SedreamsConfig α) : Nat :=
  min (max (Scalar.round (config.meanBasedSpan * meanPeriod * sampleRate / 2.0)) 1)
    (length / 3)

/-- The Blackman-Harris window of odd length around the centre, scaled to unit
sum. -/
def weights (half : Nat) : Signal α :=
  let taper : Signal α :=
    .tabulate (2 * half + 1) (WindowKind.blackmanHarris.shape.weight (2 * half + 1))
  let total := sumLanes taper.size taper.sample
  taper.map (· / total)

/-- The centred weighted average over `2 * half + 1` samples where the whole
window fits into the signal, zero elsewhere. -/
def average (signal : Signal α) (half : Nat) : Signal α :=
  let window : Signal α := weights half
  .tabulate signal.size fun index =>
    if half ≤ index ∧ index + half < signal.size then
      Filter.feedForward window signal (index + half)
    else 0

@[simp]
theorem size_average (signal : Signal α) (half : Nat) :
    (average signal half).size = signal.size := by
  simp [average]

/-- The mean-based signal: the average, high-passed repeatedly and normalized to
a unit peak. -/
def meanBased (signal : Signal α) (sampleRate meanPeriod : α) (config : SedreamsConfig α) :
    Except (AnalysisError α) (Signal α) := do
  let half := halfLength signal.size sampleRate meanPeriod config
  require (1 ≤ half) (.signalTooShort signal.size)
  let averaged := average signal half
  return (Filter.preEmphasisPasses config.highpassPasses averaged sampleRate
    config.highpassCutoffHz).normalize

end Glottis.MeanBased
