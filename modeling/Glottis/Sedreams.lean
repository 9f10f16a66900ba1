import Glottis.Cycle
import Glottis.Extremum
import Glottis.MeanBased
import Glottis.Residual

/-!
# Cycles from the residual and the mean-based signal

Each minimum of the mean-based signal announces a closure and each maximum an
opening.  The instant itself is the strongest residual sample shortly after.
Neighbouring closures make a cycle when an opening falls strictly between them.
-/

namespace Glottis.Sedreams

variable {α : Type} [Scalar α]

/-- The better of the best sample so far and the sample at an index: the first
of the largest samples above a threshold. -/
def stronger (signal : Signal α) (threshold : α) (best : Option Nat) (index : Nat) :
    Option Nat :=
  if threshold < signal.sample index then
    match best with
    | none => some index
    | some earlier =>
        if signal.sample earlier < signal.sample index then some index else some earlier
  else best

/-- The last index of the window of `span` samples after `start`, clipped to the
signal. -/
def windowEnd (signal : Signal α) (start span : Nat) : Nat :=
  min (start + span) (signal.size - 1)

/-- The first of the largest samples above a threshold from `start` to
`start + span`, or `start` where none is above it. -/
def strongestAbove (signal : Signal α) (start span : Nat) (threshold : α) : Nat :=
  ((List.range' start (windowEnd signal start span + 1 - start)).foldl
    (stronger signal threshold) none).getD start

/-- The first opening strictly between two closures. -/
def openingBetween? (openings : List Nat) (closure nextClosure : Nat) : Option Nat :=
  openings.find? fun opening => closure < opening && opening < nextClosure

/-- The cycles of ascending closures; a cycle without an opening is dropped. -/
def pairInstants (openings : List Nat) : List Nat → List GlottalCycle
  | closure :: nextClosure :: closures =>
      let later := pairInstants openings (nextClosure :: closures)
      match openingBetween? openings closure nextClosure with
      | none => later
      | some opening => ⟨closure, opening, nextClosure⟩ :: later
  | _ => []

def sortedDistinct (indices : List Nat) : List Nat :=
  (indices.mergeSort (· ≤ ·)).eraseReps

/-- The residual with samples of subnormal size and undefined samples set to
zero. -/
def cleanResidual (residual : Signal α) : Signal α :=
  residual.map fun value => if Scalar.isNormal value then value else 0

/-- A span in mean pitch periods as a number of samples. -/
def spanSamples (span sampleRate meanPeriod : α) : Nat :=
  Scalar.round (span * sampleRate * meanPeriod)

def instants (residual : Signal α) (span : Nat) (threshold : α) (starts : List Nat) :
    Except (AnalysisError α) (List Nat) := do
  require (starts.all fun start => start + span ≤ maxIndex) .indexOverflow
  return starts.map fun start => strongestAbove residual start span threshold

def detect (config : SedreamsConfig α) (signal : Signal α) (sampleRate meanF0 : α) :
    Except (AnalysisError α) (List GlottalCycle) := do
  require (Scalar.isPositive sampleRate) (.sampleRateNotPositive sampleRate)
  require (Scalar.isPositive meanF0) (.meanF0NotPositive meanF0)
  if signal.size < 3 then return []
  let meanPeriod := 1 / meanF0
  let residual := cleanResidual (← Residual.residual signal (config.framing sampleRate))
  let meanBased ← MeanBased.meanBased signal sampleRate meanPeriod config
  let closures ← instants residual
    (spanSamples config.gciSearchSpan sampleRate meanPeriod) config.gciThreshold
    (Extremum.find meanBased .minimum)
  let openings ← instants residual
    (spanSamples config.goiSearchSpan sampleRate meanPeriod) config.goiThreshold
    (Extremum.find meanBased .maximum)
  return pairInstants openings (sortedDistinct closures)

end Glottis.Sedreams
