import Glottis.Filter
import Glottis.LinearPrediction
import Glottis.Window

/-!
# Prediction residual

The residual of a signal is built by overlap-add.  Each complete frame is
tapered, whitened by its own predictor and rescaled to the energy it had before
whitening; the sum is normalized to a unit peak.  Samples that no complete
frame covers stay zero.
-/

namespace Glottis.Residual

open LinearPrediction

variable {α : Type} [Scalar α]

/-- How frames are cut and analyzed; lengths are in samples. -/
structure Framing where
  frameLength : Nat
  hop : Nat
  order : Nat
  method : Method
  window : WindowKind
  deriving DecidableEq, Repr

namespace Framing

def frameCount (framing : Framing) (length : Nat) : Nat :=
  if length < framing.frameLength then 0
  else (length - framing.frameLength) / framing.hop + 1

/-- The end of the first frame that no longer fits is still a valid index. -/
def fitsIndex (framing : Framing) (length : Nat) : Bool :=
  framing.frameCount length * framing.hop + framing.frameLength ≤ maxIndex

end Framing

def frame (signal : Signal α) (framing : Framing) (start : Nat) : Signal α :=
  .tabulate framing.frameLength fun index =>
    signal.sample (start + index) *
      framing.window.shape.weight framing.frameLength index

/-- A frame whitened and rescaled to its own energy.  A frame without energy
before or after whitening contributes nothing. -/
def whiten (segment : Signal α) (order : Nat) (method : Method) :
    Except (AnalysisError α) (Option (Signal α)) := do
  let power := segment.energy
  if 0 < power then
    let predictor ← analyze segment order method
    let error := Filter.fir predictor.polynomial segment
    let left := error.energy
    if 0 < left then
      let scale := Scalar.sqrt (power / left)
      return some (error.map (· * scale))
    else return none
  else return none

def overlapAdd (signal contribution : Signal α) (start : Nat) : Signal α :=
  .tabulate signal.size fun index =>
    if start ≤ index ∧ index - start < contribution.size then
      signal.sample index + contribution.sample (index - start)
    else signal.sample index

@[simp]
theorem size_overlapAdd (signal contribution : Signal α) (start : Nat) :
    (overlapAdd signal contribution start).size = signal.size := by
  simp [overlapAdd]

/-- A running sum with the contributions of the frames that start at the given
indices added in turn. -/
def accumulate (signal : Signal α) (framing : Framing) :
    List Nat → Signal α → Except (AnalysisError α) (Signal α)
  | [], total => .ok total
  | start :: starts, total => do
      match ← whiten (frame signal framing start) framing.order framing.method with
      | none => accumulate signal framing starts total
      | some contribution =>
          accumulate signal framing starts (overlapAdd total contribution start)

def frameStarts (framing : Framing) (length : Nat) : List Nat :=
  (List.range (framing.frameCount length)).map (· * framing.hop)

def residual (signal : Signal α) (framing : Framing) :
    Except (AnalysisError α) (Signal α) := do
  require (1 ≤ framing.hop) .zeroHop
  require signal.allFinite .signalNotFinite
  Window.checkLength framing.frameLength
  require (framing.frameLength ≤ maxLength) .indexOverflow
  let starts := frameStarts framing signal.size
  let total ← accumulate signal framing starts (.silence signal.size)
  require (starts.isEmpty || framing.fitsIndex signal.size) .indexOverflow
  return total.normalize

end Glottis.Residual
