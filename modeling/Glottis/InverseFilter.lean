import Glottis.Config.Basic
import Glottis.Filter

/-!
# Iterative adaptive inverse filtering

A voiced segment is the glottal source, shaped by the vocal tract and radiated
at the lips.  The filter alternates between predictors of the glottis and of the
vocal tract, each fitted to the segment with the effect of the other removed,
and returns the segment with the final vocal tract and the lip radiation taken
out.
-/

namespace Glottis.InverseFilter

open LinearPrediction

variable {α : Type} [Scalar α]

structure Parameters (α : Type) where
  vocalTractOrder : Nat
  glottisOrder : Nat
  lipRadiation : α

def validate (segment : Signal α) (parameters : Parameters α) :
    Except (AnalysisError α) Unit := do
  require (2 ≤ segment.size) .segmentTooShort
  require (1 ≤ parameters.vocalTractOrder) .zeroVocalTractOrder
  require (1 ≤ parameters.glottisOrder) .zeroGlottisOrder
  require (Scalar.isFinite parameters.lipRadiation) .lipRadiationNotFinite
  require segment.allFinite .segmentNotFinite

def rampLength (parameters : Parameters α) : Nat := 2 * parameters.vocalTractOrder + 1

/-- The segment behind a ramp that runs from its negated first sample to its
first sample, which keeps the transients of the filters out of the segment. -/
def withRamp (segment : Signal α) (ramp : Nat) : Signal α :=
  let first := segment.sample 0
  let step := (first - -first) / ((ramp - 1 : Nat) : α)
  .tabulate (segment.size + ramp) fun index =>
    if index < ramp then -first + step * (index : α) else segment.sample (index - ramp)

/-- The signal with the lip radiation `1 - d z⁻¹` taken out. -/
def cancelLips (signal : Signal α) (lipRadiation : α) : Signal α :=
  Filter.iir #[1] #[1, -lipRadiation] signal

def afterRamp (signal : Signal α) (ramp : Nat) : Signal α :=
  .tabulate (signal.size - ramp) fun index => signal.sample (ramp + index)

def tapered (segment : Signal α) : Signal α :=
  .tabulate segment.size fun index =>
    segment.sample index * WindowKind.hamming.shape.weight segment.size index

def fit (segment : Signal α) (order : Nat) : Signal α :=
  (levinson (.tabulate (order + 1) (autocorrelation (tapered segment))) order).polynomial

/-- The extended signal filtered by a polynomial, without the ramp. -/
def filtered (extended : Signal α) (ramp : Nat) (polynomial : Signal α) : Signal α :=
  afterRamp (Filter.fir polynomial extended) ramp

/-- The gross glottis model after a number of refinements: each fits a
first-order polynomial to the signal filtered by the polynomial of the one
before, and multiplies it in. -/
def refineGlottis (extended : Signal α) (ramp : Nat) :
    (remaining : Nat) → (stage composed : Signal α) → Signal α
  | 0, _, composed => composed
  | remaining + 1, stage, composed =>
      let next := fit (filtered extended ramp stage) 1
      refineGlottis extended ramp remaining next (Filter.convolve composed next)

/-- The vocal tract polynomial of a segment behind a ramp, whose lip radiation
has been taken out: a gross glottis model gives a gross vocal tract, that a fine
glottis, and that the fine vocal tract. -/
def vocalTract (segment extended : Signal α) (parameters : Parameters α) : Signal α :=
  let ramp := rampLength parameters
  let first := fit segment 1
  let grossGlottis :=
    refineGlottis extended ramp (parameters.glottisOrder - 1) first first
  let grossTract := fit (filtered extended ramp grossGlottis) parameters.vocalTractOrder
  let fineGlottis := fit (filtered extended ramp grossTract) parameters.glottisOrder
  fit (filtered extended ramp fineGlottis) parameters.vocalTractOrder

def source (segment : Signal α) (parameters : Parameters α) : Signal α :=
  let ramp := rampLength parameters
  let extended := cancelLips (withRamp segment ramp) parameters.lipRadiation
  let cancelled := cancelLips segment parameters.lipRadiation
  filtered extended ramp (vocalTract cancelled extended parameters)

/-- The glottal source estimate of a segment, of the same length. -/
def inverseFilter (segment : Signal α) (parameters : Parameters α) :
    Except (AnalysisError α) (Signal α) := do
  validate segment parameters
  return source segment parameters

/-- The indices that the filter forms on a segment of some length can be
stored. -/
def fitsIndex (length : Nat) (parameters : Parameters α) : Bool :=
  decide (length + rampLength parameters ≤ maxLength) &&
    decide (parameters.glottisOrder + 1 ≤ maxLength)

/-- The glottal source estimate, refused where an index would leave its
range. -/
def indexedInverseFilter (segment : Signal α) (parameters : Parameters α) :
    Except (AnalysisError α) (Signal α) := do
  validate segment parameters
  require (fitsIndex segment.size parameters) .indexOverflow
  return source segment parameters

def ofConfig (segment : Signal α) (sampleRate : α) (config : InverseFilterConfig α) :
    Except (AnalysisError α) (Signal α) := do
  require (Scalar.isPositive sampleRate) (.sampleRateNotPositive sampleRate)
  let (vocalTractOrder, glottisOrder) ← config.orders sampleRate
  indexedInverseFilter segment ⟨vocalTractOrder, glottisOrder, config.lipRadiation⟩

end Glottis.InverseFilter
