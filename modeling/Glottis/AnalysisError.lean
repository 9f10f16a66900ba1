/-!
# Why an analysis fails

Each constructor names one cause and carries what its message shows.  Causes
are of three kinds: input that cannot produce a finite result, a size or order
that violates a caller contract, and a sum of indices that leaves the 64-bit
range.
-/

namespace Glottis

inductive AnalysisError.Kind where
  | invalidInput
  | precondition
  | indexOverflow
  deriving DecidableEq, Repr

/-- Causes of failure; `α` is the type of sample values. -/
inductive AnalysisError (α : Type) where
  | windowTooShort (length : Nat)
  | zeroPredictionOrder
  | zeroHop
  | signalNotFinite
  | signalTooShort (length : Nat)
  | sampleRateNotPositive (sampleRate : α)
  | meanF0NotPositive (meanF0 : α)
  | levelsOutOfRange (maximum levels : Nat)
  | segmentTooShort
  | zeroVocalTractOrder
  | zeroGlottisOrder
  | lipRadiationNotFinite
  | segmentNotFinite
  | noCycleForOpenQuotient
  | noCycleForMeanF0
  | openQuotientOfEmptyCycle (closure : Nat)
  | meanF0OfEmptyCycle (closure : Nat)
  | indexOverflow
  deriving DecidableEq, Repr

namespace AnalysisError

variable {α : Type}

def kind : AnalysisError α → Kind
  | windowTooShort _ | zeroPredictionOrder | zeroHop | signalTooShort _
  | levelsOutOfRange _ _ | segmentTooShort | zeroVocalTractOrder | zeroGlottisOrder =>
      .precondition
  | signalNotFinite | sampleRateNotPositive _ | meanF0NotPositive _
  | lipRadiationNotFinite | segmentNotFinite | noCycleForOpenQuotient | noCycleForMeanF0
  | openQuotientOfEmptyCycle _ | meanF0OfEmptyCycle _ => .invalidInput
  | indexOverflow => .indexOverflow

def message (write : α → String) : AnalysisError α → String
  | windowTooShort length => s!"window length must be at least 2, got {length}"
  | zeroPredictionOrder => "LPC order must be at least 1"
  | zeroHop => "residual hop size must be at least 1 sample"
  | signalNotFinite => "signal contains non-finite samples"
  | signalTooShort length => s!"mean-based signal needs at least 3 samples, got {length}"
  | sampleRateNotPositive sampleRate =>
      "sample rate must be positive, got " ++ write sampleRate
  | meanF0NotPositive meanF0 => "mean F0 must be positive, got " ++ write meanF0
  | levelsOutOfRange maximum levels =>
      s!"decomposition level must be between 1 and {maximum}, got {levels}"
  | segmentTooShort => "IAIF needs at least two samples"
  | zeroVocalTractOrder => "vocal tract order must be at least 1"
  | zeroGlottisOrder => "glottis order must be at least 1"
  | lipRadiationNotFinite => "lip radiation coefficient must be finite"
  | segmentNotFinite => "segment contains non-finite samples"
  | noCycleForOpenQuotient => "open quotient needs at least one glottal cycle"
  | noCycleForMeanF0 => "cannot derive F0 from an empty pair list"
  | openQuotientOfEmptyCycle closure => s!"glottal cycle at sample {closure} has zero length"
  | meanF0OfEmptyCycle closure => s!"pair at gci {closure} has a zero-length period"
  | indexOverflow => "sample index out of range"

/-- The message with its category in front, as it stands in a chain of causes. -/
def describe (write : α → String) (error : AnalysisError α) : String :=
  match error.kind with
  | .invalidInput => "invalid input: " ++ error.message write
  | .precondition => "precondition violated: " ++ error.message write
  | .indexOverflow => error.message write

end AnalysisError

/-- Fail with `error` unless `condition` holds. -/
def require {ε : Type} (condition : Bool) (error : ε) : Except ε Unit :=
  if condition then .ok () else .error error

end Glottis
