import Glottis.LinearPrediction
import Glottis.Residual
import Glottis.Window

/-!
# Analysis configuration

The tunable constants of the detectors and of the inverse filter, their default
values, the conditions under which they are accepted, and the quantities that
are derived from them and a sample rate.
-/

namespace Glottis

/-- The deepest supported dyadic decomposition. -/
def maxLevels : Nat := 24

/-- Constants of the detector on the mean-based signal.  Lengths ending in `Ms`
are milliseconds, spans are mean pitch periods, frequencies are in hertz.  An
F0 estimate is plausible above `minF0` and up to `maxF0`. -/
structure SedreamsConfig (α : Type) where
  residualFrameMs : α
  residualHopMs : α
  residualWindow : WindowKind
  lpcOrder : Nat
  lpcMethod : LinearPrediction.Method
  meanBasedSpan : α
  highpassPasses : Nat
  highpassCutoffHz : α
  gciSearchSpan : α
  gciThreshold : α
  goiSearchSpan : α
  goiThreshold : α
  defaultF0 : α
  minF0 : α
  maxF0 : α

/-- Constants of the detector on the multi-scale product: `levels - 1` dyadic
stages contribute. -/
structure MultiProductConfig where
  levels : Nat
  deriving DecidableEq, Repr

/-- Constants of the inverse filter: the coefficient `d` of the lip radiation
`1 / (1 - d z⁻¹)` and the model orders, which follow from the sample rate where
they are absent. -/
structure InverseFilterConfig (α : Type) where
  lipRadiation : α
  vocalTractOrder : Option Nat
  glottisOrder : Option Nat

structure Config (α : Type) where
  sedreams : SedreamsConfig α
  multiProduct : MultiProductConfig
  inverseFilter : InverseFilterConfig α

inductive ConfigError (α : Type) where
  | frameNotPositive
  | hopNotPositive
  | zeroPredictionOrder
  | spanNotPositive
  | cutoffNotPositive
  | negativeSearchSpan
  | emptyF0Range (minF0 maxF0 : α)
  | defaultF0OutOfRange (defaultF0 : α)
  | levelsOutOfRange (levels : Nat)
  | lipRadiationOutOfRange (lipRadiation : α)
  | zeroOrder
  deriving DecidableEq, Repr

def ConfigError.message {α : Type} (write : α → String) : ConfigError α → String
  | frameNotPositive => "residual_frame_ms must be positive"
  | hopNotPositive => "residual_hop_ms must be positive"
  | zeroPredictionOrder => "lpc_order must be greater than zero"
  | spanNotPositive => "mean_based_span must be positive"
  | cutoffNotPositive => "highpass_cutoff_hz must be positive"
  | negativeSearchSpan => "search spans must be non-negative"
  | emptyF0Range minF0 maxF0 =>
      "F0 range (" ++ write minF0 ++ ", " ++ write maxF0 ++ "] is empty"
  | defaultF0OutOfRange defaultF0 =>
      "default_f0 " ++ write defaultF0 ++ " must lie inside the plausible F0 range"
  | levelsOutOfRange levels => s!"levels must be between 1 and {maxLevels}, got {levels}"
  | lipRadiationOutOfRange lipRadiation =>
      "lip_radiation must lie in (-1, 1), got " ++ write lipRadiation
  | zeroOrder => "IAIF orders must be greater than zero"

namespace SedreamsConfig

variable {α : Type} [Scalar α]

def standard : SedreamsConfig α where
  residualFrameMs := 25.0
  residualHopMs := 5.0
  residualWindow := .hanning
  lpcOrder := 24
  lpcMethod := .autocorrelation
  meanBasedSpan := 1.75
  highpassPasses := 20
  highpassCutoffHz := 50.0
  gciSearchSpan := 0.25
  gciThreshold := 0.4
  goiSearchSpan := 0.15
  goiThreshold := 0.2
  defaultF0 := 180.0
  minF0 := 50.0
  maxF0 := 2500.0

def validate (config : SedreamsConfig α) : Except (ConfigError α) Unit := do
  require (0 < config.residualFrameMs) .frameNotPositive
  require (0 < config.residualHopMs) .hopNotPositive
  require (0 < config.lpcOrder) .zeroPredictionOrder
  require (0 < config.meanBasedSpan) .spanNotPositive
  require (0 < config.highpassCutoffHz) .cutoffNotPositive
  require (decide (0 ≤ config.gciSearchSpan) && decide (0 ≤ config.goiSearchSpan))
    .negativeSearchSpan
  require (decide (0 ≤ config.minF0) && decide (config.minF0 < config.maxF0))
    (.emptyF0Range config.minF0 config.maxF0)
  require (decide (config.minF0 < config.defaultF0) &&
      decide (config.defaultF0 ≤ config.maxF0))
    (.defaultF0OutOfRange config.defaultF0)

/-- The estimate where it is plausible, otherwise the default F0. -/
def plausibleF0 (config : SedreamsConfig α) (estimate : Option α) : α :=
  match estimate with
  | some f0 => if config.minF0 < f0 ∧ f0 ≤ config.maxF0 then f0 else config.defaultF0
  | none => config.defaultF0

def samplesOfMs (length sampleRate : α) : Nat :=
  Scalar.round (length / 1000.0 * sampleRate)

def framing (config : SedreamsConfig α) (sampleRate : α) : Residual.Framing where
  frameLength := samplesOfMs config.residualFrameMs sampleRate
  hop := samplesOfMs config.residualHopMs sampleRate
  order := config.lpcOrder
  method := config.lpcMethod
  window := config.residualWindow

end SedreamsConfig

namespace MultiProductConfig

def standard : MultiProductConfig := ⟨4⟩

def validate {α : Type} (config : MultiProductConfig) : Except (ConfigError α) Unit :=
  require (1 ≤ config.levels && config.levels ≤ maxLevels)
    (.levelsOutOfRange config.levels)

end MultiProductConfig

namespace InverseFilterConfig

variable {α : Type} [Scalar α]

def standard : InverseFilterConfig α := ⟨0.99, none, none⟩

def validate (config : InverseFilterConfig α) : Except (ConfigError α) Unit := do
  require (Scalar.isFinite config.lipRadiation &&
      decide (Scalar.magnitude config.lipRadiation < 1))
    (.lipRadiationOutOfRange config.lipRadiation)
  require (config.vocalTractOrder != some 0 && config.glottisOrder != some 0) .zeroOrder

/-- The vocal tract order at a sample rate: as set, or two for every two
kilohertz and four more. -/
def vocalTractAt (config : InverseFilterConfig α) (sampleRate : α) : Nat :=
  config.vocalTractOrder.getD (2 * Scalar.round (sampleRate / 2000.0) + 4)

/-- The glottis order at a sample rate: as set, or two for every four kilohertz
and at least one. -/
def glottisAt (config : InverseFilterConfig α) (sampleRate : α) : Nat :=
  config.glottisOrder.getD (max (2 * Scalar.round (sampleRate / 4000.0)) 1)

def orders (config : InverseFilterConfig α) (sampleRate : α) :
    Except (AnalysisError α) (Nat × Nat) := do
  require (config.vocalTractAt sampleRate ≤ maxIndex) .indexOverflow
  require (config.glottisAt sampleRate ≤ maxIndex) .indexOverflow
  return (config.vocalTractAt sampleRate, config.glottisAt sampleRate)

end InverseFilterConfig

namespace Config

variable {α : Type} [Scalar α]

def standard : Config α := ⟨.standard, .standard, .standard⟩

def validate (config : Config α) : Except (ConfigError α) Unit := do
  config.sedreams.validate
  config.multiProduct.validate
  config.inverseFilter.validate

end Config

end Glottis
