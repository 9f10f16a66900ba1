import Glottis.CommandLine.Arguments
import Glottis.Config.Load
import Glottis.InverseFilter
import Glottis.MultiProduct
import Glottis.Sedreams
import Glottis.Wave.Reader
import Glottis.Wave.Writer

/-!
# The program

An invocation is checked, its configuration is loaded and its recording decoded
and analyzed before anything is written.  The glottal source goes to a file only
after the analysis has succeeded, and the report is given only after that file
has been written.
-/

namespace Glottis.CommandLine

variable {α : Type} [Scalar α]

/-- The result of an analysis.  The open quotient and the mean F0 are absent
where no cycle was found. -/
structure Report (α : Type) where
  sampleRate : Nat
  samples : Nat
  method : DetectionMethod
  assumedF0 : Option α
  levels : Option Nat
  cycles : List GlottalCycle
  openQuotient : Option α
  meanF0 : Option α

inductive ArgumentError (α : Type) where
  | missingInput (path : String)
  | inputNotFile (path : String)
  | meanF0NotPositive (meanF0 : α)
  | levelsWithoutMultiProduct
  | meanF0WithoutSedreams
  deriving DecidableEq, Repr

def ArgumentError.message {α : Type} (write : α → String) : ArgumentError α → String
  | missingInput path => "Input file does not exist: " ++ Text.quoted path
  | inputNotFile path => "Input path is not a file: " ++ Text.quoted path
  | meanF0NotPositive meanF0 => "Mean F0 must be positive, got: " ++ write meanF0
  | levelsWithoutMultiProduct => "--levels only applies to --method multi-product"
  | meanF0WithoutSedreams => "--mean-f0 only applies to --method sedreams"

/-- The stage at which an invocation failed, with its cause. -/
inductive Failure (α : Type) where
  | arguments (cause : ArgumentError α)
  | configuration (cause : LoadError α)
  | decoding (cause : Wave.DecodeError)
  | detection (method : DetectionMethod) (cause : AnalysisError α)
  | openQuotient (cause : AnalysisError α)
  | meanF0 (cause : AnalysisError α)
  | inverseFiltering (cause : AnalysisError α)
  | writing (path : String) (cause : Wave.EncodeError)
  deriving DecidableEq, Repr

namespace Failure

def chain {α : Type} (write : α → String) : Failure α → List String
  | arguments cause => ["Failed to validate command-line arguments", cause.message write]
  | configuration cause => "Failed to load analysis configuration" :: cause.chain write
  | decoding cause => "Failed to decode input audio" :: cause.chain
  | detection .sedreams cause => ["Sedreams detection failed", cause.describe write]
  | detection .multiProduct cause => ["Multi-product detection failed", cause.describe write]
  | openQuotient cause => ["Failed to estimate open quotient", cause.describe write]
  | meanF0 cause => ["Failed to estimate mean F0", cause.describe write]
  | inverseFiltering cause => ["Inverse filtering failed", cause.describe write]
  | writing path cause => ("Failed to write glottal source to " ++ Text.quoted path) :: cause.chain

/-- A size or an index left its range: the program stops at once instead of
reporting an error. -/
def isAbort {α : Type} : Failure α → Bool
  | decoding .scaleOutOfRange => true
  | writing _ .byteRateOutOfRange => true
  | detection _ .indexOverflow => true
  | inverseFiltering .indexOverflow => true
  | _ => false

end Failure

def validate (fileSystem : FileSystem) (invocation : Invocation α) :
    Except (ArgumentError α) Unit := do
  require (fileSystem.pathExists invocation.input) (.missingInput invocation.input)
  require (fileSystem.isFile invocation.input) (.inputNotFile invocation.input)
  match invocation.meanF0 with
  | none => pure ()
  | some meanF0 => require (Scalar.isPositive meanF0) (.meanF0NotPositive meanF0)
  require (invocation.levels.isNone || invocation.method == .multiProduct)
    .levelsWithoutMultiProduct
  require (invocation.meanF0.isNone || invocation.method == .sedreams)
    .meanF0WithoutSedreams

/-- The cycles of a recording, with the F0 or the depth that was used. -/
def detect (invocation : Invocation α) (config : Config α) (recording : Recording α) :
    Except (AnalysisError α) (List GlottalCycle × Option α × Option Nat) :=
  let sampleRate : α := (recording.sampleRate : α)
  match invocation.method with
  | .sedreams => do
      let f0 := config.sedreams.plausibleF0 invocation.meanF0
      let cycles ← Sedreams.detect config.sedreams recording.samples sampleRate f0
      return (cycles, some f0, none)
  | .multiProduct => do
      let levels := invocation.levels.getD config.multiProduct.levels
      let detector ← MultiProduct.Detector.ofLevels levels
      let cycles ← detector.detect recording.samples sampleRate
      return (cycles, none, some levels)

def analyze (invocation : Invocation α) (config : Config α) (recording : Recording α) :
    Except (Failure α) (Report α) := do
  let sampleRate : α := (recording.sampleRate : α)
  let (cycles, assumedF0, levels) ←
    (detect invocation config recording).mapError (.detection invocation.method)
  let report : Report α := {
    sampleRate := recording.sampleRate
    samples := recording.samples.size
    method := invocation.method
    assumedF0 := assumedF0
    levels := levels
    cycles := cycles
    openQuotient := none
    meanF0 := none }
  if cycles.isEmpty then return report
  let openQuotient ← (GlottalCycle.openQuotient cycles).mapError .openQuotient
  let meanF0 ← (GlottalCycle.meanF0 cycles sampleRate).mapError .meanF0
  return { report with openQuotient := some openQuotient, meanF0 := some meanF0 }

/-- The glottal source of a recording, scaled to a unit peak. -/
def glottalSource (config : Config α) (recording : Recording α) :
    Except (Failure α) (Recording α) := do
  let source ←
    (InverseFilter.ofConfig recording.samples (recording.sampleRate : α)
      config.inverseFilter).mapError .inverseFiltering
  return ⟨source.normalize, recording.sampleRate⟩

/-- All of an invocation that only reads: the report, and the path and the
contents of the file to write, if there is one. -/
def prepare (fileSystem : FileSystem) (invocation : Invocation α) :
    Except (Failure α) (Report α × Option (String × Recording α)) := do
  (validate fileSystem invocation).mapError .arguments
  let config ←
    (Config.load fileSystem invocation.configFile invocation.configJson).mapError .configuration
  let recording ← (Wave.decode fileSystem invocation.input).mapError .decoding
  let report ← analyze invocation config recording
  match invocation.sourceOut with
  | none => return (report, none)
  | some path => return (report, some (path, ← glottalSource config recording))

/-- Carry out an invocation: the file system it leaves, and its report. -/
def execute (fileSystem : FileSystem) (invocation : Invocation α) :
    FileSystem × Except (Failure α) (Report α) :=
  match prepare fileSystem invocation with
  | .error failure => (fileSystem, .error failure)
  | .ok (report, none) => (fileSystem, .ok report)
  | .ok (report, some (path, source)) =>
      match Wave.encode fileSystem path source with
      | (written, .ok ()) => (written, .ok report)
      | (written, .error cause) => (written, .error (.writing path cause))

inductive Outcome (α : Type) where
  | report (report : Report α)
  | failed (failure : Failure α)
  | information
  | refused

def Outcome.status {α : Type} : Outcome α → Nat
  | report _ | information => 0
  | failed failure => if failure.isAbort then 101 else 1
  | refused => 2

def run (fileSystem : FileSystem) (arguments : List String) :
    FileSystem × Outcome Float :=
  match parse arguments with
  | .refused => (fileSystem, .refused)
  | .information => (fileSystem, .information)
  | .analyze invocation =>
      match execute fileSystem invocation with
      | (left, .ok report) => (left, .report report)
      | (left, .error failure) => (left, .failed failure)

end Glottis.CommandLine
