import Glottis.Config.Basic
import Glottis.Json.Value

/-!
# Configuration texts

A record of named fields is written as an object or as an array of its fields in
order.  A field that is absent takes its default value.  In an object, members
with other names are passed over, and a field that occurs twice is refused; an
array may leave out fields at its end but may not go on past them.
-/

namespace Glottis

open Json

abbrev Fields := List (String × Value)

namespace Fields

/-- The members of an object whose names are known, in order; refused if a name
is no Unicode text. -/
def known (names : List String) : List Member → Option Fields
  | [] => some []
  | (none, _) :: _ => none
  | (some name, value) :: members => do
      let fields ← known names members
      return if names.contains name then (name, value) :: fields else fields

def distinct (fields : Fields) : Bool := decide (fields.map Prod.fst).Nodup

def ofValue? (names : List String) : Value → Option Fields
  | .object members => do
      let fields ← known names members
      guard fields.distinct
      return fields
  | .array items =>
      if items.length ≤ names.length then some (names.zip items) else none
  | _ => none

/-- A field decoded, or its default where it is absent. -/
def get? {β : Type} (fields : Fields) (name : String) (decode : Value → Option β)
    (default : β) : Option β :=
  match fields.lookup name with
  | none => some default
  | some value => decode value

end Fields

namespace Decode

/-- A number as a sample value; a value beyond the finite range is refused. -/
def real {α : Type} [Scalar α] : Value → Option α
  | .number written =>
      (written.scaled.value? : Option α).map fun size =>
        if written.negative then -size else size
  | _ => none

def count (limit : Nat) : Value → Option Nat
  | .number written => written.count?.filter (· ≤ limit)
  | _ => none

/-- A count that may be null, which stands for its absence. -/
def optionalCount (limit : Nat) : Value → Option (Option Nat)
  | .null => some none
  | value => (count limit value).map some

/-- One of some names, or an object with one member of that name that is
null. -/
def choice {β : Type} (ofName? : String → Option β) : Value → Option β
  | .string (some name) => ofName? name
  | .object [(some name, .null)] => ofName? name
  | _ => none

end Decode

namespace SedreamsConfig

def fieldNames : List String :=
  ["residual_frame_ms", "residual_hop_ms", "residual_window", "lpc_order", "lpc_method",
    "mean_based_span", "highpass_passes", "highpass_cutoff_hz", "gci_search_span",
    "gci_threshold", "goi_search_span", "goi_threshold", "default_f0", "min_f0", "max_f0"]

def ofValue? {α : Type} [Scalar α] (value : Value) : Option (SedreamsConfig α) := do
  let fields ← Fields.ofValue? fieldNames value
  let base : SedreamsConfig α := .standard
  return {
    residualFrameMs := ← fields.get? "residual_frame_ms" Decode.real base.residualFrameMs
    residualHopMs := ← fields.get? "residual_hop_ms" Decode.real base.residualHopMs
    residualWindow :=
      ← fields.get? "residual_window" (Decode.choice WindowKind.ofName?) base.residualWindow
    lpcOrder := ← fields.get? "lpc_order" (Decode.count maxIndex) base.lpcOrder
    lpcMethod :=
      ← fields.get? "lpc_method" (Decode.choice LinearPrediction.Method.ofName?) base.lpcMethod
    meanBasedSpan := ← fields.get? "mean_based_span" Decode.real base.meanBasedSpan
    highpassPasses :=
      ← fields.get? "highpass_passes" (Decode.count maxIndex) base.highpassPasses
    highpassCutoffHz := ← fields.get? "highpass_cutoff_hz" Decode.real base.highpassCutoffHz
    gciSearchSpan := ← fields.get? "gci_search_span" Decode.real base.gciSearchSpan
    gciThreshold := ← fields.get? "gci_threshold" Decode.real base.gciThreshold
    goiSearchSpan := ← fields.get? "goi_search_span" Decode.real base.goiSearchSpan
    goiThreshold := ← fields.get? "goi_threshold" Decode.real base.goiThreshold
    defaultF0 := ← fields.get? "default_f0" Decode.real base.defaultF0
    minF0 := ← fields.get? "min_f0" Decode.real base.minF0
    maxF0 := ← fields.get? "max_f0" Decode.real base.maxF0 }

end SedreamsConfig

namespace MultiProductConfig

/-- The largest depth that can be written. -/
def maxWritten : Nat := 0xffffffff

def ofValue? (value : Value) : Option MultiProductConfig := do
  let fields ← Fields.ofValue? ["levels"] value
  return ⟨← fields.get? "levels" (Decode.count maxWritten) standard.levels⟩

end MultiProductConfig

namespace InverseFilterConfig

def fieldNames : List String := ["lip_radiation", "vocal_tract_order", "glottis_order"]

def ofValue? {α : Type} [Scalar α] (value : Value) : Option (InverseFilterConfig α) := do
  let fields ← Fields.ofValue? fieldNames value
  let base : InverseFilterConfig α := .standard
  return {
    lipRadiation := ← fields.get? "lip_radiation" Decode.real base.lipRadiation
    vocalTractOrder :=
      ← fields.get? "vocal_tract_order" (Decode.optionalCount maxIndex) base.vocalTractOrder
    glottisOrder :=
      ← fields.get? "glottis_order" (Decode.optionalCount maxIndex) base.glottisOrder }

end InverseFilterConfig

namespace Config

variable {α : Type} [Scalar α]

def partNames : List String := ["sedreams", "multi_product", "iaif"]

def ofValue? (value : Value) : Option (Config α) := do
  let parts ← Fields.ofValue? partNames value
  return {
    sedreams := ← parts.get? "sedreams" SedreamsConfig.ofValue? .standard
    multiProduct := ← parts.get? "multi_product" MultiProductConfig.ofValue? .standard
    inverseFilter := ← parts.get? "iaif" InverseFilterConfig.ofValue? .standard }

def parse? (text : String) : Option (Config α) := (Json.read? text).bind ofValue?

end Config

end Glottis
