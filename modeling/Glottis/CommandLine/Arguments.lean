import Glottis.Binary64
import Glottis.Decimal.Reading

/-!
# Command-line arguments

An invocation names an input file and may select the detection method, its
parameters, a configuration and a file for the glottal source.  An option takes
its value after an equals sign or as the next argument, and may be given once.
-/

namespace Glottis.CommandLine

open Decimal (ofDigits spanDigits)

inductive DetectionMethod where
  | sedreams
  | multiProduct
  deriving DecidableEq, Repr

def DetectionMethod.name : DetectionMethod → String
  | sedreams => "sedreams"
  | multiProduct => "multi-product"

structure Invocation (α : Type) where
  input : String
  method : DetectionMethod
  meanF0 : Option α
  levels : Option Nat
  configJson : Option String
  configFile : Option String
  sourceOut : Option String

/-- What a command line asks for: an analysis, the help or version text, or
nothing that is understood. -/
inductive Request where
  | analyze (invocation : Invocation Float)
  | information
  | refused

def spanSign : List Char → Bool × List Char
  | '-' :: rest => (true, rest)
  | '+' :: rest => (false, rest)
  | rest => (false, rest)

def spanFraction : List Char → List Char × List Char
  | '.' :: rest => spanDigits rest
  | rest => ([], rest)

/-- The exponent that ends a number; a mark without digits is refused. -/
def exponent? : List Char → Option Int
  | [] => some 0
  | mark :: rest =>
      if mark = 'e' ∨ mark = 'E' then
        let (negative, digits) := spanSign rest
        if digits.isEmpty || !digits.all Char.isDigit then none
        else
          let size : Int := ofDigits digits
          some (if negative then -size else size)
      else none

/-- An unsigned number: digits with an optional point and exponent, or the name
of a value that is not finite. -/
def unsignedReal? (text : List Char) : Option Float :=
  let name := String.ofList (text.map Char.toLower)
  if name = "inf" || name = "infinity" then some (1 / 0)
  else if name = "nan" then some (0 / 0)
  else
    let (whole, rest) := spanDigits text
    let (fraction, rest) := spanFraction rest
    if whole.isEmpty && fraction.isEmpty then none
    else
      (exponent? rest).map fun exponent =>
        Binary64.ofDecimal (ofDigits (whole ++ fraction))
          (exponent - (fraction.length : Int))

def real? (text : String) : Option Float :=
  let (negative, rest) := spanSign text.toList
  (unsignedReal? rest).map fun size => if negative then -size else size

/-- A count of 32 bits with an optional sign; a negated zero is zero. -/
def count? (text : String) : Option Nat :=
  let (negative, digits) := spanSign text.toList
  if digits.isEmpty || !digits.all Char.isDigit then none
  else
    let value := ofDigits digits
    if value < 0x100000000 ∧ (negative → value = 0) then some value else none

def method? (name : String) : Option DetectionMethod :=
  [DetectionMethod.sedreams, .multiProduct].find? (·.name = name)

def path? (text : String) : Option String := if text = "" then none else some text

/-- The arguments read so far. -/
structure Draft where
  input : Option String := none
  method : Option DetectionMethod := none
  meanF0 : Option Float := none
  levels : Option Nat := none
  configJson : Option String := none
  configFile : Option String := none
  sourceOut : Option String := none

namespace Draft

/-- A value for a place that is still empty. -/
def fill {β : Type} (place value : Option β) : Option (Option β) :=
  match place, value with
  | none, some value => some (some value)
  | _, _ => none

def addInput (draft : Draft) (argument : String) : Option Draft := do
  return { draft with input := ← fill draft.input (path? argument) }

def addOption (draft : Draft) (name value : String) : Option Draft :=
  match name with
  | "method" => do return { draft with method := ← fill draft.method (method? value) }
  | "mean-f0" => do return { draft with meanF0 := ← fill draft.meanF0 (real? value) }
  | "levels" => do return { draft with levels := ← fill draft.levels (count? value) }
  | "config-json" => do
      return { draft with configJson := ← fill draft.configJson (some value) }
  | "config-file" => do
      return { draft with configFile := ← fill draft.configFile (path? value) }
  | "source-out" => do
      return { draft with sourceOut := ← fill draft.sourceOut (path? value) }
  | _ => none

/-- The request of a draft: an input is needed, and the two sources of a
configuration exclude each other. -/
def toRequest (draft : Draft) : Request :=
  match draft.input with
  | none => .refused
  | some input =>
      if draft.configJson.isSome && draft.configFile.isSome then .refused
      else
        .analyze {
          input := input
          method := draft.method.getD .sedreams
          meanF0 := draft.meanF0
          levels := draft.levels
          configJson := draft.configJson
          configFile := draft.configFile
          sourceOut := draft.sourceOut }

end Draft

/-- A hyphen alone is a value; any other argument that starts with one is not. -/
def looksLikeOption (argument : String) : Bool :=
  argument.startsWith "-" && argument != "-"

/-- An option name and its value after an equals sign, if there is one. -/
def splitOption (argument : String) : String × Option String :=
  let text := argument.toList.drop 2
  let name := String.ofList (text.takeWhile (· != '='))
  match text.dropWhile (· != '=') with
  | [] => (name, none)
  | _ :: value => (name, some (String.ofList value))

/-- Positional arguments only, as they stand behind a double hyphen. -/
def positional : List String → Draft → Request
  | [], draft => draft.toRequest
  | argument :: arguments, draft =>
      match draft.addInput argument with
      | none => .refused
      | some draft => positional arguments draft

/-- The request of the remaining arguments.  A request for help or for the
version ends the reading. -/
def readArguments : List String → Draft → Request
  | [], draft => draft.toRequest
  | argument :: arguments, draft =>
      if argument = "--" then positional arguments draft
      else if argument.startsWith "--" then
        match splitOption argument with
        | ("help", none) | ("version", none) => .information
        | (name, some value) =>
            match draft.addOption name value with
            | none => .refused
            | some draft => readArguments arguments draft
        | (name, none) =>
            match arguments with
            | [] => .refused
            | value :: arguments =>
                if looksLikeOption value then .refused
                else
                  match draft.addOption name value with
                  | none => .refused
                  | some draft => readArguments arguments draft
      else if looksLikeOption argument then
        if argument.startsWith "-h" || argument.startsWith "-V" then .information
        else .refused
      else
        match draft.addInput argument with
        | none => .refused
        | some draft => readArguments arguments draft

def parse (arguments : List String) : Request := readArguments arguments {}

end Glottis.CommandLine
