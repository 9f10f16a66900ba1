import Glottis.CommandLine.Program
import Glottis.Decimal.Shortest

/-!
# Printed reports

A report is printed as an indented JSON object.  Fields that a method does not
have are left out; quantities that could not be estimated are null.
-/

namespace Glottis.CommandLine

/-- A finite value with at least one digit after the point; null otherwise. -/
def renderReal (value : Float) : String :=
  if value.isFinite then
    let written := Decimal.write value
    if written.contains '.' then written else written ++ ".0"
  else "null"

def renderOptional (value : Option Float) : String :=
  match value with
  | none => "null"
  | some value => renderReal value

def renderMembers (indent : String) (members : List (String × String)) : String :=
  let lines := members.map fun (name, value) => indent ++ "  \"" ++ name ++ "\": " ++ value
  "\x7b\n" ++ ",\n".intercalate lines ++ "\n" ++ indent ++ "\x7d"

def renderItems (indent : String) (items : List String) : String :=
  if items.isEmpty then "[]"
  else "[\n" ++ ",\n".intercalate (items.map (indent ++ "  " ++ ·)) ++ "\n" ++ indent ++ "]"

def renderCycle (cycle : GlottalCycle) : String :=
  renderMembers "    " [("gci", toString cycle.closure), ("goi", toString cycle.opening),
    ("nextgci", toString cycle.nextClosure)]

def Report.render (report : Report Float) : String :=
  renderMembers "" <|
    [("sample_rate", toString report.sampleRate), ("samples", toString report.samples),
      ("method", "\"" ++ report.method.name ++ "\"")] ++
    (report.assumedF0.map fun f0 => ("assumed_f0", renderReal f0)).toList ++
    (report.levels.map fun levels => ("levels", toString levels)).toList ++
    [("pairs", renderItems "  " (report.cycles.map renderCycle)),
      ("open_quotient", renderOptional report.openQuotient),
      ("mean_f0", renderOptional report.meanF0)]

/-- A chain of messages: the outermost first, the others numbered below it. -/
def renderChain (chain : List String) : String :=
  match chain with
  | [] => "Error"
  | [message] => "Error: " ++ message
  | message :: [cause] => "Error: " ++ message ++ "\n\nCaused by:\n    " ++ cause
  | message :: causes =>
      let numbered := causes.zipIdx.map fun (cause, index) =>
        "    " ++ toString index ++ ": " ++ cause
      "Error: " ++ message ++ "\n\nCaused by:\n" ++ "\n".intercalate numbered

end Glottis.CommandLine
