import Glottis.Json.Token

/-!
# JSON values

Values are built from tokens by a machine that keeps the arrays and objects that
are still open on a stack.  Each token moves it one step, so a nested value
leaves the machine where it found it with the value supplied, whatever the
depth.  Objects keep all their members, repeated names included.
-/

namespace Glottis.Json

/-- A value; the name of a member is missing if it is no Unicode text. -/
inductive Value where
  | null
  | bool (value : Bool)
  | number (value : Number)
  | string (text : Option String)
  | array (items : List Value)
  | object (members : List (Option String × Value))

abbrev Member := Option String × Value

/-- An array or object that waits for a value; items and members read so far are
in reverse order. -/
inductive Frame where
  | array (done : List Value)
  | object (done : List Member) (name : Option String)

/-- What the machine waits for, with the open arrays and objects around it. -/
inductive State where
  | value (stack : List Frame)
  | firstItem (stack : List Frame)
  | firstName (stack : List Frame)
  | name (done : List Member) (stack : List Frame)
  | colon (name : Option String) (done : List Member) (stack : List Frame)
  | nextItem (done : List Value) (stack : List Frame)
  | nextMember (done : List Member) (stack : List Frame)
  | finished (value : Value)

/-- The state after a complete value. -/
def supply (value : Value) : List Frame → State
  | [] => .finished value
  | .array done :: stack => .nextItem (value :: done) stack
  | .object done name :: stack => .nextMember ((name, value) :: done) stack

/-- The state after the first token of a value. -/
def beginValue (stack : List Frame) : Token → Option State
  | .null => some (supply .null stack)
  | .bool value => some (supply (.bool value) stack)
  | .number value => some (supply (.number value) stack)
  | .string text => some (supply (.string text) stack)
  | .openArray => some (.firstItem stack)
  | .openObject => some (.firstName stack)
  | _ => none

def step : State → Token → Option State
  | .value stack, token => beginValue stack token
  | .firstItem stack, .closeArray => some (supply (.array []) stack)
  | .firstItem stack, token => beginValue (.array [] :: stack) token
  | .firstName stack, .closeObject => some (supply (.object []) stack)
  | .firstName stack, .string text => some (.colon text [] stack)
  | .name done stack, .string text => some (.colon text done stack)
  | .colon name done stack, .colon => some (.value (.object done name :: stack))
  | .nextItem done stack, .comma => some (.value (.array done :: stack))
  | .nextItem done stack, .closeArray => some (supply (.array done.reverse) stack)
  | .nextMember done stack, .comma => some (.name done stack)
  | .nextMember done stack, .closeObject => some (supply (.object done.reverse) stack)
  | _, _ => none

/-- The value of a list of tokens that holds exactly one. -/
def ofTokens? (tokens : List Token) : Option Value :=
  match tokens.foldlM step (.value []) with
  | some (.finished value) => some value
  | _ => none

/-- The value of a text that holds exactly one, with blanks around it. -/
def read? (text : String) : Option Value :=
  (scan text.toList).bind ofTokens?

end Glottis.Json
