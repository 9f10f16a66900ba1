import Glottis.Text.GraphemeExtend
import Glottis.Text.Unprintable

/-!
# Quoted text

A text is quoted so that every character of it can be told apart.  Quotes and
backslashes stand behind a backslash, the common controls have a letter, and a
character that would not be visible on its own is written as its code point.
-/

namespace Glottis.Text

/-- A character that is written as its code point: it shows nothing, or it would
join the character before it. -/
def isHidden (character : Char) : Bool :=
  graphemeExtend.contain character.toNat || unprintable.contain character.toNat

def codePoint (character : Char) : List Char :=
  ['\\', 'u', '\x7b'] ++ Nat.toDigits 16 character.toNat ++ ['\x7d']

def escape (character : Char) : List Char :=
  match character with
  | '\x00' => ['\\', '0']
  | '\t' => ['\\', 't']
  | '\n' => ['\\', 'n']
  | '\r' => ['\\', 'r']
  | '"' => ['\\', '"']
  | '\x27' => ['\\', '\x27']
  | '\\' => ['\\', '\\']
  | other => if isHidden other then codePoint other else [other]

def quoted (text : String) : String :=
  "\"" ++ String.ofList (text.toList.flatMap escape) ++ "\""

end Glottis.Text
