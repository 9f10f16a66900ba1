/-!
# Reading decimal digits

A run of decimal digits is cut off the front of a text and read as a natural
number.
-/

namespace Glottis.Decimal

/-- The natural number written by some digits. -/
def ofDigits (digits : List Char) : Nat :=
  digits.foldl (fun value digit => 10 * value + (digit.toNat - '0'.toNat)) 0

def spanDigits (text : List Char) : List Char × List Char :=
  (text.takeWhile Char.isDigit, text.dropWhile Char.isDigit)

theorem spanDigits_append (text : List Char) :
    (spanDigits text).1 ++ (spanDigits text).2 = text :=
  List.takeWhile_append_dropWhile

/-- Cutting off digits loses no character. -/
theorem length_spanDigits (text : List Char) :
    (spanDigits text).1.length + (spanDigits text).2.length = text.length := by
  rw [← List.length_append, spanDigits_append]

end Glottis.Decimal
