/-!
# Sample arithmetic

Every analysis in this library is written once, over a type of sample values
that offers the operations below and promises no law about them.  Binary64
numbers run the analyses; an exact field with the same operations is the
setting in which they are reasoned about.  Sample indices are natural numbers,
and a value that is turned into an index saturates at the largest 64-bit word.
-/

namespace Glottis

/-- The largest index or count that a 64-bit word holds. -/
def maxIndex : Nat := 0xffffffffffffffff

/-- The largest number of samples that a stored vector may have: eight bytes
each, within the lower half of the 64-bit range. -/
def maxLength : Nat := 0xfffffffffffffff

/-- Operations on sample values.  `truncate` is the whole part as an index:
zero for a negative or undefined value, `maxIndex` for one that is too large.
`ofDecimal m e` is the value closest to `m * 10 ^ e`. -/
class Scalar (α : Type) extends Add α, Sub α, Mul α, Div α, Neg α, Zero α, One α,
    NatCast α, OfScientific α, LT α, LE α where
  decidableLT : DecidableLT α
  decidableLE : DecidableLE α
  pi : α
  cos : α → α
  exp : α → α
  sqrt : α → α
  isFinite : α → Bool
  isNormal : α → Bool
  truncate : α → Nat
  ofDecimal : Nat → Int → α

attribute [reducible, instance] Scalar.decidableLT Scalar.decidableLE

namespace Scalar

variable {α : Type} [Scalar α]

/-- Absolute value; an undefined value stays as it is. -/
def magnitude (value : α) : α := if value < 0 then -value else value

/-- The nearest index, halves going up; saturating like `truncate`. -/
def round (value : α) : Nat :=
  let whole := truncate value
  if (0.5 : α) ≤ value - (whole : α) then min (whole + 1) maxIndex else whole

def ofInt : Int → α
  | .ofNat count => (count : α)
  | .negSucc count => -((count + 1 : Nat) : α)

/-- The whole part of a value with its sign. -/
def truncateInt (value : α) : Int :=
  if value < 0 then -(truncate (-value) : Int) else (truncate value : Int)

/-- Positive and finite, as a rate or a frequency has to be. -/
def isPositive (value : α) : Bool := isFinite value && decide (0 < value)

end Scalar

end Glottis
