import Glottis.Decimal.Reading
import Glottis.Scalar

/-!
# Decimals kept to one word

A written decimal is read as a whole number that fits a 64-bit word, scaled by a
power of ten.  Digits that no longer fit are dropped: those before the point
still count as places, those after it do not.  The number is then multiplied or
divided by the power of ten as a sample value, so it is rounded once for the
whole number and once for each scaling.
-/

namespace Glottis.Decimal

/-- The digits of a run appended to a number as long as it fits a word, and the
digits that are left over. -/
def appendDigits : List Char → Nat → Nat × List Char
  | [], value => (value, [])
  | digit :: digits, value =>
      let longer := 10 * value + (digit.toNat - '0'.toNat)
      if longer ≤ maxIndex then appendDigits digits longer else (value, digit :: digits)

/-- A whole number times a power of ten. -/
structure Scaled where
  significand : Nat
  exponent : Int
  deriving DecidableEq, Repr

/-- The digits before and after a point and an exponent, kept to one word. -/
def Scaled.ofDigits (whole fraction : List Char) (exponent : Int) : Scaled :=
  let (front, dropped) := appendDigits whole 0
  let (significand, ignored) := appendDigits fraction front
  ⟨significand,
    exponent + (dropped.length : Int) - ((fraction.length - ignored.length : Nat) : Int)⟩

/-- The largest power of ten that a scaling uses. -/
def maxPower : Nat := 308

variable {α : Type} [Scalar α]

/-- A value times a power of ten, in steps of at most `10 ^ maxPower` towards
zero.  A result beyond the finite range is refused, as is a larger positive
power of a value other than zero. -/
def scale? (value : α) (exponent : Int) : Option α :=
  if exponent.natAbs ≤ maxPower then
    let power : α := Scalar.ofDecimal 1 exponent.natAbs
    if 0 ≤ exponent then
      if Scalar.isFinite (value * power) then some (value * power) else none
    else some (value / power)
  else if value ≤ 0 ∧ 0 ≤ value then some value
  else if 0 ≤ exponent then none
  else scale? (value / Scalar.ofDecimal 1 maxPower) (exponent + maxPower)
termination_by exponent.natAbs
decreasing_by
  simp only [maxPower] at *
  omega

def Scaled.value? (scaled : Scaled) : Option α :=
  scale? (scaled.significand : α) scaled.exponent

end Glottis.Decimal
