import Glottis.Binary64

/-!
# Shortest decimals

A binary64 number is written with the fewest decimal digits that read back as
the same number, and among those with the ones closest to it.  All comparisons
are exact: the number, the borders of the interval of reals that round to it and
the points of a decimal grid are multiples of one small unit.
-/

namespace Glottis.Decimal

open Binary64 (Form)

/-- A positive decimal number `digits * 10 ^ exponent`. -/
structure Digits where
  digits : Nat
  exponent : Int
  deriving DecidableEq, Repr

/-- A positive rational number. -/
structure Ratio where
  numerator : Nat
  denominator : Nat

def Ratio.ofPower (factor base : Nat) (exponent : Int) : Ratio :=
  if exponent < 0 then ⟨factor, Nat.pow base exponent.natAbs⟩
  else ⟨factor * Nat.pow base exponent.natAbs, 1⟩

/-- The number of digits before the point, or less one for every zero after it:
the least `k` with `value < 10 ^ k`, looked for around an estimate. -/
def Ratio.magnitude (value : Ratio) : Int :=
  let estimate : Int := (Nat.log2 value.numerator : Int) - Nat.log2 value.denominator
  let low := estimate * 30103 / 100000 - 1
  let fits (exponent : Int) : Bool :=
    let bound := Ratio.ofPower 1 10 exponent
    value.numerator * bound.denominator < bound.numerator * value.denominator
  if fits low then low
  else if fits (low + 1) then low + 1
  else if fits (low + 2) then low + 2
  else low + 3

/-- The numbers between which a real number rounds to `mantissa * 2 ^ exponent`,
in units of a quarter of the last place: below, at and above the number. -/
def interval (mantissa : Nat) (exponent : Int) : Nat × Nat × Nat :=
  if mantissa = Binary64.implicitOne ∧ -1074 < exponent then
    (4 * mantissa - 1, 4 * mantissa, 4 * mantissa + 2)
  else (4 * mantissa - 2, 4 * mantissa, 4 * mantissa + 2)

/-- The closest point to `mantissa * 2 ^ exponent` on the grid of multiples of
`10 ^ place`, if one of its two neighbours on the grid rounds to it.  Of two
points at the same distance the upper one is taken. -/
def nearestOnGrid? (mantissa : Nat) (exponent place : Int) : Option Nat :=
  let unit := Ratio.ofPower 1 2 (exponent - 2)
  let spacing := Ratio.ofPower 1 10 place
  let (low, value, high) := interval mantissa exponent
  let scale (count : Nat) : Nat := count * unit.numerator * spacing.denominator
  let step := spacing.numerator * unit.denominator
  let below := scale value / step
  let inside (point : Nat) : Bool :=
    if mantissa % 2 = 0 then scale low ≤ point * step && point * step ≤ scale high
    else scale low < point * step && point * step < scale high
  let fromBelow := scale value - below * step
  let fromAbove := (below + 1) * step - scale value
  if inside below && (fromBelow < fromAbove || !inside (below + 1)) then some below
  else if inside (below + 1) then some (below + 1)
  else none

/-- The first grid with a hit, from coarse to fine. -/
def firstGrid (mantissa : Nat) (exponent magnitude : Int) : (tries digits : Nat) → Digits
  | 0, _ => ⟨mantissa, 0⟩
  | tries + 1, digits =>
      let place := magnitude - digits
      match nearestOnGrid? mantissa exponent place with
      | some point => ⟨point, place⟩
      | none => firstGrid mantissa exponent magnitude tries (digits + 1)

/-- The shortest decimal of `mantissa * 2 ^ exponent`, which is not zero. -/
def shortest (mantissa : Nat) (exponent : Int) : Digits :=
  firstGrid mantissa exponent (Ratio.ofPower mantissa 2 exponent).magnitude 17 1

/-- A decimal written without an exponent and without a trailing point. -/
def Digits.plain (decimal : Digits) : String :=
  let digits := Nat.toDigits 10 decimal.digits
  if 0 ≤ decimal.exponent then
    String.ofList (digits ++ List.replicate decimal.exponent.toNat '0')
  else
    let places := decimal.exponent.natAbs
    let padded := List.replicate (places + 1 - digits.length) '0' ++ digits
    let cut := padded.length - places
    let fraction := ((padded.drop cut).reverse.dropWhile (· = '0')).reverse
    if fraction.isEmpty then String.ofList (padded.take cut)
    else String.ofList (padded.take cut ++ '.' :: fraction)

/-- A binary64 number in a message: shortest digits, never an exponent. -/
def write (value : Float) : String :=
  match Binary64.form value with
  | .notANumber => "NaN"
  | .infinite negative => if negative then "-inf" else "inf"
  | .finite negative mantissa exponent =>
      let size := if mantissa = 0 then "0" else (shortest mantissa exponent).plain
      if negative then "-" ++ size else size

end Glottis.Decimal
