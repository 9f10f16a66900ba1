import Glottis.Scalar

/-!
# Binary64 samples

The arithmetic of the running program.  A binary64 number is decoded here into
its sign, mantissa and binary exponent, and a decimal number of any size is
rounded to the nearest binary64 number.
-/

namespace Glottis.Binary64

/-- The class of a binary64 number; a finite one is `± mantissa * 2 ^ exponent`. -/
inductive Form where
  | notANumber
  | infinite (negative : Bool)
  | finite (negative : Bool) (mantissa : Nat) (exponent : Int)
  deriving DecidableEq, Repr

/-- The leading one that a mantissa of fifty-two fraction bits leaves out. -/
def implicitOne : Nat := 0x10000000000000

/-- Split the bit pattern: one sign bit, eleven exponent bits, fifty-two
fraction bits with an implicit leading one unless the exponent field is zero. -/
def form (value : Float) : Form :=
  let bits : Nat := value.toBits.toNat
  let negative := bits / 0x8000000000000000 = 1
  let exponentField : Nat := bits / implicitOne % 0x800
  let fraction : Nat := bits % implicitOne
  if exponentField = 2047 then
    if fraction = 0 then .infinite negative else .notANumber
  else if exponentField = 0 then .finite negative fraction (-1074)
  else .finite negative (implicitOne + fraction) ((exponentField : Int) - 1075)

def isNormal (value : Float) : Bool :=
  match form value with
  | .finite _ mantissa _ => decide (implicitOne ≤ mantissa)
  | _ => false

/-- The number of decimal digits of a natural number; zero has none. -/
def digitCount (value : Nat) : Nat :=
  if value = 0 then 0 else (Nat.toDigits 10 value).length

/-- The binary64 number nearest to `mantissa * 10 ^ exponent`.  Values of more
than 400 digits before the point, or as many zeros after it, are infinite or
zero, and are decided without forming the power. -/
def ofDecimal (mantissa : Nat) (exponent : Int) : Float :=
  let leading := (digitCount mantissa : Int) + exponent
  if mantissa = 0 || leading < -400 then 0
  else if 400 < leading then 1 / 0
  else Float.ofScientific mantissa (decide (exponent < 0)) exponent.natAbs

instance : Scalar Float where
  zero := 0
  one := 1
  natCast := Float.ofNat
  decidableLT := inferInstance
  decidableLE := inferInstance
  pi := 3.141592653589793
  cos := Float.cos
  exp := Float.exp
  sqrt := Float.sqrt
  isFinite := Float.isFinite
  isNormal := isNormal
  truncate value := value.toUInt64.toNat
  ofDecimal := ofDecimal

end Glottis.Binary64
