import Glottis.AnalysisError
import Glottis.Signal

/-!
# Analysis windows

Windows taper a frame before prediction or smoothing.  Each shape gives the
weight of an index in a window of a given length; every shape is symmetric and
is defined for at least two samples, because the weights divide by
`length - 1`.
-/

namespace Glottis

/-- Window shapes: a sum of cosines with alternating signs, a Gaussian whose
edges are pulled down to zero, and a Kaiser window with parameter `beta`. -/
inductive Window (α : Type) where
  | cosineSum (coefficients : List α)
  | gaussian
  | kaiser (beta : α)

inductive WindowKind where
  | hamming
  | hanning
  | blackmanHarris
  | gaussian
  | kaiser
  deriving DecidableEq, Repr

namespace Window

variable {α : Type} [Scalar α]

/-- The sum of `± a cos (order * phase)` over the coefficients, where the first
has order `order` and the signs alternate from plus at order zero. -/
def cosineTerms (phase : α) : List α → Nat → α → α
  | [], _, total => total
  | coefficient :: coefficients, order, total =>
      let signed := if order % 2 = 0 then coefficient else -coefficient
      cosineTerms phase coefficients (order + 1)
        (total + signed * Scalar.cos ((order : α) * phase))

/-- The modified Bessel function of order zero: a polynomial in `(x / 3.75)²`
for magnitudes below 3.75, and an exponential times a polynomial in the inverse
beyond. -/
def bessel (value : α) : α :=
  let size := Scalar.magnitude value
  if size < 3.75 then
    let ratio := size / 3.75
    let t := ratio * ratio
    1 + t * (3.5156229 + t * (3.0899424 + t * (1.2067492 + t * (0.2659732 +
      t * (0.0360768 + t * 0.0045813)))))
  else
    let t := 3.75 / size
    Scalar.exp size / Scalar.sqrt size *
      (0.39894228 + t * (0.01328592 + t * (0.00225319 + t * (-0.00157565 +
        t * (0.00916281 + t * (-0.02057706 + t * (0.02635537 + t * (-0.01647633 +
        t * 0.00392377))))))))

def weight (window : Window α) (length index : Nat) : α :=
  match window with
  | cosineSum coefficients =>
      let phase := 2.0 * Scalar.pi * (index : α) / ((length - 1 : Nat) : α)
      cosineTerms phase coefficients 0 0
  | gaussian =>
      let edge := Scalar.exp (-12.0 : α)
      let middle := ((length : α) - 1) / 2.0
      let width : α := ((length + 1 : Nat) : α)
      let distance := (index : α) - middle
      (Scalar.exp (-48.0 * distance * distance / (width * width)) - edge) / (1 - edge)
  | kaiser beta =>
      let half := ((length : α) - 1) / 2.0
      let distance := ((index : α) - half) / half
      let inside := 1 - distance * distance
      let radius := Scalar.sqrt (if 0 < inside then inside else 0)
      bessel (beta * radius) / bessel beta

/-! ## Windows of a length

The shape of a window does not depend on what can be stored.  `generate` gives it at every
length, and what is proved of the shape, that it is symmetric, bounded and rises to its middle,
is proved of `generate`.  It holds of `generateStored` up to `maxLength` samples.  The residual
and the inverse filter take the weights one by one and count the samples of a frame against
`maxLength` themselves, so what is proved of a residual or a detection includes that limit.
-/

def checkLength (length : Nat) : Except (AnalysisError α) Unit :=
  require (2 ≤ length) (.windowTooShort length)

def generate (window : Window α) (length : Nat) :
    Except (AnalysisError α) (Signal α) := do
  checkLength length
  return .tabulate length (window.weight length)

/-- The window of `length` samples, refused where it could not be stored. -/
def generateStored (window : Window α) (length : Nat) :
    Except (AnalysisError α) (Signal α) :=
  if maxLength < length then .error .indexOverflow else window.generate length

end Window

namespace WindowKind

variable {α : Type} [Scalar α]

def shape : WindowKind → Window α
  | hamming => .cosineSum [0.53836, 0.46164]
  | hanning => .cosineSum [0.5, 0.5]
  | blackmanHarris => .cosineSum [0.35875, 0.48829, 0.14128, 0.01168]
  | gaussian => .gaussian
  | kaiser => .kaiser 0.5

def generate (kind : WindowKind) (length : Nat) :
    Except (AnalysisError α) (Signal α) :=
  kind.shape.generate length

def name : WindowKind → String
  | hamming => "hamming"
  | hanning => "hanning"
  | blackmanHarris => "blackman-harris"
  | gaussian => "gaussian"
  | kaiser => "kaiser"

def all : List WindowKind := [hamming, hanning, blackmanHarris, gaussian, kaiser]

def ofName? (name : String) : Option WindowKind := all.find? (·.name = name)

end WindowKind

end Glottis
