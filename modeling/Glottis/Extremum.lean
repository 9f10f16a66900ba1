import Glottis.Signal

/-!
# Turning points and zero crossings

An index is a turning point when the difference to the next sample does not
continue the difference from the previous one and the slope then falls (for a
maximum) or rises (for a minimum).  The slope before the first sample repeats
the one after it, and the last sample never qualifies.
-/

namespace Glottis

/-- Polarity of the turning points that are looked for. -/
inductive Extremum where
  | maximum
  | minimum
  deriving DecidableEq, Repr

namespace Extremum

variable {α : Type} [Scalar α]

def sign : Extremum → α
  | maximum => 1
  | minimum => -1

/-- The difference of a sample to the one before; the first index repeats the
difference of the second. -/
def slope (signal : Signal α) (index : Nat) : α :=
  if index = 0 then signal.sample 1 - signal.sample 0
  else signal.sample index - signal.sample (index - 1)

/-- The difference of a slope to the one before; the first two indices repeat
that of the third. -/
def bend (signal : Signal α) (index : Nat) : α :=
  let index := max index 2
  slope signal index - slope signal (index - 1)

/-- The turning points of a polarity, ascending; none in a signal of fewer than
three samples. -/
def find (signal : Signal α) (extremum : Extremum) : List Nat :=
  if signal.size < 3 then []
  else
    (List.range (signal.size - 1)).filter fun index =>
      slope signal index * slope signal (index + 1) ≤ 0 ∧
        bend signal (index + 1) * extremum.sign < 0

end Extremum

namespace ZeroCrossing

variable {α : Type} [Scalar α]

/-- The product of the samples at an index and the next is not positive. -/
def crosses (signal : Signal α) (index : Nat) : Bool :=
  signal.sample index * signal.sample (index + 1) ≤ 0

/-- Indices after which the signal crosses zero upwards or touches it. -/
def rising (signal : Signal α) : List Nat :=
  (List.range (signal.size - 1)).filter fun index =>
    crosses signal index && decide (0 ≤ signal.sample (index + 1))

/-- Indices after which the signal crosses zero downwards. -/
def falling (signal : Signal α) : List Nat :=
  (List.range (signal.size - 1)).filter fun index =>
    crosses signal index && !decide (0 ≤ signal.sample (index + 1))

end ZeroCrossing

end Glottis
