import Glottis.AnalysisError
import Glottis.Scalar

/-!
# Glottal cycles

A glottal cycle runs from one closure instant to the next, with the opening
instant between them.  The open quotient is the mean fraction of the cycle after
the opening; the mean F0 is the mean of the cycle rates.
-/

namespace Glottis

/-- One cycle, as sample indices of its closure, its opening and the closure
that ends it.  The order of the three is not enforced. -/
structure GlottalCycle where
  closure : Nat
  opening : Nat
  nextClosure : Nat
  deriving DecidableEq, Repr

namespace GlottalCycle

/-- The length of a cycle in samples, zero if it ends before it starts. -/
def period (cycle : GlottalCycle) : Nat := cycle.nextClosure - cycle.closure

variable {α : Type} [Scalar α]

/-- The fraction of a cycle during which the glottis is open; a cycle without
length has none. -/
def openFraction? (cycle : GlottalCycle) : Option α :=
  if cycle.period = 0 then none
  else
    some (((cycle.nextClosure : α) - (cycle.opening : α)) / (cycle.period : α))

def addOpenFractions : List GlottalCycle → α → Except (AnalysisError α) α
  | [], total => .ok total
  | cycle :: cycles, total =>
      match (cycle.openFraction? : Option α) with
      | none => .error (.openQuotientOfEmptyCycle cycle.closure)
      | some fraction => addOpenFractions cycles (total + fraction)

/-- The mean open fraction of some cycles, none of which may be without
length. -/
def openQuotient (cycles : List GlottalCycle) : Except (AnalysisError α) α := do
  require (!cycles.isEmpty) .noCycleForOpenQuotient
  let total ← addOpenFractions cycles 0
  return total / (cycles.length : α)

def addRates (sampleRate : α) : List GlottalCycle → α → Except (AnalysisError α) α
  | [], total => .ok total
  | cycle :: cycles, total =>
      if 0 < cycle.period then
        addRates sampleRate cycles (total + sampleRate / (cycle.period : α))
      else .error (.meanF0OfEmptyCycle cycle.closure)

/-- The mean rate of some cycles, none of which may be without length. -/
def meanF0 (cycles : List GlottalCycle) (sampleRate : α) :
    Except (AnalysisError α) α := do
  require (Scalar.isPositive sampleRate) (.sampleRateNotPositive sampleRate)
  require (!cycles.isEmpty) .noCycleForMeanF0
  let total ← addRates sampleRate cycles 0
  return total / (cycles.length : α)

end GlottalCycle

end Glottis
