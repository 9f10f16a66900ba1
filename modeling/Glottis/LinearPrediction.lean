import Glottis.AnalysisError
import Glottis.Signal

/-!
# Linear prediction

A prediction polynomial `1 + a₁ z⁻¹ + … + aₚ z⁻ᵖ` whitens a segment: filtering
the segment by it leaves the prediction error.  Two methods estimate it: the
recursion of Levinson and Durbin on the autocorrelation, and the lattice of
Burg on the samples themselves.  Both are recursions over stages, where stage
`i` turns a polynomial of order `i - 1` into one of order `i`.
-/

namespace Glottis.LinearPrediction

variable {α : Type} [Scalar α]

inductive Method where
  | autocorrelation
  | burg
  deriving DecidableEq, Repr

namespace Method

def name : Method → String
  | autocorrelation => "autocorrelation"
  | burg => "burg"

def all : List Method := [autocorrelation, burg]

def ofName? (name : String) : Option Method := all.find? (·.name = name)

end Method

/-- An estimate for one segment: `order + 1` coefficients of which the first is
one, the power of the prediction error, and the number of stages that were
completed. -/
structure Predictor (α : Type) where
  polynomial : Signal α
  gain : α
  orderReached : Nat

namespace Predictor

/-- The polynomial one with zero power, which predicts nothing. -/
def flat (order : Nat) : Predictor α where
  polynomial := .tabulate (order + 1) fun index => if index = 0 then 1 else 0
  gain := 0
  orderReached := 0

def order (predictor : Predictor α) : Nat := predictor.polynomial.size - 1

end Predictor

/-- The sum of products of samples `lag` apart. -/
def autocorrelation (segment : Signal α) (lag : Nat) : α :=
  if segment.size ≤ lag then 0
  else
    sumLanes (segment.size - lag) fun index =>
      segment.sample index * segment.sample (index + lag)

/-- The correlation that a polynomial of order `stage - 1` leaves at lag
`stage`. -/
def mismatch (correlation polynomial : Signal α) (stage : Nat) : α :=
  sumRange stage fun index => correlation.sample (stage - index) * polynomial.sample index

/-- A polynomial with its reversed self added, `reflection` times, below the
coefficient of the stage, and the coefficient of the stage set to `newest`. -/
def reflect (polynomial : Signal α) (stage : Nat) (reflection newest : α) : Signal α :=
  .tabulate polynomial.size fun index =>
    if 0 < index ∧ index < stage then
      polynomial.sample index + reflection * polynomial.sample (stage - index)
    else if index = stage then newest
    else polynomial.sample index

@[simp]
theorem size_reflect (polynomial : Signal α) (stage : Nat) (reflection newest : α) :
    (reflect polynomial stage reflection newest).size = polynomial.size := by
  simp [reflect]

/-- The remaining stages of the recursion.  A stage that leaves no positive
error power ends it, with the coefficient of that stage set to zero. -/
def levinsonStages (correlation : Signal α) :
    (remaining reached : Nat) → (polynomial : Signal α) → (gain : α) → Predictor α
  | 0, reached, polynomial, gain => ⟨polynomial, gain, reached⟩
  | remaining + 1, reached, polynomial, gain =>
      let stage := reached + 1
      let residue := mismatch correlation polynomial stage
      let reflection := -residue / gain
      let left := gain + reflection * residue
      if left ≤ 0 then ⟨reflect polynomial stage reflection 0, left, reached⟩
      else
        levinsonStages correlation remaining stage
          (reflect polynomial stage reflection reflection) left

theorem size_levinsonStages (correlation : Signal α) (remaining reached : Nat)
    (polynomial : Signal α) (gain : α) :
    (levinsonStages correlation remaining reached polynomial gain).polynomial.size =
      polynomial.size := by
  induction remaining generalizing reached polynomial gain with
  | zero => rfl
  | succ remaining ih =>
      simp only [levinsonStages]
      split
      · exact size_reflect _ _ _ _
      · rw [ih, size_reflect]

/-- The recursion of Levinson and Durbin on a correlation sequence that starts
at lag zero.  A sequence that starts with zero gives the flat predictor. -/
def levinson (correlation : Signal α) (order : Nat) : Predictor α :=
  let power := correlation.sample 0
  let start : Predictor α := .flat order
  if power ≤ 0 ∧ 0 ≤ power then start
  else levinsonStages correlation order 0 start.polynomial power

@[simp]
theorem size_levinson (correlation : Signal α) (order : Nat) :
    (levinson correlation order).polynomial.size = order + 1 := by
  simp only [levinson]
  split
  · simp [Predictor.flat]
  · rw [size_levinsonStages]
    simp [Predictor.flat]

def ofAutocorrelation (segment : Signal α) (order : Nat) :
    Except (AnalysisError α) (Predictor α) := do
  require (1 ≤ order) .zeroPredictionOrder
  return levinson (.tabulate (order + 1) (autocorrelation segment)) order

/-- The state of the lattice after a number of stages: forward and backward
prediction errors over the samples that both still cover, the coefficients that
predict a sample from those before it, and the mean error power. -/
structure Lattice (α : Type) where
  forward : Signal α
  backward : Signal α
  weights : Signal α
  power : α
  reached : Nat

namespace Lattice

/-- Before the first stage the errors are the segment itself and the segment
one sample later. -/
def start (segment : Signal α) (power : α) : Lattice α where
  forward := .tabulate (segment.size - 1) segment.sample
  backward := .tabulate (segment.size - 1) fun index => segment.sample (index + 1)
  weights := #[]
  power := power
  reached := 0

/-- The sums of products and of squares of the two errors. -/
def correlations (lattice : Lattice α) : α × α :=
  lattice.forward.size.fold
    (fun index _ (product, squares) =>
      let ahead := lattice.forward.sample index
      let behind := lattice.backward.sample index
      (product + ahead * behind, squares + (ahead * ahead + behind * behind)))
    (0, 0)

def advance (lattice : Lattice α) (reflection : α) : Lattice α :=
  let size := lattice.forward.size - 1
  let weights := lattice.weights
  { forward := .tabulate size fun index =>
      lattice.forward.sample index - reflection * lattice.backward.sample index
    backward := .tabulate size fun index =>
      lattice.backward.sample (index + 1) - reflection * lattice.forward.sample (index + 1)
    weights := (Signal.tabulate weights.size fun index =>
      weights.sample index -
        reflection * weights.sample (weights.size - 1 - index)).push reflection
    power := lattice.power * (1 - reflection * reflection)
    reached := lattice.reached + 1 }

/-- A number of stages.  Where the errors have no energy left the lattice stops
with zero power. -/
def run : Nat → Lattice α → Lattice α
  | 0, lattice => lattice
  | remaining + 1, lattice =>
      let (product, squares) := lattice.correlations
      if squares ≤ 0 then { lattice with power := 0 }
      else run remaining (lattice.advance (2.0 * product / squares))

/-- The polynomial of the lattice's weights, padded with zeros. -/
def polynomial (lattice : Lattice α) (order : Nat) : Signal α :=
  .tabulate (order + 1) fun index =>
    if index = 0 then 1 else -lattice.weights.sample (index - 1)

end Lattice

/-- The lattice of Burg on a segment of at least two samples with some power;
any other segment gives the flat predictor. -/
def burg (segment : Signal α) (order : Nat) : Predictor α :=
  let count : α := (segment.size : α)
  let power := segment.energy / count
  if segment.size < 2 ∨ power ≤ 0 then .flat order
  else
    let lattice := (Lattice.start segment power).run order
    { polynomial := lattice.polynomial order
      gain := lattice.power * count
      orderReached := lattice.reached }

@[simp]
theorem size_burg (segment : Signal α) (order : Nat) :
    (burg segment order).polynomial.size = order + 1 := by
  simp only [burg]
  split <;> simp [Predictor.flat, Lattice.polynomial]

def ofBurg (segment : Signal α) (order : Nat) :
    Except (AnalysisError α) (Predictor α) := do
  require (1 ≤ order) .zeroPredictionOrder
  return burg segment order

/-- The predictor of a method.  An order whose coefficients could not be stored
is refused. -/
def analyze (segment : Signal α) (order : Nat) (method : Method) :
    Except (AnalysisError α) (Predictor α) := do
  require (order + 1 ≤ maxLength) .indexOverflow
  match method with
  | .autocorrelation => ofAutocorrelation segment order
  | .burg => ofBurg segment order

end Glottis.LinearPrediction
