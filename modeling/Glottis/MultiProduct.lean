import Glottis.Config.Basic
import Glottis.Cycle
import Glottis.Extremum

/-!
# Cycles from the multi-scale product

The signal is averaged over blocks of two, four, eight and more samples, and the
averages of all scales are multiplied sample by sample.  Local minima of the
product are closures, and neighbouring closures make a cycle.  No estimate of
the pitch is needed.
-/

namespace Glottis.MultiProduct

variable {α : Type} [Scalar α]

/-- The shortest block to whose multiples a signal is cut. -/
def shortestBlock : Nat := 64

/-- A signal is cut to a multiple of this many samples: the widest block of the
decomposition, or the shortest block where that is longer. -/
def blockLength (levels : Nat) : Nat :=
  max shortestBlock (Nat.pow 2 (min levels maxLevels - 1))

def usedLength (levels length : Nat) : Nat :=
  length / blockLength levels * blockLength levels

def pairMeans (signal : Signal α) : Signal α :=
  .tabulate (signal.size / 2) fun index =>
    signal.sample (2 * index) +
      (signal.sample (2 * index + 1) - signal.sample (2 * index)) / 2.0

/-- A product multiplied by the block means of the remaining stages, where each
mean of the next stage covers `width` samples of the product. -/
def multiplyStages : (remaining width : Nat) → (means product : Signal α) → Signal α
  | 0, _, _, product => product
  | remaining + 1, width, means, product =>
      let next := pairMeans means
      multiplyStages remaining (2 * width) next
        (.tabulate product.size fun index =>
          product.sample index * next.sample (index / width))

theorem size_multiplyStages (remaining width : Nat) (means product : Signal α) :
    (multiplyStages remaining width means product).size = product.size := by
  induction remaining generalizing width means product with
  | zero => rfl
  | succ remaining ih =>
      rw [multiplyStages, ih, Signal.size_tabulate]

/-- The product of the block means of a signal over the blocks of two samples,
of four, and so on for `levels - 1` stages. -/
def multiScaleProduct (signal : Signal α) (levels : Nat) : Signal α :=
  let length := usedLength levels signal.size
  multiplyStages (min levels maxLevels - 1) 2 (.tabulate length signal.sample)
    (.tabulate length fun _ => 1)

@[simp]
theorem size_multiScaleProduct (signal : Signal α) (levels : Nat) :
    (multiScaleProduct signal levels).size = usedLength levels signal.size := by
  rw [multiScaleProduct, size_multiplyStages, Signal.size_tabulate]

/-- The offset from `first` of the first largest sample up to `last`. -/
def offsetOfMaximum (signal : Signal α) (first last : Nat) : Nat :=
  (last + 1 - first).fold
    (fun offset _ best =>
      if signal.sample (first + best) < signal.sample (first + offset) then offset else best)
    0

/-- The index at which the search for an opening starts, a fifth of the cycle behind its
closure. -/
def searchStart (α : Type) [Scalar α] (closure nextClosure : Nat) : Nat :=
  Scalar.truncate (0.8 * (closure : α) + 0.2 * (nextClosure : α))

/-- A cycle between two closures.  The place of the maximum within the searched part
of the cycle is taken as the distance of the opening from the closure. -/
def cycle (product : Signal α) (closure nextClosure : Nat) : GlottalCycle :=
  let offset := offsetOfMaximum product (searchStart α closure nextClosure) nextClosure
  ⟨closure, closure + offset, nextClosure⟩

def cycles (product : Signal α) : List Nat → List GlottalCycle
  | closure :: nextClosure :: closures =>
      cycle product closure nextClosure :: cycles product (nextClosure :: closures)
  | _ => []

/-- The closures of a product: the maxima of its negative. -/
def closures (product : Signal α) : List Nat :=
  Extremum.find (product.map (-·)) .maximum

/-- A detector of a supported depth. -/
structure Detector where
  levels : Nat
  levels_mem : 1 ≤ levels ∧ levels ≤ maxLevels

namespace Detector

def standard : Detector := ⟨4, by decide⟩

/-- The detector of a depth, which has to lie between 1 and `maxLevels`. -/
def ofLevels (levels : Nat) : Except (AnalysisError α) Detector :=
  if hlevels : 1 ≤ levels ∧ levels ≤ maxLevels then .ok ⟨levels, hlevels⟩
  else .error (.levelsOutOfRange maxLevels levels)

def detect (detector : Detector) (signal : Signal α) (sampleRate : α) :
    Except (AnalysisError α) (List GlottalCycle) := do
  require (Scalar.isPositive sampleRate) (.sampleRateNotPositive sampleRate)
  require signal.allFinite .signalNotFinite
  let product := multiScaleProduct signal detector.levels
  return cycles product (closures product)

end Detector

end Glottis.MultiProduct
