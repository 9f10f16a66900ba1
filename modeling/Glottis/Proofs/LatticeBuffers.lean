import Mathlib
import Glottis.LinearPrediction

/-!
# The lattice in place

The lattice of Burg can be run in two vectors that keep their length.  One sweep updates
both of them from the front: an entry of the forward errors is replaced before the entry
of the backward errors at the same place, which reads the neighbours that the sweep has
not reached.  Each stage covers one entry less, so what the sweeps leave behind at the end
is never read again, and no sweep is needed after the last stage.  The predictor is the
same as that of the lattice whose vectors shrink, whatever the arithmetic.
-/

namespace Glottis.LinearPrediction

variable {α : Type} [Scalar α]

/-- The sample at a place is replaced and every other one is kept. -/
theorem sample_setIfInBounds (signal : Signal α) {place : Nat} (hplace : place < signal.size)
    (value : α) (index : Nat) :
    Signal.sample (signal.setIfInBounds place value) index =
      if index = place then value else signal.sample index := by
  by_cases hindex : index < signal.size
  · have hinside : index < (signal.setIfInBounds place value).size := by
      rwa [Array.size_setIfInBounds]
    rw [Signal.sample_eq_getElem _ hinside, Array.getElem_setIfInBounds hindex,
      Signal.sample_eq_getElem _ hindex]
    exact if_congr eq_comm rfl rfl
  · rw [Signal.sample_of_size_le _ (by rw [Array.size_setIfInBounds]; omega), if_neg (by omega),
      Signal.sample_of_size_le _ (by omega)]

/-- Vectors for the forward and the backward errors. -/
structure WorkBuffers (α : Type) where
  forward : Signal α
  backward : Signal α

namespace WorkBuffers

def correlations (buffers : WorkBuffers α) (covered : Nat) : α × α :=
  covered.fold
    (fun index _ (product, squares) =>
      let ahead := buffers.forward.sample index
      let behind := buffers.backward.sample index
      (product + ahead * behind, squares + (ahead * ahead + behind * behind)))
    (0, 0)

/-- The entries at one place replaced, the forward error first. -/
def update (reflection : α) (buffers : WorkBuffers α) (index : Nat) : WorkBuffers α :=
  let forward : Signal α := buffers.forward.setIfInBounds index
    (buffers.forward.sample index - reflection * buffers.backward.sample index)
  { forward
    backward := buffers.backward.setIfInBounds index
      (buffers.backward.sample (index + 1) - reflection * forward.sample (index + 1)) }

def sweep (reflection : α) (count : Nat) (buffers : WorkBuffers α) : WorkBuffers α :=
  count.fold (fun index _ swept => update reflection swept index) buffers

/-- What a sweep has done: the entries in front of the count follow from the entries before
the sweep, and the others are as they were. -/
structure Swept (reflection : α) (count : Nat) (before after : WorkBuffers α) : Prop where
  size_forward : after.forward.size = before.forward.size
  size_backward : after.backward.size = before.backward.size
  forward_eq : ∀ index, after.forward.sample index =
    if index < count then
      before.forward.sample index - reflection * before.backward.sample index
    else before.forward.sample index
  backward_eq : ∀ index, after.backward.sample index =
    if index < count then
      before.backward.sample (index + 1) - reflection * before.forward.sample (index + 1)
    else before.backward.sample index

/-- The next place of a sweep reads only entries that it has not yet replaced. -/
theorem Swept.update {reflection : α} {count : Nat} {before after : WorkBuffers α}
    (hswept : Swept reflection count before after) (hforward : count < before.forward.size)
    (hbackward : count < before.backward.size) :
    Swept reflection (count + 1) before (after.update reflection count) := by
  have hahead : (after.update reflection count).forward.sample (count + 1) =
      before.forward.sample (count + 1) := by
    rw [WorkBuffers.update, sample_setIfInBounds _ (by rwa [hswept.size_forward]),
      if_neg (Nat.succ_ne_self count), hswept.forward_eq, if_neg (by omega)]
  exact {
    size_forward := by rw [WorkBuffers.update, Array.size_setIfInBounds, hswept.size_forward]
    size_backward := by rw [WorkBuffers.update, Array.size_setIfInBounds, hswept.size_backward]
    forward_eq := by
      intro index
      rw [WorkBuffers.update, sample_setIfInBounds _ (by rwa [hswept.size_forward]),
        hswept.forward_eq, hswept.forward_eq, hswept.backward_eq, if_neg (lt_irrefl count),
        if_neg (lt_irrefl count)]
      by_cases hplace : index = count
      · rw [if_pos hplace, if_pos (by omega), hplace]
      · rw [if_neg hplace]
        exact if_congr (by omega) rfl rfl
    backward_eq := by
      intro index
      rw [WorkBuffers.update] at hahead ⊢
      dsimp only at hahead ⊢
      rw [sample_setIfInBounds _ (by rwa [hswept.size_backward]), hahead, hswept.backward_eq,
        hswept.backward_eq, if_neg (by omega : ¬count + 1 < count)]
      by_cases hplace : index = count
      · rw [if_pos hplace, if_pos (by omega), hplace]
      · rw [if_neg hplace]
        exact if_congr (by omega) rfl rfl }

theorem swept_sweep (reflection : α) {count : Nat} {buffers : WorkBuffers α}
    (hforward : count ≤ buffers.forward.size) (hbackward : count ≤ buffers.backward.size) :
    Swept reflection count buffers (buffers.sweep reflection count) := by
  induction count with
  | zero => exact ⟨rfl, rfl, fun _ => rfl, fun _ => rfl⟩
  | succ count ih =>
      rw [sweep, Nat.fold_succ]
      exact (ih (by omega) (by omega)).update (by omega) (by omega)

end WorkBuffers

structure InPlaceLattice (α : Type) where
  buffers : WorkBuffers α
  weights : Signal α
  power : α
  reached : Nat

namespace InPlaceLattice

/-- Before the first stage the vectors hold the segment and the segment one sample later,
with a zero at the end. -/
def start (segment : Signal α) (power : α) : InPlaceLattice α where
  buffers := ⟨segment, .tabulate segment.size fun index => segment.sample (index + 1)⟩
  weights := #[]
  power := power
  reached := 0

def estimate (lattice : InPlaceLattice α) (reflection : α) : InPlaceLattice α :=
  let weights := lattice.weights
  { buffers := lattice.buffers
    weights := (Signal.tabulate weights.size fun index =>
      weights.sample index -
        reflection * weights.sample (weights.size - 1 - index)).push reflection
    power := lattice.power * (1 - reflection * reflection)
    reached := lattice.reached + 1 }

/-- A number of stages on a segment of a length.  The last of them needs no sweep. -/
def run (length : Nat) : Nat → InPlaceLattice α → InPlaceLattice α
  | 0, lattice => lattice
  | remaining + 1, lattice =>
      let (product, squares) := lattice.buffers.correlations (length - (lattice.reached + 1))
      if squares ≤ 0 then { lattice with power := 0 }
      else
        let reflection := 2.0 * product / squares
        let next := lattice.estimate reflection
        if remaining = 0 then next
        else
          run length remaining
            { next with
              buffers := lattice.buffers.sweep reflection (length - (next.reached + 1)) }

/-- The vectors hold, in front, the errors of a lattice whose vectors shrink. -/
structure Represents (length : Nat) (inPlace : InPlaceLattice α) (lattice : Lattice α) :
    Prop where
  size_buffers : inPlace.buffers.forward.size = length ∧ inPlace.buffers.backward.size = length
  size_errors : lattice.forward.size = length - (lattice.reached + 1)
  forward_eq : ∀ index < lattice.forward.size,
    inPlace.buffers.forward.sample index = lattice.forward.sample index
  backward_eq : ∀ index < lattice.forward.size,
    inPlace.buffers.backward.sample index = lattice.backward.sample index
  weights_eq : inPlace.weights = lattice.weights
  power_eq : inPlace.power = lattice.power
  reached_eq : inPlace.reached = lattice.reached

theorem represents_start (segment : Signal α) (power : α) :
    Represents segment.size (start segment power) (Lattice.start segment power) where
  size_buffers := ⟨rfl, by rw [start, Signal.size_tabulate]⟩
  size_errors := by rw [Lattice.start, Signal.size_tabulate]
  forward_eq := by
    intro index hindex
    rw [Lattice.start, Signal.size_tabulate] at hindex
    rw [start, Lattice.start, Signal.sample_tabulate, if_pos hindex]
  backward_eq := by
    intro index hindex
    rw [Lattice.start, Signal.size_tabulate] at hindex
    rw [start, Lattice.start, Signal.sample_tabulate, Signal.sample_tabulate, if_pos hindex,
      if_pos (by omega)]
  weights_eq := rfl
  power_eq := rfl
  reached_eq := rfl

variable {length : Nat} {inPlace : InPlaceLattice α} {lattice : Lattice α}

theorem Represents.correlations_eq (hrepresents : Represents length inPlace lattice) :
    inPlace.buffers.correlations (length - (inPlace.reached + 1)) = lattice.correlations := by
  rw [hrepresents.reached_eq, ← hrepresents.size_errors, WorkBuffers.correlations,
    Lattice.correlations]
  congr 1
  funext index hindex sums
  rw [hrepresents.forward_eq index hindex, hrepresents.backward_eq index hindex]

/-- A sweep keeps the vectors in step with the lattice. -/
theorem Represents.advance (hrepresents : Represents length inPlace lattice) (reflection : α) :
    Represents length
      { inPlace.estimate reflection with
        buffers := inPlace.buffers.sweep reflection (length - (inPlace.reached + 1 + 1)) }
      (lattice.advance reflection) := by
  obtain ⟨hforward, hbackward⟩ := hrepresents.size_buffers
  have hswept : WorkBuffers.Swept reflection (length - (inPlace.reached + 1 + 1))
      inPlace.buffers (inPlace.buffers.sweep reflection (length - (inPlace.reached + 1 + 1))) :=
    WorkBuffers.swept_sweep reflection (by omega) (by omega)
  have hsize := hrepresents.size_errors
  have hreached := hrepresents.reached_eq
  have hnext : (lattice.advance reflection).forward.size = length - (lattice.reached + 1 + 1) := by
    rw [Lattice.advance, Signal.size_tabulate]
    omega
  exact {
    size_buffers := ⟨hswept.size_forward.trans hforward, hswept.size_backward.trans hbackward⟩
    size_errors := hnext
    forward_eq := by
      intro index hindex
      rw [hnext] at hindex
      rw [hswept.forward_eq, if_pos (by omega), Lattice.advance, Signal.sample_tabulate,
        if_pos (by omega), hrepresents.forward_eq index (by omega),
        hrepresents.backward_eq index (by omega)]
    backward_eq := by
      intro index hindex
      rw [hnext] at hindex
      rw [hswept.backward_eq, if_pos (by omega), Lattice.advance, Signal.sample_tabulate,
        if_pos (by omega), hrepresents.forward_eq (index + 1) (by omega),
        hrepresents.backward_eq (index + 1) (by omega)]
    weights_eq := by rw [estimate, hrepresents.weights_eq, Lattice.advance]
    power_eq := by rw [estimate, hrepresents.power_eq, Lattice.advance]
    reached_eq := by rw [estimate, hrepresents.reached_eq, Lattice.advance] }

/-- Both lattices estimate the same weights, leave the same power and end with the same
stage. -/
theorem Represents.run (hrepresents : Represents length inPlace lattice) (remaining : Nat) :
    (InPlaceLattice.run length remaining inPlace).weights =
        (Lattice.run remaining lattice).weights ∧
      (InPlaceLattice.run length remaining inPlace).power =
        (Lattice.run remaining lattice).power ∧
      (InPlaceLattice.run length remaining inPlace).reached =
        (Lattice.run remaining lattice).reached := by
  induction remaining generalizing inPlace lattice with
  | zero => exact ⟨hrepresents.weights_eq, hrepresents.power_eq, hrepresents.reached_eq⟩
  | succ remaining ih =>
      rw [InPlaceLattice.run, Lattice.run, hrepresents.correlations_eq]
      dsimp only
      split
      · exact ⟨hrepresents.weights_eq, rfl, hrepresents.reached_eq⟩
      · split
        case isTrue hlast =>
          have hnext := hrepresents.advance
            (2.0 * lattice.correlations.1 / lattice.correlations.2)
          rw [hlast, Lattice.run]
          exact ⟨hnext.weights_eq, hnext.power_eq, hnext.reached_eq⟩
        case isFalse => exact ih (hrepresents.advance _)

end InPlaceLattice

def burgInPlace (segment : Signal α) (order : Nat) : Predictor α :=
  let count : α := (segment.size : α)
  let power := segment.energy / count
  if segment.size < 2 ∨ power ≤ 0 then .flat order
  else
    let lattice := InPlaceLattice.run segment.size order (.start segment power)
    { polynomial := .tabulate (order + 1) fun index =>
        if index = 0 then 1 else -lattice.weights.sample (index - 1)
      gain := lattice.power * count
      orderReached := lattice.reached }

/-- In place or not, the lattice gives the same predictor. -/
theorem burgInPlace_eq_burg (segment : Signal α) (order : Nat) :
    burgInPlace segment order = burg segment order := by
  simp only [burgInPlace, burg, Lattice.polynomial]
  split
  case isTrue => rfl
  case isFalse =>
    obtain ⟨hweights, hpower, hreached⟩ := (InPlaceLattice.represents_start segment
      (segment.energy / (segment.size : α))).run order
    rw [hweights, hpower, hreached]

end Glottis.LinearPrediction
