import Mathlib
import Glottis.Proofs.ExactArithmetic
import Glottis.Proofs.LatticeBuffers

/-!
# The lattice with checked steps

The lattice in place keeps its errors and its weights in buffers whose entries are numbered
from one, one entry longer than the segment and than the order.  Here every read, every write
and every copied range has to lie inside its buffer, and every divisor has to differ from
zero; otherwise there is no result.  There always is one, and it is the predictor of the
lattice.  The run also notes the denominator of each stage that it begins and the coefficient
of each stage that it completes.
-/

namespace Glottis

variable {α : Type}

/-! ## Checked steps -/

/-- A buffer with the entry at a place replaced; a place outside is refused. -/
def Signal.write? (buffer : Signal α) (place : Nat) (value : α) : Option (Signal α) :=
  if place < buffer.size then some (buffer.setIfInBounds place value) else none

variable [Scalar α]

/-- A buffer with the entries from a place up to another one taken from a source; a range that
does not lie inside both of them is refused. -/
def Signal.copy? (source buffer : Signal α) (first stop : Nat) : Option (Signal α) :=
  if first ≤ stop ∧ stop ≤ source.size ∧ stop ≤ buffer.size then
    some (.tabulate buffer.size fun place =>
      if first ≤ place ∧ place < stop then source.sample place else buffer.sample place)
  else none

def divide? (dividend divisor : α) : Option α :=
  if divisor ≤ 0 ∧ 0 ≤ divisor then none else some (dividend / divisor)

/-- A number of steps, at the places from a first one on, each of which has to succeed. -/
def loop? {σ : Type} (first : Nat) (step : Nat → σ → Option σ) : (count : Nat) → σ → Option σ
  | 0, state => some state
  | count + 1, state => do
      let reached ← loop? first step count state
      step (first + count) reached

/-- A loop succeeds if each step leads from one of the given states to the next. -/
theorem loop?_eq_some {σ : Type} {first count : Nat} {step : Nat → σ → Option σ} {start last : σ}
    (state : Nat → σ) (hstart : state 0 = start) (hlast : state count = last)
    (hstep : ∀ done < count, step (first + done) (state done) = some (state (done + 1))) :
    loop? first step count start = some last := by
  rw [← hstart, ← hlast]
  clear hstart hlast
  induction count with
  | zero => rfl
  | succ count ih =>
      rw [loop?, ih fun done hdone => hstep done (Nat.lt_succ_of_lt hdone)]
      exact hstep count (Nat.lt_succ_self count)

theorem divide?_of_not_le_zero (dividend : α) {divisor : α} (hdivisor : ¬divisor ≤ 0) :
    divide? dividend divisor = some (dividend / divisor) :=
  if_neg fun hzero => hdivisor hzero.1

namespace Signal

theorem tabulate_congr {length : Nat} {left right : Nat → α}
    (hsame : ∀ index < length, left index = right index) :
    tabulate length left = tabulate length right := by
  apply ext_sample
  · rw [size_tabulate, size_tabulate]
  · intro index hindex
    rw [size_tabulate] at hindex
    rw [sample_tabulate, sample_tabulate, if_pos hindex, if_pos hindex, hsame index hindex]

theorem write?_tabulate {length place : Nat} {value next : Nat → α} {replacement : α}
    (hplace : place < length) (hreplaced : next place = replacement)
    (hkept : ∀ index, index ≠ place → next index = value index) :
    write? (tabulate length value) place replacement = some (tabulate length next) := by
  have hinside : place < (tabulate length value).size := by rwa [size_tabulate]
  rw [write?, if_pos hinside, Option.some.injEq]
  apply ext_sample
  · rw [Array.size_setIfInBounds, size_tabulate, size_tabulate]
  · intro index hindex
    rw [Array.size_setIfInBounds, size_tabulate] at hindex
    rw [LinearPrediction.sample_setIfInBounds _ hinside, sample_tabulate, sample_tabulate,
      if_pos hindex, if_pos hindex]
    by_cases hsame : index = place
    · rw [if_pos hsame, hsame, hreplaced]
    · rw [if_neg hsame, hkept index hsame]

/-! ## Buffers numbered from one -/

/-- The buffer that holds values from place one on, behind a zero. -/
def numbered (length : Nat) (value : Nat → α) : Signal α :=
  tabulate (length + 1) fun place => if place = 0 then 0 else value (place - 1)

variable {length : Nat}

@[simp]
theorem size_numbered (value : Nat → α) : (numbered length value).size = length + 1 :=
  size_tabulate _ _

theorem numbered_congr {left right : Nat → α} (hsame : ∀ index < length, left index = right index) :
    numbered length left = numbered length right := by
  apply tabulate_congr
  intro place hplace
  split
  case isTrue => rfl
  case isFalse hpositive => exact hsame (place - 1) (by omega)

theorem silence_eq_numbered : (silence (length + 1) : Signal α) = numbered length fun _ => 0 := by
  apply tabulate_congr
  intro place _
  rw [ite_self]

theorem getElem?_numbered (value : Nat → α) {index : Nat} (hindex : index < length) :
    (numbered length value)[index + 1]? = some (value index) := by
  rw [getElem?_eq_some_sample _ (by rw [size_numbered]; omega), numbered, sample_tabulate,
    if_pos (by omega), if_neg (Nat.succ_ne_zero index), Nat.add_sub_cancel]

theorem write?_numbered {value next : Nat → α} {index : Nat} {replacement : α}
    (hindex : index < length) (hreplaced : next index = replacement)
    (hkept : ∀ other, other ≠ index → next other = value other) :
    write? (numbered length value) (index + 1) replacement = some (numbered length next) := by
  apply write?_tabulate
  case hplace => omega
  case hreplaced => rw [if_neg (Nat.succ_ne_zero index), Nat.add_sub_cancel, hreplaced]
  case hkept =>
    intro place hplace
    exact if_ctx_congr Iff.rfl (fun _ => rfl) fun hpositive => hkept _ (by omega)

/-- The sample at a place of a buffer replaced, seen from place one on. -/
theorem write?_numbered_sample {buffer : Signal α} {index : Nat} (hindex : index < length)
    (hinside : index < buffer.size) (replacement : α) :
    write? (numbered length buffer.sample) (index + 1) replacement =
      some (numbered length (Signal.sample (buffer.setIfInBounds index replacement))) := by
  have hsample := LinearPrediction.sample_setIfInBounds buffer hinside replacement
  apply write?_numbered hindex
  case hreplaced => rw [hsample, if_pos rfl]
  case hkept =>
    intro other hother
    rw [hsample, if_neg hother]

end Signal

namespace LinearPrediction

/-! ## The stages of a run -/

/-- The denominators of the stages that a run begins, and the coefficients of those that it
completes. -/
structure StageLog (α : Type) where
  denominators : List α
  coefficients : List α

def StageLog.after (denominator coefficient : α) (log : StageLog α) : StageLog α :=
  ⟨denominator :: log.denominators, coefficient :: log.coefficients⟩

namespace Lattice

def reflection (lattice : Lattice α) : α :=
  2.0 * lattice.correlations.1 / lattice.correlations.2

/-- The stages of a run.  The one that ends it early has a denominator but no coefficient. -/
def log : Nat → Lattice α → StageLog α
  | 0, _ => ⟨[], []⟩
  | remaining + 1, lattice =>
      if lattice.correlations.2 ≤ 0 then ⟨[lattice.correlations.2], []⟩
      else
        (log remaining (lattice.advance lattice.reflection)).after lattice.correlations.2
          lattice.reflection

end Lattice

/-! ## The checked run -/

def correlations? (buffers : WorkBuffers α) (covered : Nat) : Option (α × α) :=
  loop? 1
    (fun place (product, squares) => do
      let ahead ← buffers.forward[place]?
      let behind ← buffers.backward[place]?
      return (product + ahead * behind, squares + (ahead * ahead + behind * behind)))
    covered (0, 0)

def weights? (earlier weights : Signal α) (stage : Nat) (coefficient : α) :
    Option (Signal α) := do
  let newest ← weights.write? stage coefficient
  loop? 1
    (fun place weights => do
      let before ← earlier[place]?
      let reflection ← weights[stage]?
      let mirrored ← earlier[stage - place]?
      weights.write? place (before - reflection * mirrored))
    (stage - 1) newest

def sweep? (earlier : Signal α) (stage count : Nat) (buffers : WorkBuffers α) :
    Option (WorkBuffers α) :=
  loop? 1
    (fun place buffers => do
      let reflection ← earlier[stage]?
      let ahead ← buffers.forward[place]?
      let behind ← buffers.backward[place]?
      let forward ← buffers.forward.write? place (ahead - reflection * behind)
      let behindNext ← buffers.backward[place + 1]?
      let aheadNext ← forward[place + 1]?
      let backward ← buffers.backward.write? place (behindNext - reflection * aheadNext)
      return ⟨forward, backward⟩)
    count buffers

/-- The state of the lattice in buffers numbered from one.  The weights of the stage before
are kept until the errors have been swept. -/
structure CheckedLattice (α : Type) where
  buffers : WorkBuffers α
  earlier : Signal α
  weights : Signal α
  power : α
  reached : Nat

/-- A stage with its coefficient.  The last one leaves the errors as they are. -/
def stage? (length remaining : Nat) (lattice : CheckedLattice α) (coefficient : α) :
    Option (CheckedLattice α) := do
  let stage := lattice.reached + 1
  let weights ← weights? lattice.earlier lattice.weights stage coefficient
  let estimated : CheckedLattice α :=
    { lattice with
      weights
      power := lattice.power * (1 - coefficient * coefficient)
      reached := stage }
  if remaining = 0 then return estimated
  let earlier ← weights.copy? lattice.earlier 1 (stage + 1)
  let buffers ← sweep? earlier stage (length - stage - 1) lattice.buffers
  return { estimated with earlier, buffers }

def run? (length : Nat) : Nat → CheckedLattice α → Option (CheckedLattice α × StageLog α)
  | 0, lattice => some (lattice, ⟨[], []⟩)
  | remaining + 1, lattice => do
      let (product, squares) ← correlations? lattice.buffers (length - (lattice.reached + 1))
      if squares ≤ 0 then return ({ lattice with power := 0 }, ⟨[squares], []⟩)
      let coefficient ← divide? (2.0 * product) squares
      let next ← stage? length remaining lattice coefficient
      let (last, log) ← run? length remaining next
      return (last, log.after squares coefficient)

/-- The segment as the forward errors, and the segment one sample later as the backward
errors. -/
def load? (segment : Signal α) : Option (WorkBuffers α) := do
  let first ← segment[0]?
  let forward ← (Signal.silence (segment.size + 1)).write? 1 first
  let last ← segment[segment.size - 1]?
  let backward ← (Signal.silence (segment.size + 1)).write? (segment.size - 1) last
  loop? 2
    (fun place buffers => do
      let value ← segment[place - 1]?
      let forward ← buffers.forward.write? place value
      let backward ← buffers.backward.write? (place - 1) value
      return ⟨forward, backward⟩)
    (segment.size - 1) ⟨forward, backward⟩

def polynomial? (weights : Signal α) (order : Nat) : Option (Signal α) :=
  loop? 1
    (fun place polynomial => do
      let weight ← weights[place]?
      polynomial.write? place (-weight))
    order (Predictor.flat order).polynomial

/-- The method of Burg with every step checked, and the log of its stages. -/
def burg? (segment : Signal α) (order : Nat) : Option (Predictor α × StageLog α) := do
  if segment.size < 2 then return (.flat order, ⟨[], []⟩)
  let power ← divide? segment.energy (segment.size : α)
  if power ≤ 0 then return (.flat order, ⟨[], []⟩)
  let buffers ← load? segment
  let (lattice, log) ← run? segment.size order
    ⟨buffers, .silence (order + 1), .silence (order + 1), power, 0⟩
  let polynomial ← polynomial? lattice.weights order
  return (⟨polynomial, lattice.power * (segment.size : α), lattice.reached⟩, log)

/-! ## The steps of a stage -/

def WorkBuffers.numbered (length : Nat) (buffers : WorkBuffers α) : WorkBuffers α :=
  ⟨.numbered length buffers.forward.sample, .numbered length buffers.backward.sample⟩

theorem correlations?_numbered {length covered : Nat} (buffers : WorkBuffers α)
    (hcovered : covered ≤ length) :
    correlations? (buffers.numbered length) covered = some (buffers.correlations covered) := by
  apply loop?_eq_some buffers.correlations rfl rfl
  intro done hdone
  rw [Nat.add_comm, WorkBuffers.numbered, Signal.getElem?_numbered _ (hdone.trans_le hcovered),
    Signal.getElem?_numbered _ (hdone.trans_le hcovered), WorkBuffers.correlations,
    WorkBuffers.correlations, Nat.fold_succ]
  rfl

/-- A sweep reads one entry behind the last that it writes. -/
theorem sweep?_numbered {length count stage : Nat} {earlier : Signal α} {reflection : α}
    (hreflection : earlier[stage]? = some reflection) {buffers : WorkBuffers α}
    (hforward : buffers.forward.size = length) (hbackward : buffers.backward.size = length)
    (hcount : count ≤ length - 1) :
    sweep? earlier stage count (buffers.numbered length) =
      some ((buffers.sweep reflection count).numbered length) := by
  apply loop?_eq_some (fun done => (buffers.sweep reflection done).numbered length) rfl rfl
  intro done hdone
  have hswept : WorkBuffers.Swept reflection done buffers (buffers.sweep reflection done) :=
    WorkBuffers.swept_sweep reflection (by omega) (by omega)
  have hnext : buffers.sweep reflection (done + 1) =
      (buffers.sweep reflection done).update reflection done := by
    rw [WorkBuffers.sweep, Nat.fold_succ, ← WorkBuffers.sweep]
  generalize buffers.sweep reflection done = swept at hswept hnext
  have hahead : done < swept.forward.size := by rw [hswept.size_forward]; omega
  have hbehind : done < swept.backward.size := by rw [hswept.size_backward]; omega
  rw [hnext, WorkBuffers.numbered, WorkBuffers.numbered, WorkBuffers.update, Nat.add_comm 1 done,
    hreflection, Signal.getElem?_numbered _ (by omega), Signal.getElem?_numbered _ (by omega)]
  simp only [Option.bind_eq_bind, Option.bind_some]
  rw [Signal.write?_numbered_sample (by omega) hahead, Signal.getElem?_numbered _ (by omega)]
  simp only [Option.bind_some]
  rw [Signal.getElem?_numbered _ (by omega)]
  simp only [Option.bind_some]
  rw [Signal.write?_numbered_sample (by omega) hbehind]
  rfl

def nextWeights (weights : Signal α) (coefficient : α) : Signal α :=
  (Signal.tabulate weights.size fun index =>
    weights.sample index - coefficient * weights.sample (weights.size - 1 - index)).push coefficient

theorem sample_nextWeights (weights : Signal α) (coefficient : α) (index : Nat) :
    (nextWeights weights coefficient).sample index =
      if index < weights.size then
        weights.sample index - coefficient * weights.sample (weights.size - 1 - index)
      else if index = weights.size then coefficient
      else weights.sample index := by
  rw [nextWeights, Signal.sample_push, Signal.size_tabulate, Signal.sample_tabulate]
  by_cases hinner : index < weights.size
  · rw [if_neg (by omega), if_pos hinner, if_pos hinner]
  · rw [if_neg hinner, if_neg hinner, Signal.sample_of_size_le weights (by omega)]

/-- The coefficient is written before the other weights are mirrored. -/
theorem weights?_numbered {order : Nat} (weights : Signal α) (hroom : weights.size < order)
    (coefficient : α) :
    weights? (.numbered order weights.sample) (.numbered order weights.sample)
        (weights.size + 1) coefficient =
      some (.numbered order (nextWeights weights coefficient).sample) := by
  have hnewest : Signal.write? (.numbered order weights.sample) (weights.size + 1) coefficient =
      some (.numbered order fun index =>
        if index = weights.size then coefficient else weights.sample index) :=
    Signal.write?_numbered hroom (if_pos rfl) fun _ hother => if_neg hother
  rw [weights?, hnewest, Nat.add_sub_cancel]
  apply loop?_eq_some fun done => Signal.numbered order fun index =>
    if index < done then
      weights.sample index - coefficient * weights.sample (weights.size - 1 - index)
    else if index = weights.size then coefficient
    else weights.sample index
  case hstart =>
    apply Signal.numbered_congr
    intro index _
    rw [if_neg (Nat.not_lt_zero index)]
  case hlast =>
    apply Signal.numbered_congr
    intro index _
    exact (sample_nextWeights weights coefficient index).symm
  case hstep =>
    intro done hdone
    rw [Nat.add_comm, show weights.size + 1 - (done + 1) = weights.size - 1 - done + 1 by omega,
      Signal.getElem?_numbered _ (by omega), Signal.getElem?_numbered _ (by omega),
      Signal.getElem?_numbered _ (by omega), if_neg (by omega : ¬weights.size < done), if_pos rfl]
    simp only [Option.bind_eq_bind, Option.bind_some]
    exact Signal.write?_numbered (by omega) (if_pos (Nat.lt_succ_self done))
      fun index hother => if_congr (by omega) rfl rfl

/-- Behind the newest weight both buffers are zero. -/
theorem copy?_numbered {order : Nat} (weights : Signal α) (hroom : weights.size < order)
    (coefficient : α) :
    Signal.copy? (.numbered order (nextWeights weights coefficient).sample)
        (.numbered order weights.sample) 1 (weights.size + 1 + 1) =
      some (.numbered order (nextWeights weights coefficient).sample) := by
  have hinside : 1 ≤ weights.size + 1 + 1 ∧
      weights.size + 1 + 1 ≤ (Signal.numbered order (nextWeights weights coefficient).sample).size ∧
      weights.size + 1 + 1 ≤ (Signal.numbered order weights.sample).size := by
    rw [Signal.size_numbered, Signal.size_numbered]
    omega
  rw [Signal.copy?, if_pos hinside, Option.some.injEq, Signal.size_numbered, Signal.numbered,
    Signal.numbered]
  apply Signal.tabulate_congr
  intro place hplace
  rw [Signal.sample_tabulate, Signal.sample_tabulate, if_pos hplace, if_pos hplace]
  by_cases hcopied : 1 ≤ place ∧ place < weights.size + 1 + 1
  · rw [if_pos hcopied]
  · rw [if_neg hcopied]
    by_cases hzero : place = 0
    · rw [if_pos hzero, if_pos hzero]
    · rw [if_neg hzero, if_neg hzero, sample_nextWeights, if_neg (by omega), if_neg (by omega)]

theorem polynomial?_numbered (weights : Signal α) (order : Nat) :
    polynomial? (.numbered order weights.sample) order =
      some (.tabulate (order + 1) fun index =>
        if index = 0 then 1 else -weights.sample (index - 1)) := by
  apply loop?_eq_some fun done => Signal.tabulate (order + 1) fun index =>
    if index = 0 then 1 else if index ≤ done then -weights.sample (index - 1) else 0
  case hstart =>
    change _ = Signal.tabulate (order + 1) fun index => if index = 0 then 1 else 0
    apply Signal.tabulate_congr
    intro index _
    exact if_ctx_congr Iff.rfl (fun _ => rfl) fun hpositive => if_neg (by omega)
  case hlast =>
    apply Signal.tabulate_congr
    intro index hindex
    rw [if_pos (by omega : index ≤ order)]
  case hstep =>
    intro done hdone
    rw [Nat.add_comm, Signal.getElem?_numbered _ hdone]
    simp only [Option.bind_eq_bind, Option.bind_some]
    apply Signal.write?_tabulate
    case hplace => omega
    case hreplaced => rw [if_neg (Nat.succ_ne_zero done), if_pos le_rfl, Nat.add_sub_cancel]
    case hkept =>
      intro index hother
      exact if_congr Iff.rfl rfl (if_congr (by omega) rfl rfl)

/-- The last sample is written twice, with the same value. -/
theorem load?_eq_some {segment : Signal α} (hsegment : 2 ≤ segment.size) (power : α) :
    load? segment =
      some ((InPlaceLattice.start segment power).buffers.numbered segment.size) := by
  obtain ⟨rest, hrest⟩ : ∃ rest, segment.size = rest + 2 := ⟨segment.size - 2, by omega⟩
  have hfirst : Signal.write? (.silence (rest + 2 + 1)) 1 (segment.sample 0) =
      some (.numbered (rest + 2) fun index => if index ≤ 0 then segment.sample index else 0) := by
    rw [Signal.silence_eq_numbered]
    exact Signal.write?_numbered (by omega) (if_pos le_rfl) fun index hother => if_neg (by omega)
  have hlast : Signal.write? (.silence (rest + 2 + 1)) (rest + 1) (segment.sample (rest + 1)) =
      some (.numbered (rest + 2) fun index =>
        if index < 0 ∨ index = rest then segment.sample (index + 1) else 0) := by
    rw [Signal.silence_eq_numbered]
    exact Signal.write?_numbered (by omega) (if_pos (.inr rfl)) fun index hother =>
      if_neg (by omega)
  rw [load?, Signal.getElem?_eq_some_sample _ (by omega),
    Signal.getElem?_eq_some_sample _ (by omega), hrest, show rest + 2 - 1 = rest + 1 by omega]
  simp only [Option.bind_eq_bind, Option.bind_some]
  rw [hfirst, hlast]
  simp only [Option.bind_some]
  apply loop?_eq_some fun done => ⟨.numbered (rest + 2) fun index =>
      if index ≤ done then segment.sample index else 0,
    .numbered (rest + 2) fun index =>
      if index < done ∨ index = rest then segment.sample (index + 1) else 0⟩
  case hstart => rfl
  case hlast =>
    rw [WorkBuffers.numbered, InPlaceLattice.start, WorkBuffers.mk.injEq]
    constructor
    · apply Signal.numbered_congr
      intro index _
      rw [if_pos (by omega)]
    · apply Signal.numbered_congr
      intro index hindex
      dsimp only
      rw [Signal.sample_tabulate, if_pos (by omega : index < segment.size)]
      by_cases hinside : index + 1 < segment.size
      · rw [if_pos (by omega)]
      · rw [if_neg (by omega), Signal.sample_of_size_le segment (not_lt.mp hinside)]
  case hstep =>
    intro done hdone
    have hforward : Signal.write? (.numbered (rest + 2) fun index =>
          if index ≤ done then segment.sample index else 0) (done + 1 + 1)
          (segment.sample (done + 1)) =
        some (.numbered (rest + 2) fun index =>
          if index ≤ done + 1 then segment.sample index else 0) :=
      Signal.write?_numbered (by omega) (if_pos le_rfl) fun index hother =>
        if_congr (by omega) rfl rfl
    have hbackward : Signal.write? (.numbered (rest + 2) fun index =>
          if index < done ∨ index = rest then segment.sample (index + 1) else 0) (done + 1)
          (segment.sample (done + 1)) =
        some (.numbered (rest + 2) fun index =>
          if index < done + 1 ∨ index = rest then segment.sample (index + 1) else 0) :=
      Signal.write?_numbered (by omega) (if_pos (.inl (Nat.lt_succ_self done)))
        fun index hother => if_congr (by omega) rfl rfl
    rw [show 2 + done - 1 = done + 1 by omega, show 2 + done = done + 1 + 1 by omega,
      Signal.getElem?_eq_some_sample _ (by omega)]
    simp only [Option.bind_some]
    rw [hforward]
    simp only [Option.bind_some]
    rw [hbackward]
    rfl

/-! ## The whole run -/

/-- The buffers numbered from one hold a state of the lattice in place.  Behind the last stage
nobody reads the errors and the earlier weights. -/
structure CheckedLattice.Holds (length order remaining : Nat) (checked : CheckedLattice α)
    (inPlace : InPlaceLattice α) : Prop where
  weights_eq : checked.weights = .numbered order inPlace.weights.sample
  power_eq : checked.power = inPlace.power
  reached_eq : checked.reached = inPlace.reached
  earlier_eq : remaining ≠ 0 → checked.earlier = .numbered order inPlace.weights.sample
  buffers_eq : remaining ≠ 0 → checked.buffers = inPlace.buffers.numbered length

variable {length order remaining : Nat} {checked : CheckedLattice α} {inPlace : InPlaceLattice α}
  {lattice : Lattice α}

/-- A stage stays inside the buffers and leads to the next state. -/
theorem CheckedLattice.Holds.stage?_eq_some
    (hholds : checked.Holds length order (remaining + 1) inPlace)
    (hforward : inPlace.buffers.forward.size = length)
    (hbackward : inPlace.buffers.backward.size = length)
    (hweights : inPlace.weights.size = inPlace.reached) (hroom : inPlace.reached < order)
    (coefficient : α) :
    ∃ next, stage? length remaining checked coefficient = some next ∧
      next.Holds length order remaining
        { inPlace.estimate coefficient with
          buffers := inPlace.buffers.sweep coefficient (length - (inPlace.reached + 1 + 1)) } := by
  have hearlier := hholds.earlier_eq (Nat.succ_ne_zero remaining)
  have hbuffers := hholds.buffers_eq (Nat.succ_ne_zero remaining)
  rw [← hweights] at hroom
  have hestimated := weights?_numbered inPlace.weights hroom coefficient
  rw [stage?, hearlier, hholds.weights_eq, hholds.reached_eq, hholds.power_eq, hbuffers,
    ← hweights, hestimated]
  simp only [Option.bind_eq_bind, Option.bind_some]
  by_cases hlast : remaining = 0
  · rw [if_pos hlast]
    exact ⟨_, rfl, rfl, rfl, congrArg (· + 1) hweights, fun hmore => absurd hlast hmore,
      fun hmore => absurd hlast hmore⟩
  · have hnewest : (Signal.numbered order (nextWeights inPlace.weights coefficient).sample)[
        inPlace.weights.size + 1]? = some coefficient := by
      rw [Signal.getElem?_numbered _ hroom, sample_nextWeights, if_neg (lt_irrefl _), if_pos rfl]
    have hswept := sweep?_numbered hnewest hforward hbackward
      (show length - (inPlace.weights.size + 1) - 1 ≤ length - 1 by omega)
    rw [if_neg hlast, copy?_numbered _ hroom]
    simp only [Option.bind_some]
    rw [hswept]
    exact ⟨_, rfl, rfl, rfl, congrArg (· + 1) hweights, fun _ => rfl, fun _ => by rw [Nat.sub_sub]⟩

/-- No stage leaves its buffers or divides by zero, and the run ends as that of the lattice
does. -/
theorem CheckedLattice.Holds.run?_eq_some
    (hholds : checked.Holds length order remaining inPlace)
    (hrepresents : InPlaceLattice.Represents length inPlace lattice)
    (hweights : lattice.weights.size = lattice.reached)
    (horder : lattice.reached + remaining ≤ order) :
    ∃ last, run? length remaining checked = some (last, lattice.log remaining) ∧
      last.weights = .numbered order (Lattice.run remaining lattice).weights.sample ∧
      last.power = (Lattice.run remaining lattice).power ∧
      last.reached = (Lattice.run remaining lattice).reached := by
  induction remaining generalizing checked inPlace lattice with
  | zero =>
      exact ⟨_, rfl, by rw [hholds.weights_eq, hrepresents.weights_eq]; rfl,
        hholds.power_eq.trans hrepresents.power_eq,
        hholds.reached_eq.trans hrepresents.reached_eq⟩
  | succ remaining ih =>
      have hcorrelations : correlations? checked.buffers (length - (checked.reached + 1)) =
          some lattice.correlations := by
        rw [hholds.buffers_eq (Nat.succ_ne_zero remaining), hholds.reached_eq,
          correlations?_numbered _ (Nat.sub_le _ _), hrepresents.correlations_eq]
      rw [run?, hcorrelations, Lattice.log, Lattice.run]
      simp only [Option.bind_eq_bind, Option.bind_some]
      by_cases hexhausted : lattice.correlations.2 ≤ 0
      · rw [if_pos hexhausted, if_pos hexhausted, if_pos hexhausted]
        exact ⟨_, rfl, hholds.weights_eq.trans (by rw [hrepresents.weights_eq]), rfl,
          hholds.reached_eq.trans hrepresents.reached_eq⟩
      · rw [if_neg hexhausted, if_neg hexhausted, if_neg hexhausted,
          divide?_of_not_le_zero _ hexhausted, ← Lattice.reflection]
        obtain ⟨next, hnext, hnextHolds⟩ := hholds.stage?_eq_some hrepresents.size_buffers.1
          hrepresents.size_buffers.2
          (by rw [hrepresents.weights_eq, hrepresents.reached_eq, hweights])
          (by rw [hrepresents.reached_eq]; omega) lattice.reflection
        have hsize : (lattice.advance lattice.reflection).weights.size =
            (lattice.advance lattice.reflection).reached := by
          rw [Lattice.advance, Array.size_push, Signal.size_tabulate, hweights]
        have hreached : (lattice.advance lattice.reflection).reached = lattice.reached + 1 := rfl
        obtain ⟨last, hlast, hends⟩ := ih hnextHolds (hrepresents.advance lattice.reflection)
          hsize (by omega)
        refine ⟨last, ?_, hends⟩
        simp only [Option.bind_some]
        rw [hnext]
        simp only [Option.bind_some]
        rw [hlast]
        rfl

def burgLog (segment : Signal α) (order : Nat) : StageLog α :=
  let power := segment.energy / (segment.size : α)
  if segment.size < 2 ∨ power ≤ 0 then ⟨[], []⟩ else (Lattice.start segment power).log order

theorem holds_start (segment : Signal α) (power : α) (order : Nat) :
    CheckedLattice.Holds segment.size order order
      ⟨(InPlaceLattice.start segment power).buffers.numbered segment.size,
        .silence (order + 1), .silence (order + 1), power, 0⟩
      (.start segment power) where
  weights_eq := Signal.silence_eq_numbered
  power_eq := rfl
  reached_eq := rfl
  earlier_eq := fun _ => Signal.silence_eq_numbered
  buffers_eq := fun _ => rfl

/-- The method of Burg never leaves its buffers and never divides by zero, whatever the lengths
of the segment and of the polynomial. -/
theorem burg?_eq_some (segment : Signal ℝ) (order : Nat) :
    burg? segment order = some (burg segment order, burgLog segment order) := by
  simp only [burg?, burg, burgLog]
  by_cases hshort : segment.size < 2
  · rw [if_pos hshort, if_pos (.inl hshort), if_pos (.inl hshort)]
    rfl
  have hcount : ¬(segment.size : ℝ) ≤ 0 := not_le.mpr (Nat.cast_pos.mpr (by omega))
  rw [if_neg hshort, divide?_of_not_le_zero _ hcount]
  simp only [Option.bind_eq_bind, Option.bind_some]
  by_cases hpower : segment.energy / (segment.size : ℝ) ≤ 0
  · rw [if_pos hpower, if_pos (.inr hpower), if_pos (.inr hpower)]
    rfl
  have hlattice : ¬(segment.size < 2 ∨ segment.energy / (segment.size : ℝ) ≤ 0) :=
    not_or.mpr ⟨hshort, hpower⟩
  obtain ⟨last, hlast, hweights, hleft, hreached⟩ :=
    (holds_start segment (segment.energy / (segment.size : ℝ)) order).run?_eq_some
      (InPlaceLattice.represents_start segment _) rfl (Nat.zero_add order).le
  rw [if_neg hpower, if_neg hlattice, if_neg hlattice, load?_eq_some (not_lt.mp hshort)]
  simp only [Option.bind_some]
  rw [hlast]
  simp only [Option.bind_some]
  rw [hweights, polynomial?_numbered, hleft, hreached]
  rfl

end LinearPrediction

end Glottis
