import Glottis.Scalar

/-!
# Signals

A signal is a finite sequence of sample values, read as silent outside its
range.  New signals are given by a rule for each index, or grown sample by
sample where a sample depends on earlier ones.  Sums are taken in a fixed
order, because rounding makes the order visible.
-/

namespace Glottis

/-- A finite sequence of samples. -/
abbrev Signal (α : Type) := Array α

/-- The sum of `term 0`, …, `term (count - 1)`, from left to right. -/
def sumRange {α : Type} [Scalar α] (count : Nat) (term : Nat → α) : α :=
  count.fold (fun index _ total => total + term index) 0

theorem sumRange_succ {α : Type} [Scalar α] (count : Nat) (term : Nat → α) :
    sumRange (count + 1) term = sumRange count term + term count := by
  simp [sumRange]

/-- The sum of `term 0`, …, `term (count - 1)` in eight interleaved lanes: lane
`k` adds the terms `8 g + k` of every whole group `g`, the lanes are added in
the pairs `k` and `k + 4`, and the terms past the last whole group follow in
order. -/
def sumLanes {α : Type} [Scalar α] (count : Nat) (term : Nat → α) : α :=
  let groups := count / 8
  let lane (offset : Nat) : α := sumRange groups fun group => term (8 * group + offset)
  let grouped := 0 + (lane 0 + lane 4) + (lane 1 + lane 5) + (lane 2 + lane 6) +
    (lane 3 + lane 7)
  (count % 8).fold (fun index _ total => total + term (8 * groups + index)) grouped

namespace Signal

variable {α : Type}

/-- The signal of `length` samples that has `value index` at each index. -/
def tabulate (length : Nat) (value : Nat → α) : Signal α :=
  Array.ofFn fun index : Fin length => value index

/-- The signal of `length` samples in which each sample follows from the
samples before it. -/
def grow (length : Nat) (next : Signal α → Nat → α) : Signal α :=
  length.fold (fun index _ past => past.push (next past index)) #[]

variable [Scalar α]

/-- The sample at an index, zero outside the signal. -/
def sample (signal : Signal α) (index : Nat) : α := signal.getD index 0

def silence (length : Nat) : Signal α := tabulate length fun _ => 0

def allFinite (signal : Signal α) : Bool := signal.all Scalar.isFinite

/-- The largest magnitude of a sample, zero for an empty signal.  Undefined
samples are passed over. -/
def peak (signal : Signal α) : α :=
  signal.foldl (fun largest value =>
    let size := Scalar.magnitude value
    if largest < size then size else largest) 0

/-- The signal scaled to peak magnitude one, or the signal itself where the
peak is zero or infinite. -/
def normalize (signal : Signal α) : Signal α :=
  let largest := peak signal
  if 0 < largest ∧ Scalar.isFinite largest then signal.map (· / largest) else signal

def energy (signal : Signal α) : α :=
  sumLanes signal.size fun index => sample signal index * sample signal index

@[simp]
theorem size_tabulate {α : Type} (length : Nat) (value : Nat → α) :
    (tabulate length value).size = length := by
  simp [tabulate]

theorem sample_tabulate (length : Nat) (value : Nat → α) (index : Nat) :
    sample (tabulate length value) index = if index < length then value index else 0 := by
  by_cases hindex : index < length <;>
    simp [sample, tabulate, Array.getD_eq_getD_getElem?, hindex]

@[simp]
theorem size_silence (length : Nat) : (silence length : Signal α).size = length := by
  simp [silence]

@[simp]
theorem grow_zero {α : Type} (next : Signal α → Nat → α) : grow 0 next = #[] := rfl

theorem grow_succ {α : Type} (length : Nat) (next : Signal α → Nat → α) :
    grow (length + 1) next = (grow length next).push (next (grow length next) length) := by
  simp [grow]

@[simp]
theorem size_grow {α : Type} (length : Nat) (next : Signal α → Nat → α) :
    (grow length next).size = length := by
  induction length with
  | zero => rfl
  | succ length ih => simp [grow_succ, ih]

theorem sample_eq_getElem (signal : Signal α) {index : Nat} (hindex : index < signal.size) :
    sample signal index = signal[index] := by
  simp [sample, Array.getD_eq_getD_getElem?, hindex]

theorem getElem?_eq_some_sample (signal : Signal α) {index : Nat} (hindex : index < signal.size) :
    signal[index]? = some (sample signal index) := by
  rw [sample_eq_getElem _ hindex, Array.getElem?_eq_getElem hindex]

theorem sample_of_size_le (signal : Signal α) {index : Nat} (hindex : signal.size ≤ index) :
    sample signal index = 0 := by
  simp [sample, Array.getD_eq_getD_getElem?, hindex]

theorem sample_push (signal : Signal α) (value : α) (index : Nat) :
    sample (signal.push value) index =
      if index = signal.size then value else sample signal index := by
  by_cases hindex : index < signal.size
  · have hne : index ≠ signal.size := by omega
    rw [if_neg hne, sample_eq_getElem _ hindex,
      sample_eq_getElem _ (by rw [Array.size_push]; omega), Array.getElem_push_lt hindex]
  · by_cases hlast : index = signal.size
    · subst hlast
      rw [if_pos rfl, sample_eq_getElem _ (by rw [Array.size_push]; omega),
        Array.getElem_push_eq]
    · rw [if_neg hlast,
        sample_of_size_le (signal.push value) (by rw [Array.size_push]; omega),
        sample_of_size_le signal (by omega)]

/-- A grown signal has at each index the sample that follows from the samples
before that index. -/
theorem sample_grow (length : Nat) (next : Signal α → Nat → α) {index : Nat}
    (hindex : index < length) :
    sample (grow length next) index = next (grow index next) index := by
  induction length with
  | zero => omega
  | succ length ih =>
      rw [grow_succ, sample_push, size_grow]
      by_cases hlast : index = length
      · rw [if_pos hlast, hlast]
      · rw [if_neg hlast, ih (by omega)]

/-- Signals of one length with the same samples are equal. -/
theorem ext_sample {left right : Signal α} (hsize : left.size = right.size)
    (hsample : ∀ index < left.size, sample left index = sample right index) :
    left = right := by
  apply Array.ext hsize
  intro index hleft hright
  simpa [sample_eq_getElem, hleft, hright] using hsample index hleft

@[simp]
theorem size_normalize (signal : Signal α) : (normalize signal).size = signal.size := by
  simp only [normalize]
  split <;> simp

end Signal

end Glottis
