import Glottis.Signal

/-!
# Linear filters

Filters start from rest: samples before the signal count as zero.  Each output
sample is a sum over the coefficients in ascending order.
-/

namespace Glottis.Filter

variable {α : Type} [Scalar α]

/-- Sample `index` of the moving sum of `signal` with weights `coefficients`. -/
def feedForward (coefficients signal : Signal α) (index : Nat) : α :=
  sumRange (min (index + 1) coefficients.size) fun delay =>
    coefficients.sample delay * signal.sample (index - delay)

/-- The all-zero filter with the given coefficients; the output has the length
of the signal. -/
def fir (coefficients signal : Signal α) : Signal α :=
  .tabulate signal.size (feedForward coefficients signal)

@[simp]
theorem size_fir (coefficients signal : Signal α) :
    (fir coefficients signal).size = signal.size := by
  simp [fir]

theorem sample_fir (coefficients signal : Signal α) {index : Nat}
    (hindex : index < signal.size) :
    (fir coefficients signal).sample index = feedForward coefficients signal index := by
  rw [fir, Signal.sample_tabulate, if_pos hindex]

/-- The leading denominator coefficient, one for an empty denominator. -/
def leading (denominator : Signal α) : α :=
  if denominator.size = 0 then 1 else denominator.sample 0

/-- One output of the recursive filter: the numerator applied to the signal,
less the denominator applied to the past outputs.  Only the feedback is divided
by the leading denominator coefficient. -/
def recursiveStep (numerator denominator signal past : Signal α) (index : Nat) : α :=
  (min (index + 1) denominator.size - 1).fold
    (fun delay _ total =>
      total - denominator.sample (delay + 1) * past.sample (index - (delay + 1)) /
        leading denominator)
    (feedForward numerator signal index)

def iir (numerator denominator signal : Signal α) : Signal α :=
  .grow signal.size (recursiveStep numerator denominator signal)

@[simp]
theorem size_iir (numerator denominator signal : Signal α) :
    (iir numerator denominator signal).size = signal.size := by
  simp [iir]

/-- The full convolution, which is the product of two polynomials given by
their coefficients; empty if one of them is. -/
def convolve (left right : Signal α) : Signal α :=
  if left.size = 0 ∨ right.size = 0 then #[]
  else
    .tabulate (left.size + right.size - 1) fun index =>
      let first := index + 1 - right.size
      sumRange (min (index + 1) left.size - first) fun offset =>
        left.sample (first + offset) * right.sample (index - (first + offset))

theorem size_convolve (left right : Signal α) :
    (convolve left right).size =
      if left.size = 0 ∨ right.size = 0 then 0 else left.size + right.size - 1 := by
  unfold convolve
  split
  · rfl
  · exact Signal.size_tabulate _ _

/-- The pole of the pre-emphasis filter with a cutoff frequency. -/
def emphasisFactor (sampleRate frequency : α) : α :=
  1 / (2.0 * Scalar.pi * frequency / sampleRate + 1)

/-- First-order high-pass filter that keeps the first sample.  A cutoff at or
above half the sample rate leaves the signal as it is. -/
def preEmphasis (signal : Signal α) (sampleRate frequency : α) : Signal α :=
  if 0.5 * sampleRate ≤ frequency then signal
  else
    let factor := emphasisFactor sampleRate frequency
    .grow signal.size fun past index =>
      if index = 0 then signal.sample 0
      else factor * (past.sample (index - 1) + signal.sample index - signal.sample (index - 1))

@[simp]
theorem size_preEmphasis (signal : Signal α) (sampleRate frequency : α) :
    (preEmphasis signal sampleRate frequency).size = signal.size := by
  unfold preEmphasis
  split
  · rfl
  · exact Signal.size_grow _ _

def preEmphasisPasses (passes : Nat) (signal : Signal α) (sampleRate frequency : α) :
    Signal α :=
  passes.fold (fun _ _ filtered => preEmphasis filtered sampleRate frequency) signal

@[simp]
theorem size_preEmphasisPasses (passes : Nat) (signal : Signal α)
    (sampleRate frequency : α) :
    (preEmphasisPasses passes signal sampleRate frequency).size = signal.size := by
  induction passes with
  | zero => rfl
  | succ passes ih =>
      rw [preEmphasisPasses, Nat.fold_succ, size_preEmphasis]
      exact ih

end Glottis.Filter
