import Mathlib
import Glottis.Proofs.LatticeBuffers
import Glottis.Proofs.RecursiveFilters
import Glottis.Proofs.Scaling

/-!
# Pre-emphasis

Pre-emphasis takes an average off each sample.  The average runs over the samples up to that
one, and its weights fall off geometrically towards the past.  The first sample is left out of
it, because the filter starts as if that sample had lasted forever; this is the recursive filter
from rest and a term that dies away.  The weights add up to less than one, so a pass at most
doubles the peak.
-/

namespace Glottis

namespace Signal

noncomputable def plus (left right : Signal ℝ) : Signal ℝ :=
  .tabulate left.size fun index => left.sample index + right.sample index

@[simp]
theorem size_plus (left right : Signal ℝ) : (left.plus right).size = left.size :=
  size_tabulate _ _

theorem sample_plus {left right : Signal ℝ} (hsize : right.size = left.size) (index : Nat) :
    (left.plus right).sample index = left.sample index + right.sample index := by
  rw [plus, sample_tabulate]
  split
  case isTrue => rfl
  case isFalse houtside =>
    have hbeyond : left.size ≤ index := not_lt.mp houtside
    rw [sample_of_size_le left hbeyond, sample_of_size_le right (hsize.trans_le hbeyond), add_zero]

end Signal

namespace Filter

/-! ## The filter in place -/

section InPlace

variable {α : Type} [Scalar α]

/-- A sweep over the vector that holds the signal, with the sample that was read last and the
one that was written in its place. -/
structure EmphasisSweep (α : Type) where
  buffer : Signal α
  lastIn : α
  lastOut : α

namespace EmphasisSweep

def step (factor : α) (sweep : EmphasisSweep α) (index : Nat) : EmphasisSweep α :=
  let current := sweep.buffer.sample index
  let output := factor * (sweep.lastOut + current - sweep.lastIn)
  ⟨sweep.buffer.setIfInBounds index output, current, output⟩

/-- The first sample stays, and a number of samples behind it are replaced in turn. -/
def run (factor : α) (signal : Signal α) (count : Nat) : EmphasisSweep α :=
  count.fold (fun index _ sweep => step factor sweep (index + 1))
    ⟨signal, signal.sample 0, signal.sample 0⟩

/-- What a sweep has done up to an index: the samples there are those of the filtered signal,
and the samples behind are as they were. -/
structure HasReached (signal filtered : Signal α) (reached : Nat) (sweep : EmphasisSweep α) :
    Prop where
  size_eq : sweep.buffer.size = signal.size
  sample_eq : ∀ index, sweep.buffer.sample index =
    if index ≤ reached then filtered.sample index else signal.sample index
  lastIn_eq : sweep.lastIn = signal.sample reached
  lastOut_eq : sweep.lastOut = filtered.sample reached

end EmphasisSweep

def preEmphasisInPlace (signal : Signal α) (sampleRate frequency : α) : Signal α :=
  if signal.size = 0 ∨ 0.5 * sampleRate ≤ frequency then signal
  else (EmphasisSweep.run (emphasisFactor sampleRate frequency) signal (signal.size - 1)).buffer

variable {signal : Signal α} {sampleRate frequency : α}

theorem sample_preEmphasis_zero (hbelow : ¬0.5 * sampleRate ≤ frequency) (hsize : 0 < signal.size) :
    (preEmphasis signal sampleRate frequency).sample 0 = signal.sample 0 := by
  rw [preEmphasis, if_neg hbelow, Signal.sample_grow _ _ hsize, if_pos rfl]

/-- Each sample follows from the one before it and from the step of the signal. -/
theorem sample_preEmphasis_succ (hbelow : ¬0.5 * sampleRate ≤ frequency) {index : Nat}
    (hindex : index + 1 < signal.size) :
    (preEmphasis signal sampleRate frequency).sample (index + 1) =
      emphasisFactor sampleRate frequency *
        ((preEmphasis signal sampleRate frequency).sample index + signal.sample (index + 1) -
          signal.sample index) := by
  rw [preEmphasis, if_neg hbelow, Signal.sample_grow _ _ hindex, if_neg (Nat.succ_ne_zero index),
    Nat.add_sub_cancel, Signal.sample_grow _ _ (Nat.lt_succ_self index),
    Signal.sample_grow _ _ (Nat.lt_of_succ_lt hindex)]

/-- The next step reads a sample that no earlier step has replaced. -/
theorem EmphasisSweep.HasReached.step {filtered : Signal α} {factor : α} {reached : Nat}
    {sweep : EmphasisSweep α} (hreached : HasReached signal filtered reached sweep)
    (hinside : reached + 1 < signal.size)
    (hnext : filtered.sample (reached + 1) =
      factor * (filtered.sample reached + signal.sample (reached + 1) - signal.sample reached)) :
    HasReached signal filtered (reached + 1) (sweep.step factor (reached + 1)) := by
  have hcurrent : sweep.buffer.sample (reached + 1) = signal.sample (reached + 1) := by
    rw [hreached.sample_eq, if_neg (Nat.not_succ_le_self reached)]
  have houtput : factor * (sweep.lastOut + sweep.buffer.sample (reached + 1) - sweep.lastIn) =
      filtered.sample (reached + 1) := by
    rw [hcurrent, hreached.lastIn_eq, hreached.lastOut_eq, hnext]
  exact {
    size_eq := by rw [EmphasisSweep.step, Array.size_setIfInBounds, hreached.size_eq]
    sample_eq := by
      intro index
      rw [EmphasisSweep.step, LinearPrediction.sample_setIfInBounds _ (by rwa [hreached.size_eq]),
        houtput, hreached.sample_eq]
      by_cases hplace : index = reached + 1
      · rw [if_pos hplace, if_pos hplace.le, hplace]
      · rw [if_neg hplace]
        exact if_congr (Nat.le_succ_iff.trans (or_iff_left hplace)).symm rfl rfl
    lastIn_eq := hcurrent
    lastOut_eq := houtput }

theorem EmphasisSweep.hasReached_run (hbelow : ¬0.5 * sampleRate ≤ frequency) {count : Nat}
    (hcount : count < signal.size) :
    HasReached signal (preEmphasis signal sampleRate frequency) count
      (run (emphasisFactor sampleRate frequency) signal count) := by
  induction count with
  | zero =>
      have hfirst := sample_preEmphasis_zero hbelow hcount
      refine ⟨rfl, fun index => ?_, rfl, hfirst.symm⟩
      by_cases hindex : index ≤ 0
      · rw [if_pos hindex, Nat.le_zero.mp hindex, hfirst]
        rfl
      · rw [if_neg hindex]
        rfl
  | succ count ih =>
      rw [run, Nat.fold_succ]
      exact (ih (Nat.lt_of_succ_lt hcount)).step hcount (sample_preEmphasis_succ hbelow hcount)

/-- In place or not, pre-emphasis gives the same signal, whatever the arithmetic. -/
theorem preEmphasisInPlace_eq_preEmphasis (signal : Signal α) (sampleRate frequency : α) :
    preEmphasisInPlace signal sampleRate frequency =
      preEmphasis signal sampleRate frequency := by
  by_cases hbelow : 0.5 * sampleRate ≤ frequency
  · rw [preEmphasisInPlace, preEmphasis, if_pos (.inr hbelow), if_pos hbelow]
  · by_cases hempty : signal.size = 0
    · rw [preEmphasisInPlace, if_pos (.inl hempty)]
      apply Signal.ext_sample (size_preEmphasis _ _ _).symm
      intro index hindex
      exact absurd hindex (by rw [hempty]; exact Nat.not_lt_zero index)
    · have hlast : signal.size - 1 < signal.size := Nat.sub_one_lt hempty
      have hreached := EmphasisSweep.hasReached_run hbelow hlast
      rw [preEmphasisInPlace, if_neg (not_or.mpr ⟨hempty, hbelow⟩)]
      apply Signal.ext_sample (hreached.size_eq.trans (size_preEmphasis _ _ _).symm)
      intro index hindex
      rw [hreached.size_eq] at hindex
      rw [hreached.sample_eq, if_pos (Nat.le_sub_one_of_lt hindex)]

end InPlace

/-! ## The average -/

variable {signal : Signal ℝ} {sampleRate frequency factor : ℝ}

theorem emphasisFactor_eq (sampleRate frequency : ℝ) :
    emphasisFactor sampleRate frequency = 1 / (2 * Real.pi * frequency / sampleRate + 1) := by
  have hpi : (Scalar.pi : ℝ) = Real.pi := rfl
  rw [emphasisFactor, hpi]
  norm_num

/-- The factor of a cutoff below half the sample rate. -/
theorem emphasisFactor_mem (hpositive : 0 < frequency) (hbelow : frequency < sampleRate / 2) :
    0 < emphasisFactor sampleRate frequency ∧ emphasisFactor sampleRate frequency < 1 := by
  have hrate : 0 < sampleRate := by linarith
  have hshare : 0 < 2 * Real.pi * frequency / sampleRate := by positivity
  rw [emphasisFactor_eq]
  constructor
  · positivity
  · rw [div_lt_one (by positivity)]
    linarith

theorem not_half_le (hbelow : frequency < sampleRate / 2) : ¬0.5 * sampleRate ≤ frequency := by
  rw [not_le]
  calc
    frequency < sampleRate / 2 := hbelow
    _ = 0.5 * sampleRate := by norm_num; ring

/-- The average of the samples behind the first one up to an index, where a sample counts less
by a factor for each index behind it. -/
noncomputable def leakyAverage (signal : Signal ℝ) (factor : ℝ) (index : Nat) : ℝ :=
  (1 - factor) * ∑ time ∈ Finset.Icc 1 index, factor ^ (index - time) * signal.sample time

theorem leakyAverage_zero (signal : Signal ℝ) (factor : ℝ) : leakyAverage signal factor 0 = 0 := by
  rw [leakyAverage, Finset.Icc_eq_empty (by norm_num), Finset.sum_empty, mul_zero]

theorem leakyAverage_succ (signal : Signal ℝ) (factor : ℝ) (index : Nat) :
    leakyAverage signal factor (index + 1) =
      factor * leakyAverage signal factor index + (1 - factor) * signal.sample (index + 1) := by
  have hearlier : ∑ time ∈ Finset.Icc 1 index, factor ^ (index + 1 - time) * signal.sample time =
      factor * ∑ time ∈ Finset.Icc 1 index, factor ^ (index - time) * signal.sample time := by
    rw [Finset.mul_sum]
    apply Finset.sum_congr rfl
    intro time htime
    rw [Nat.sub_add_comm (Finset.mem_Icc.mp htime).2, pow_succ', mul_assoc]
  rw [leakyAverage, leakyAverage, Finset.sum_Icc_succ_top (Nat.le_add_left 1 index), hearlier,
    Nat.sub_self, pow_zero, one_mul, mul_add, mul_left_comm]

/-- Pre-emphasis takes the average off each sample. -/
theorem sample_preEmphasis_eq (hbelow : frequency < sampleRate / 2) {index : Nat}
    (hindex : index < signal.size) :
    (preEmphasis signal sampleRate frequency).sample index =
      signal.sample index - leakyAverage signal (emphasisFactor sampleRate frequency) index := by
  induction index with
  | zero => rw [sample_preEmphasis_zero (not_half_le hbelow) hindex, leakyAverage_zero, sub_zero]
  | succ index ih =>
      rw [sample_preEmphasis_succ (not_half_le hbelow) hindex, ih (Nat.lt_of_succ_lt hindex),
        leakyAverage_succ]
      ring

/-! ## The start -/

private theorem sample_two_behind (first second : ℝ) (index : Nat) :
    Signal.sample #[first, second] (index + 2) = 0 :=
  Signal.sample_of_size_le _ (Nat.le_add_left 2 index)

/-- The recursive filter with two coefficients on either side starts from rest. -/
theorem sample_iir_zero_of_firstOrder (ahead behind feedback : ℝ) (hsize : 0 < signal.size) :
    (iir #[ahead, behind] #[1, feedback] signal).sample 0 = ahead * signal.sample 0 := by
  rw [sample_iir _ _ hsize, feedForward_eq_sum, Finset.sum_range_one, Finset.sum_range_zero,
    sub_zero]
  rfl

theorem sample_iir_succ_of_firstOrder (ahead behind feedback : ℝ) {index : Nat}
    (hindex : index + 1 < signal.size) :
    (iir #[ahead, behind] #[1, feedback] signal).sample (index + 1) =
      ahead * signal.sample (index + 1) + behind * signal.sample index -
        feedback * (iir #[ahead, behind] #[1, feedback] signal).sample index := by
  rw [sample_iir _ _ hindex, feedForward_eq_sum, leading_eq_one rfl, Finset.sum_range_succ',
    Finset.sum_range_succ', Finset.sum_range_succ']
  simp only [sample_two_behind, zero_mul, Finset.sum_const_zero, zero_add, div_one, Nat.sub_zero,
    Nat.add_one_sub_one]
  rw [add_comm (ahead * _)]
  rfl

/-- The recursive filter starts from rest, and pre-emphasis from the first sample: the rest of
that start dies away. -/
theorem sample_preEmphasis_eq_iir (hbelow : frequency < sampleRate / 2) {index : Nat}
    (hindex : index < signal.size) {factor : ℝ}
    (hfactor : emphasisFactor sampleRate frequency = factor) :
    (preEmphasis signal sampleRate frequency).sample index =
      (iir #[factor, -factor] #[1, -factor] signal).sample index +
        (1 - factor) * factor ^ index * signal.sample 0 := by
  induction index with
  | zero =>
      rw [sample_preEmphasis_zero (not_half_le hbelow) hindex,
        sample_iir_zero_of_firstOrder _ _ _ hindex]
      ring
  | succ index ih =>
      rw [sample_preEmphasis_succ (not_half_le hbelow) hindex, ih (Nat.lt_of_succ_lt hindex),
        sample_iir_succ_of_firstOrder _ _ _ hindex, hfactor]
      ring

/-! ## Sums and peaks -/

theorem leakyAverage_plus {left right : Signal ℝ} (hsize : right.size = left.size) (factor : ℝ)
    (index : Nat) :
    leakyAverage (left.plus right) factor index =
      leakyAverage left factor index + leakyAverage right factor index := by
  simp only [leakyAverage, Signal.sample_plus hsize, mul_add, Finset.sum_add_distrib]

theorem preEmphasis_plus {left right : Signal ℝ} (hsize : right.size = left.size)
    (hbelow : frequency < sampleRate / 2) :
    preEmphasis (left.plus right) sampleRate frequency =
      (preEmphasis left sampleRate frequency).plus (preEmphasis right sampleRate frequency) := by
  have hfiltered : (preEmphasis right sampleRate frequency).size =
      (preEmphasis left sampleRate frequency).size := by
    rw [size_preEmphasis, size_preEmphasis, hsize]
  apply Signal.ext_sample
  · simp
  · intro index hindex
    rw [size_preEmphasis] at hindex
    rw [Signal.sample_plus hfiltered, sample_preEmphasis_eq hbelow hindex]
    rw [Signal.size_plus] at hindex
    rw [sample_preEmphasis_eq hbelow hindex, sample_preEmphasis_eq hbelow (by rwa [hsize]),
      leakyAverage_plus hsize, Signal.sample_plus hsize, add_sub_add_comm]

/-- The weights of the average add up to less than one. -/
theorem abs_leakyAverage_le (signal : Signal ℝ) {factor : ℝ} (hpositive : 0 ≤ factor)
    (hone : factor ≤ 1) (index : Nat) :
    |leakyAverage signal factor index| ≤ (1 - factor ^ index) * signal.peak := by
  induction index with
  | zero => rw [leakyAverage_zero, abs_zero, pow_zero, sub_self, zero_mul]
  | succ index ih =>
      have hrest : 0 ≤ 1 - factor := sub_nonneg.mpr hone
      calc
        |leakyAverage signal factor (index + 1)|
            ≤ |factor * leakyAverage signal factor index| +
              |(1 - factor) * signal.sample (index + 1)| := by
          rw [leakyAverage_succ]
          exact abs_add_le _ _
        _ = factor * |leakyAverage signal factor index| +
              (1 - factor) * |signal.sample (index + 1)| := by
          rw [abs_mul, abs_mul, abs_of_nonneg hpositive, abs_of_nonneg hrest]
        _ ≤ factor * ((1 - factor ^ index) * signal.peak) + (1 - factor) * signal.peak := by
          gcongr
          exact signal.abs_sample_le_peak (index + 1)
        _ = (1 - factor ^ (index + 1)) * signal.peak := by
          ring

/-- A pass at most doubles the peak. -/
theorem peak_preEmphasis_le (signal : Signal ℝ) (hpositive : 0 < frequency)
    (hbelow : frequency < sampleRate / 2) :
    (preEmphasis signal sampleRate frequency).peak ≤ 2 * signal.peak := by
  obtain ⟨hfactor, hone⟩ := emphasisFactor_mem hpositive hbelow
  have hpeak : 0 ≤ signal.peak := (abs_nonneg _).trans (signal.abs_sample_le_peak 0)
  apply Signal.peak_le (mul_nonneg zero_le_two hpeak)
  intro index hindex
  rw [size_preEmphasis] at hindex
  have hpower : 0 ≤ emphasisFactor sampleRate frequency ^ index := pow_nonneg hfactor.le index
  calc
    |(preEmphasis signal sampleRate frequency).sample index|
        ≤ |signal.sample index| +
          |leakyAverage signal (emphasisFactor sampleRate frequency) index| := by
      rw [sample_preEmphasis_eq hbelow hindex]
      exact abs_sub _ _
    _ ≤ signal.peak + (1 - emphasisFactor sampleRate frequency ^ index) * signal.peak :=
      add_le_add (signal.abs_sample_le_peak index)
        (abs_leakyAverage_le signal hfactor.le hone.le index)
    _ ≤ signal.peak + 1 * signal.peak := by
      gcongr
      exact sub_le_self 1 hpower
    _ = 2 * signal.peak := by
      ring

theorem peak_preEmphasisPasses_le (signal : Signal ℝ) (hpositive : 0 < frequency)
    (hbelow : frequency < sampleRate / 2) (passes : Nat) :
    (preEmphasisPasses passes signal sampleRate frequency).peak ≤ 2 ^ passes * signal.peak := by
  induction passes with
  | zero => rw [pow_zero, one_mul, preEmphasisPasses, Nat.fold_zero]
  | succ passes ih =>
      rw [preEmphasisPasses] at ih
      calc
        (preEmphasisPasses (passes + 1) signal sampleRate frequency).peak
            ≤ 2 * (preEmphasisPasses passes signal sampleRate frequency).peak := by
          rw [preEmphasisPasses, Nat.fold_succ]
          exact peak_preEmphasis_le _ hpositive hbelow
        _ ≤ 2 * (2 ^ passes * signal.peak) := mul_le_mul_of_nonneg_left ih zero_le_two
        _ = 2 ^ (passes + 1) * signal.peak := by
          rw [pow_succ', mul_assoc]

/-- With a cutoff below half the sample rate, pre-emphasis, in place or not, takes a leaky
average of the samples behind the first one off each sample.  It is the recursive filter of
first order, from rest, and what is left of the first sample.  It is linear, and a number of
passes multiply the peak at most by that power of two. -/
theorem preEmphasis_subtracts_leakyAverage (signal : Signal ℝ) (hpositive : 0 < frequency)
    (hbelow : frequency < sampleRate / 2) :
    let factor := 1 / (2 * Real.pi * frequency / sampleRate + 1)
    let emphasized := preEmphasis signal sampleRate frequency
    preEmphasisInPlace signal sampleRate frequency = emphasized ∧
      emphasized.size = signal.size ∧
      (∀ index < signal.size, emphasized.sample index = signal.sample index -
        (1 - factor) * ∑ time ∈ Finset.Icc 1 index, factor ^ (index - time) * signal.sample time) ∧
      (∀ index < signal.size, emphasized.sample index =
        (iir #[factor, -factor] #[1, -factor] signal).sample index +
          (1 - factor) * factor ^ index * signal.sample 0) ∧
      (∀ (other : Signal ℝ) (gain otherGain : ℝ), other.size = signal.size →
        preEmphasis ((signal.scaled gain).plus (other.scaled otherGain)) sampleRate frequency =
          (emphasized.scaled gain).plus
            ((preEmphasis other sampleRate frequency).scaled otherGain)) ∧
      emphasized.peak ≤ 2 * signal.peak ∧
      ∀ passes, (preEmphasisPasses passes signal sampleRate frequency).peak ≤
        2 ^ passes * signal.peak := by
  intro factor emphasized
  have hfactor : emphasisFactor sampleRate frequency = factor := emphasisFactor_eq _ _
  refine ⟨preEmphasisInPlace_eq_preEmphasis _ _ _, size_preEmphasis _ _ _, ?_, ?_, ?_,
    peak_preEmphasis_le signal hpositive hbelow, peak_preEmphasisPasses_le signal hpositive hbelow⟩
  · intro index hindex
    rw [← hfactor]
    exact sample_preEmphasis_eq hbelow hindex
  · intro index hindex
    exact sample_preEmphasis_eq_iir hbelow hindex hfactor
  · intro other gain otherGain hsize
    rw [preEmphasis_plus (by rw [Signal.size_scaled, Signal.size_scaled, hsize]) hbelow,
      preEmphasis_scaled, preEmphasis_scaled]

theorem preEmphasis_subtracts_leakyAverage_of_three_samples :
    (preEmphasis (#[3, -1, 4] : Signal ℝ) 16000 50).sample 2 = 4 -
        (1 - 1 / (2 * Real.pi * 50 / 16000 + 1)) * ∑ time ∈ Finset.Icc 1 2,
          (1 / (2 * Real.pi * 50 / 16000 + 1)) ^ (2 - time) * Signal.sample #[3, -1, 4] time ∧
      (preEmphasisPasses 3 (#[3, -1, 4] : Signal ℝ) 16000 50).peak ≤
        2 ^ 3 * Signal.peak #[3, -1, 4] := by
  obtain ⟨_, _, hsample, _, _, _, hpasses⟩ := preEmphasis_subtracts_leakyAverage
    (#[3, -1, 4] : Signal ℝ) (by norm_num : (0 : ℝ) < 50) (by norm_num : (50 : ℝ) < 16000 / 2)
  exact ⟨hsample 2 (Nat.lt_succ_self 2), hpasses 3⟩

end Filter

end Glottis
