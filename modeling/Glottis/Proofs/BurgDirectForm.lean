import Mathlib
import Glottis.Proofs.LatticeBuffers
import Glottis.Proofs.NormalEquations
import Glottis.Proofs.PredictorScaling
import Glottis.Proofs.WhitenedFrames

/-!
# The method of Burg without a lattice

A stage of the method of Burg can be computed from the segment alone: the segment is
filtered by the polynomial so far and by its reverse, and the polynomial is reflected by
the multiple that leaves the least energy of both errors.  The lattice never filters again.
Its two vectors hold the errors of every stage over the samples that the stage covers,
shifted to the front, and its coefficient is the multiple with the other sign, so both
stop at the same stage with the same polynomial.
-/

namespace Glottis.LinearPrediction

/-! ## Stages in direct form -/

/-- The error of predicting the sample at a time from those before it, by a polynomial of an
order. -/
noncomputable def forwardError (segment : Signal ℝ) (coefficient : Nat → ℝ)
    (order time : Nat) : ℝ :=
  ∑ delay ∈ Finset.range (order + 1), coefficient delay * segment.sample (time - delay)

/-- The error of predicting, from the samples behind it, the sample that comes before a time
by the next order. -/
noncomputable def backwardError (segment : Signal ℝ) (coefficient : Nat → ℝ)
    (order time : Nat) : ℝ :=
  ∑ delay ∈ Finset.range (order + 1),
    coefficient delay * segment.sample (time - (order + 1) + delay)

/-- The energy of both errors that a reflection leaves. -/
noncomputable def stageEnergy (segment : Signal ℝ) (coefficient : Nat → ℝ) (order : Nat)
    (reflection : ℝ) : ℝ :=
  ∑ time ∈ Finset.Ico (order + 1) segment.size,
    ((forwardError segment coefficient order time +
        reflection * backwardError segment coefficient order time) ^ 2 +
      (backwardError segment coefficient order time +
        reflection * forwardError segment coefficient order time) ^ 2)

/-- No sample is left for another stage, or the errors have no energy. -/
def Exhausted (segment : Signal ℝ) (coefficient : Nat → ℝ) (order : Nat) : Prop :=
  segment.size ≤ order + 1 ∨ stageEnergy segment coefficient order 0 = 0

/-- From a polynomial of an order, the remaining stages end with a polynomial.  Each of them
reflects the polynomial so far by a number that minimises the energy of the errors. -/
inductive DirectForm (segment : Signal ℝ) :
    (remaining order : Nat) → (coefficient : Nat → ℝ) → (reached : Nat) →
      (last : Nat → ℝ) → Prop where
  | complete (order : Nat) (coefficient : Nat → ℝ) :
      DirectForm segment 0 order coefficient order coefficient
  | exhausted {remaining order : Nat} {coefficient : Nat → ℝ}
      (hexhausted : Exhausted segment coefficient order) :
      DirectForm segment (remaining + 1) order coefficient order coefficient
  | stage {remaining order reached : Nat} {coefficient last : Nat → ℝ} {reflection : ℝ}
      (hexhausted : ¬Exhausted segment coefficient order)
      (hminimal : ∀ other, stageEnergy segment coefficient order reflection ≤
        stageEnergy segment coefficient order other)
      (hrest : DirectForm segment remaining (order + 1)
        (reflected coefficient order reflection) reached last) :
      DirectForm segment (remaining + 1) order coefficient reached last

/-! ## The best reflection -/

noncomputable def errorProduct (segment : Signal ℝ) (coefficient : Nat → ℝ) (order : Nat) : ℝ :=
  ∑ time ∈ Finset.Ico (order + 1) segment.size,
    forwardError segment coefficient order time * backwardError segment coefficient order time

section

variable {segment : Signal ℝ} {coefficient : Nat → ℝ} {order : Nat}

/-- The energy is a quadratic function of the reflection. -/
theorem stageEnergy_eq (segment : Signal ℝ) (coefficient : Nat → ℝ) (order : Nat)
    (reflection : ℝ) :
    stageEnergy segment coefficient order reflection =
      stageEnergy segment coefficient order 0 * (1 + reflection ^ 2) +
        4 * reflection * errorProduct segment coefficient order := by
  rw [stageEnergy, stageEnergy, errorProduct, Finset.sum_mul, Finset.mul_sum,
    ← Finset.sum_add_distrib]
  apply Finset.sum_congr rfl
  intro time _
  ring

theorem stageEnergy_nonneg (segment : Signal ℝ) (coefficient : Nat → ℝ) (order : Nat)
    (reflection : ℝ) : 0 ≤ stageEnergy segment coefficient order reflection :=
  Finset.sum_nonneg fun _ _ => add_nonneg (sq_nonneg _) (sq_nonneg _)

theorem exhausted_iff :
    Exhausted segment coefficient order ↔ stageEnergy segment coefficient order 0 ≤ 0 := by
  constructor
  · intro hexhausted
    cases hexhausted with
    | inl hshort => rw [stageEnergy, Finset.Ico_eq_empty_of_le hshort, Finset.sum_empty]
    | inr henergy => exact henergy.le
  · intro henergy
    exact .inr (henergy.antisymm (stageEnergy_nonneg _ _ _ _))

/-- The least energy is left by one reflection only. -/
theorem forall_stageEnergy_le_iff (hexhausted : ¬Exhausted segment coefficient order)
    (reflection : ℝ) :
    (∀ other, stageEnergy segment coefficient order reflection ≤
        stageEnergy segment coefficient order other) ↔
      reflection = -(2 * errorProduct segment coefficient order /
        stageEnergy segment coefficient order 0) := by
  rw [exhausted_iff, not_le] at hexhausted
  generalize hbest : -(2 * errorProduct segment coefficient order /
    stageEnergy segment coefficient order 0) = best
  have hproduct : stageEnergy segment coefficient order 0 * best =
      -(2 * errorProduct segment coefficient order) := by
    rw [← hbest, mul_neg, mul_div_cancel₀ _ hexhausted.ne']
  have hexcess : ∀ other, stageEnergy segment coefficient order other =
      stageEnergy segment coefficient order best +
        stageEnergy segment coefficient order 0 * (other - best) ^ 2 := by
    intro other
    rw [stageEnergy_eq _ _ _ other, stageEnergy_eq _ _ _ best]
    linear_combination (2 * (other - best)) * hproduct
  constructor
  · intro hminimal
    have hnone := hminimal best
    rw [hexcess reflection, add_le_iff_nonpos_right] at hnone
    have hsquare := nonpos_of_mul_nonpos_right hnone hexhausted
    exact sub_eq_zero.mp (pow_eq_zero_iff two_ne_zero |>.mp (hsquare.antisymm (sq_nonneg _)))
  · intro hreflection other
    rw [hreflection, hexcess other]
    exact le_add_of_nonneg_right (mul_nonneg hexhausted.le (sq_nonneg _))

/-! ## The errors of the next stage -/

/-- The coefficient that the next stage adds is still zero. -/
theorem sum_range_of_beyond (hbeyond : coefficient (order + 1) = 0) (term : Nat → ℝ) :
    ∑ delay ∈ Finset.range (order + 1 + 1), coefficient delay * term delay =
      ∑ delay ∈ Finset.range (order + 1), coefficient delay * term delay := by
  rw [Finset.sum_range_succ, hbeyond, zero_mul, add_zero]

theorem forwardError_reflected (hbeyond : coefficient (order + 1) = 0) (reflection : ℝ)
    {time : Nat} (htime : order + 1 ≤ time) :
    forwardError segment (reflected coefficient order reflection) (order + 1) time =
      forwardError segment coefficient order time +
        reflection * backwardError segment coefficient order time := by
  rw [forwardError, sum_reflected_mul, sum_range_of_beyond hbeyond, sum_range_of_beyond hbeyond,
    forwardError, backwardError]
  congr 2
  apply Finset.sum_congr rfl
  intro delay hdelay
  rw [Finset.mem_range] at hdelay
  rw [show time - (order + 1 - delay) = time - (order + 1) + delay by omega]

/-- The window moves by a sample, so the error that the next stage reads at the next sample
predicts the same sample. -/
theorem backwardError_reflected (hbeyond : coefficient (order + 1) = 0) (reflection : ℝ)
    {time : Nat} (htime : order + 1 ≤ time) :
    backwardError segment (reflected coefficient order reflection) (order + 1) (time + 1) =
      backwardError segment coefficient order time +
        reflection * forwardError segment coefficient order time := by
  rw [backwardError, sum_reflected_mul, sum_range_of_beyond hbeyond, sum_range_of_beyond hbeyond,
    Nat.add_sub_add_right, forwardError, backwardError]
  congr 2
  apply Finset.sum_congr rfl
  intro delay hdelay
  rw [Finset.mem_range] at hdelay
  rw [show time - (order + 1) + (order + 1 - delay) = time - delay by omega]

end

/-! ## What the lattice holds -/

variable {segment : Signal ℝ} {order : Nat}

namespace Lattice

/-- The coefficients of the polynomial of a lattice, without an end. -/
noncomputable def coefficient (lattice : Lattice ℝ) (index : Nat) : ℝ :=
  if index = 0 then 1 else -lattice.weights.sample (index - 1)

/-- The vectors of a lattice hold the errors of its own polynomial over the samples that the
next stage covers.  The first of them holds the backward errors. -/
structure Tracks (segment : Signal ℝ) (lattice : Lattice ℝ) : Prop where
  size_errors : lattice.forward.size = segment.size - (lattice.reached + 1)
  size_weights : lattice.weights.size = lattice.reached
  forward_eq : ∀ index < lattice.forward.size, lattice.forward.sample index =
    backwardError segment lattice.coefficient lattice.reached (lattice.reached + 1 + index)
  backward_eq : ∀ index < lattice.forward.size, lattice.backward.sample index =
    forwardError segment lattice.coefficient lattice.reached (lattice.reached + 1 + index)

theorem coefficient_start (segment : Signal ℝ) (power : ℝ) :
    (start segment power).coefficient = fun index => if index = 0 then 1 else 0 := by
  funext index
  rw [coefficient, start, Signal.sample_of_size_le _ (Nat.zero_le _), neg_zero]

theorem polynomial_start (segment : Signal ℝ) (power : ℝ) (order : Nat) :
    (start segment power).polynomial order = (Predictor.flat order).polynomial :=
  congrArg (Signal.tabulate (order + 1)) (coefficient_start segment power)

theorem tracks_start (segment : Signal ℝ) (power : ℝ) :
    (start segment power).Tracks segment where
  size_errors := by rw [start, Signal.size_tabulate]
  size_weights := rfl
  forward_eq := by
    intro index hindex
    rw [start, Signal.size_tabulate] at hindex
    rw [coefficient_start, start, Signal.sample_tabulate, if_pos hindex, backwardError,
      Finset.sum_range_one, if_pos rfl, one_mul, Nat.add_zero, Nat.add_sub_cancel_left]
  backward_eq := by
    intro index hindex
    rw [start, Signal.size_tabulate] at hindex
    rw [coefficient_start, start, Signal.sample_tabulate, if_pos hindex, forwardError,
      Finset.sum_range_one, if_pos rfl, one_mul, Nat.sub_zero, Nat.zero_add, Nat.add_comm]

variable {lattice : Lattice ℝ}

theorem Tracks.coefficient_of_lt (htracks : lattice.Tracks segment) {index : Nat}
    (hindex : lattice.reached < index) : lattice.coefficient index = 0 := by
  rw [coefficient, if_neg (by omega),
    Signal.sample_of_size_le _ (by rw [htracks.size_weights]; omega), neg_zero]

/-- A stage of the lattice reflects its polynomial by its coefficient with the other sign. -/
theorem Tracks.coefficient_advance (htracks : lattice.Tracks segment) (reflection : ℝ) :
    (lattice.advance reflection).coefficient =
      reflected lattice.coefficient lattice.reached (-reflection) := by
  have hsize := htracks.size_weights
  have hnewest := htracks.coefficient_of_lt (Nat.lt_succ_self lattice.reached)
  have hfirst : lattice.coefficient 0 = 1 := by rw [coefficient, if_pos rfl]
  funext index
  rw [reflected, coefficient, advance]
  dsimp only
  rw [Signal.sample_push, Signal.size_tabulate, Signal.sample_tabulate, hsize]
  -- the first place, the newest one, those between them and those beyond
  by_cases hzero : index = 0
  · rw [if_pos hzero, if_pos (by omega), hzero, Nat.sub_zero, hfirst, hnewest, mul_zero, add_zero]
  by_cases hlast : index = lattice.reached + 1
  · rw [if_neg hzero, if_pos (by omega), if_pos (by omega), hlast, Nat.sub_self, hfirst, hnewest,
      mul_one, zero_add]
  by_cases hinner : index < lattice.reached + 1
  · rw [if_neg hzero, if_neg (by omega), if_pos (by omega), if_pos (by omega), coefficient,
      coefficient, if_neg hzero, if_neg (by omega),
      show lattice.reached + 1 - index - 1 = lattice.reached - 1 - (index - 1) by omega]
    ring
  · rw [if_neg hzero, if_neg (by omega), if_neg (by omega), if_neg (by omega), neg_zero]

/-- A stage without another look at the segment leaves the errors that filtering it afresh
would leave. -/
theorem Tracks.advance (htracks : lattice.Tracks segment) (reflection : ℝ) :
    (lattice.advance reflection).Tracks segment := by
  have hbeyond := htracks.coefficient_of_lt (Nat.lt_succ_self lattice.reached)
  have hsize := htracks.size_errors
  have hreached : (lattice.advance reflection).reached = lattice.reached + 1 := rfl
  have hnext : (lattice.advance reflection).forward.size = lattice.forward.size - 1 := by
    rw [Lattice.advance, Signal.size_tabulate]
  exact {
    size_errors := by omega
    size_weights := by
      rw [Lattice.advance, Array.size_push, Signal.size_tabulate, htracks.size_weights]
    forward_eq := by
      intro index hindex
      rw [hnext] at hindex
      rw [htracks.coefficient_advance, hreached,
        show lattice.reached + 1 + 1 + index = lattice.reached + 1 + index + 1 by omega,
        backwardError_reflected hbeyond _ (Nat.le_add_right _ _),
        ← htracks.forward_eq index (by omega), ← htracks.backward_eq index (by omega),
        Lattice.advance, Signal.sample_tabulate, if_pos hindex]
      ring
    backward_eq := by
      intro index hindex
      rw [hnext] at hindex
      rw [htracks.coefficient_advance, hreached,
        show lattice.reached + 1 + 1 + index = lattice.reached + 1 + (index + 1) by omega,
        forwardError_reflected hbeyond _ (Nat.le_add_right _ _),
        ← htracks.forward_eq (index + 1) (by omega),
        ← htracks.backward_eq (index + 1) (by omega),
        Lattice.advance, Signal.sample_tabulate, if_pos hindex]
      ring }

/-- The sums that the lattice takes are those of the errors in direct form. -/
theorem Tracks.correlations_eq (htracks : lattice.Tracks segment) :
    lattice.correlations =
      (errorProduct segment lattice.coefficient lattice.reached,
        stageEnergy segment lattice.coefficient lattice.reached 0) := by
  rw [correlations_eq_sum, errorProduct, stageEnergy, Finset.sum_Ico_eq_sum_range,
    Finset.sum_Ico_eq_sum_range, ← htracks.size_errors]
  congr 1
  · apply Finset.sum_congr rfl
    intro index hindex
    rw [Finset.mem_range] at hindex
    rw [htracks.forward_eq index hindex, htracks.backward_eq index hindex, mul_comm]
  · apply Finset.sum_congr rfl
    intro index hindex
    rw [Finset.mem_range] at hindex
    rw [htracks.forward_eq index hindex, htracks.backward_eq index hindex]
    ring

theorem Tracks.run_succ_of_exhausted (htracks : lattice.Tracks segment) (remaining : Nat)
    (hexhausted : Exhausted segment lattice.coefficient lattice.reached) :
    run (remaining + 1) lattice = { lattice with power := 0 } := by
  rw [run, htracks.correlations_eq]
  exact if_pos (exhausted_iff.mp hexhausted)

theorem Tracks.run_succ (htracks : lattice.Tracks segment) (remaining : Nat)
    (hexhausted : ¬Exhausted segment lattice.coefficient lattice.reached) :
    run (remaining + 1) lattice =
      run remaining (lattice.advance
        (2 * errorProduct segment lattice.coefficient lattice.reached /
          stageEnergy segment lattice.coefficient lattice.reached 0)) := by
  have htwo : (2.0 : ℝ) = 2 := by norm_num
  rw [run, htracks.correlations_eq, ← htwo]
  exact if_neg (mt exhausted_iff.mpr hexhausted)

/-- The direct form, from the polynomial of the lattice, can only end where the lattice
ends. -/
theorem Tracks.directForm_iff (htracks : lattice.Tracks segment) (remaining reached : Nat)
    (last : Nat → ℝ) :
    DirectForm segment remaining lattice.reached lattice.coefficient reached last ↔
      reached = (run remaining lattice).reached ∧ last = (run remaining lattice).coefficient := by
  induction remaining generalizing lattice with
  | zero =>
      constructor
      · intro hdirect
        cases hdirect with
        | complete => exact ⟨rfl, rfl⟩
      · rintro ⟨rfl, rfl⟩
        exact .complete _ _
  | succ remaining ih =>
      by_cases hexhausted : Exhausted segment lattice.coefficient lattice.reached
      · rw [htracks.run_succ_of_exhausted remaining hexhausted]
        constructor
        · intro hdirect
          cases hdirect with
          | exhausted => exact ⟨rfl, rfl⟩
          | stage hcontinues => exact absurd hexhausted hcontinues
        · rintro ⟨rfl, rfl⟩
          exact .exhausted hexhausted
      · have hminimal := forall_stageEnergy_le_iff hexhausted
        rw [htracks.run_succ remaining hexhausted, ← ih (htracks.advance _),
          htracks.coefficient_advance]
        constructor
        · intro hdirect
          cases hdirect with
          | exhausted hstops => exact absurd hstops hexhausted
          | stage _ hleast hrest => rwa [(hminimal _).mp hleast] at hrest
        · intro hrest
          exact .stage hexhausted ((hminimal _).mpr rfl) hrest

theorem Tracks.run (htracks : lattice.Tracks segment) (remaining : Nat) :
    (run remaining lattice).Tracks segment ∧
      (run remaining lattice).reached ≤ lattice.reached + remaining := by
  induction remaining generalizing lattice with
  | zero => exact ⟨htracks, le_rfl⟩
  | succ remaining ih =>
      by_cases hexhausted : Exhausted segment lattice.coefficient lattice.reached
      · rw [htracks.run_succ_of_exhausted remaining hexhausted]
        exact ⟨{ htracks with }, Nat.le_add_right _ _⟩
      · rw [htracks.run_succ remaining hexhausted]
        obtain ⟨hrest, hreached⟩ := ih (htracks.advance
          (2 * errorProduct segment lattice.coefficient lattice.reached /
            stageEnergy segment lattice.coefficient lattice.reached 0))
        exact ⟨hrest, hreached.trans_eq (Nat.succ_add_eq_add_succ _ _)⟩

/-- The polynomial has room for every stage. -/
theorem Tracks.sample_polynomial (htracks : lattice.Tracks segment)
    (horder : lattice.reached ≤ order) :
    (lattice.polynomial order).sample = lattice.coefficient := by
  funext index
  rw [polynomial, Signal.sample_tabulate]
  cases Nat.lt_or_ge index (order + 1) with
  | inl hinside => rw [if_pos hinside, coefficient]
  | inr houtside => rw [if_neg (by omega), htracks.coefficient_of_lt (by omega)]

end Lattice

/-! ## The predictor of the method -/

/-- A silent segment is exhausted before the first stage. -/
theorem exhausted_of_silent (hsilent : ∀ index, segment.sample index = 0)
    (coefficient : Nat → ℝ) (order : Nat) : Exhausted segment coefficient order := by
  right
  rw [stageEnergy]
  apply Finset.sum_eq_zero
  intro time _
  simp only [forwardError, backwardError, hsilent, mul_zero, Finset.sum_const_zero, add_zero,
    zero_pow two_ne_zero]

/-- The predictor is that of the lattice even where the segment has no power. -/
theorem burg_eq_run (hsegment : 2 ≤ segment.size) (horder : 1 ≤ order) :
    ∃ power, (burg segment order).orderReached =
        (Lattice.run order (.start segment power)).reached ∧
      (burg segment order).polynomial =
        (Lattice.run order (.start segment power)).polynomial order := by
  refine ⟨segment.energy / segment.size, ?_⟩
  have hcount : (0 : ℝ) < segment.size := Nat.cast_pos.mpr (by omega)
  by_cases hsilent : ∃ index, segment.sample index ≠ 0
  · have hpower : 0 < segment.energy / segment.size :=
      div_pos (segment.energy_pos_iff.mpr hsilent) hcount
    have hlattice : ¬(segment.size < 2 ∨ segment.energy / segment.size ≤ 0) := by
      rw [not_or, not_le]
      exact ⟨by omega, hpower⟩
    rw [burg, if_neg hlattice]
    exact ⟨rfl, rfl⟩
  · have hpower : segment.energy / segment.size ≤ 0 :=
      div_nonpos_of_nonpos_of_nonneg (not_lt.mp (mt segment.energy_pos_iff.mp hsilent)) hcount.le
    obtain ⟨remaining, rfl⟩ := Nat.exists_eq_add_of_le' horder
    rw [(Lattice.tracks_start segment _).run_succ_of_exhausted remaining (exhausted_of_silent
      (fun index => not_not.mp (not_exists.mp hsilent index)) _ _), burg, if_pos (.inr hpower)]
    exact ⟨rfl, (Lattice.polynomial_start segment 0 (remaining + 1)).symm⟩

/-- On at least two samples the method of Burg gives the polynomial of the direct form, which
starts from the polynomial one and has no other end.  It reaches the stage at which the
direct form stops, and the lattice in place gives the same predictor. -/
theorem ofBurg_is_directForm (segment : Signal ℝ) (order : Nat) (hsegment : 2 ≤ segment.size)
    (horder : 1 ≤ order) :
    ∃ predictor, ofBurg segment order = .ok predictor ∧
      (order + 1 ≤ maxLength → analyze segment order .burg = .ok predictor) ∧
      predictor.polynomial.size = order + 1 ∧ predictor = burgInPlace segment order ∧
      ∀ reached last,
        DirectForm segment order 0 (fun index => if index = 0 then 1 else 0) reached last ↔
          reached = predictor.orderReached ∧ last = predictor.polynomial.sample := by
  have hok : ofBurg segment order = .ok (burg segment order) := by
    rw [ofBurg, require_bind_of (decide_eq_true horder)]
    rfl
  refine ⟨burg segment order, hok, fun hstored => (analyze_of_stored segment _ hstored).trans hok,
    size_burg _ _, (burgInPlace_eq_burg _ _).symm, fun reached last => ?_⟩
  obtain ⟨power, hreached, hpolynomial⟩ := burg_eq_run hsegment horder
  have htracks := Lattice.tracks_start segment power
  obtain ⟨hend, hle⟩ := htracks.run order
  rw [← Lattice.coefficient_start segment power, hreached, hpolynomial,
    hend.sample_polynomial (hle.trans_eq (Nat.zero_add order))]
  exact htracks.directForm_iff order reached last

/-- The order may exceed the length of the segment. -/
theorem ofBurg_is_directForm_of_two_samples :
    ∃ predictor : Predictor ℝ, ofBurg #[1, 2] 3 = .ok predictor ∧
      predictor = burgInPlace #[1, 2] 3 ∧
      DirectForm #[1, 2] 3 0 (fun index => if index = 0 then 1 else 0)
        predictor.orderReached predictor.polynomial.sample := by
  obtain ⟨predictor, hpredictor, _, _, hinPlace, hdirect⟩ :=
    ofBurg_is_directForm #[1, 2] 3 (by decide) (by decide)
  exact ⟨predictor, hpredictor, hinPlace, (hdirect _ _).mpr ⟨rfl, rfl⟩⟩

end Glottis.LinearPrediction
