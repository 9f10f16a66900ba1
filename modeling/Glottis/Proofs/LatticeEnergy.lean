import Mathlib
import Glottis.Proofs.BurgDirectForm
import Glottis.Proofs.CheckedLattice

/-!
# The energy of the lattice

The coefficient of a stage is twice the product of the errors over their energy, so it is at
most one in magnitude: the energy that the stage leaves over the samples it covers is the old
one times one less the squared coefficient, and energies are not negative.  The next stage
covers one sample less at either end, which takes energy away and adds none.  The denominators
therefore do not grow, and neither does the power.
-/

namespace Glottis.LinearPrediction

namespace Lattice

variable (lattice : Lattice ℝ)

/-! ## One stage -/

theorem squares_eq_sum :
    lattice.correlations.2 = ∑ index ∈ Finset.range lattice.forward.size,
      (lattice.forward.sample index ^ 2 + lattice.backward.sample index ^ 2) := by
  simp only [correlations_eq_sum, sq]

/-- The energy of both errors after a reflection, over the samples that a stage covers. -/
theorem sum_reflected_squares (reflection : ℝ) :
    ∑ index ∈ Finset.range lattice.forward.size,
        ((lattice.forward.sample index - reflection * lattice.backward.sample index) ^ 2 +
          (lattice.backward.sample index - reflection * lattice.forward.sample index) ^ 2) =
      (1 + reflection ^ 2) * lattice.correlations.2 -
        4 * reflection * lattice.correlations.1 := by
  rw [correlations_eq_sum, Finset.mul_sum, Finset.mul_sum, ← Finset.sum_sub_distrib]
  apply Finset.sum_congr rfl
  intro index _
  ring

variable {lattice}

theorem reflection_mul_squares (hsquares : 0 < lattice.correlations.2) :
    lattice.reflection * lattice.correlations.2 = 2 * lattice.correlations.1 := by
  rw [reflection, div_mul_cancel₀ _ hsquares.ne']
  norm_num

/-- The coefficient of the stage leaves the energy times one less its square. -/
theorem sum_squares_reflection (hsquares : 0 < lattice.correlations.2) :
    ∑ index ∈ Finset.range lattice.forward.size,
        ((lattice.forward.sample index - lattice.reflection * lattice.backward.sample index) ^ 2 +
          (lattice.backward.sample index -
            lattice.reflection * lattice.forward.sample index) ^ 2) =
      (1 - lattice.reflection ^ 2) * lattice.correlations.2 := by
  rw [sum_reflected_squares]
  linear_combination 2 * lattice.reflection * reflection_mul_squares hsquares

theorem sq_reflection_le_one (hsquares : 0 < lattice.correlations.2) :
    lattice.reflection ^ 2 ≤ 1 := by
  have hleft : 0 ≤ (1 - lattice.reflection ^ 2) * lattice.correlations.2 := by
    rw [← sum_squares_reflection hsquares]
    exact Finset.sum_nonneg fun _ _ => add_nonneg (sq_nonneg _) (sq_nonneg _)
  exact sub_nonneg.mp (nonneg_of_mul_nonneg_left hleft hsquares)

theorem size_pos_of_squares_pos (hsquares : 0 < lattice.correlations.2) :
    0 < lattice.forward.size := by
  by_contra hempty
  rw [squares_eq_sum, Nat.eq_zero_of_not_pos hempty] at hsquares
  exact lt_irrefl 0 hsquares

/-- The denominator of the next stage, by the errors of this one. -/
theorem squares_advance_eq_sum (reflection : ℝ) :
    (lattice.advance reflection).correlations.2 =
      ∑ index ∈ Finset.range (lattice.forward.size - 1),
          (lattice.forward.sample index - reflection * lattice.backward.sample index) ^ 2 +
        ∑ index ∈ Finset.range (lattice.forward.size - 1),
          (lattice.backward.sample (index + 1) -
            reflection * lattice.forward.sample (index + 1)) ^ 2 := by
  have hsize : (lattice.advance reflection).forward.size = lattice.forward.size - 1 :=
    Signal.size_tabulate _ _
  rw [squares_eq_sum, hsize, ← Finset.sum_add_distrib]
  apply Finset.sum_congr rfl
  intro index hindex
  rw [Finset.mem_range] at hindex
  rw [advance, Signal.sample_tabulate, Signal.sample_tabulate, if_pos hindex, if_pos hindex]

/-- The next stage covers what is left, without the forward error of the last sample and the
backward error of the first. -/
theorem squares_advance {covered : Nat} (hcovered : lattice.forward.size = covered + 1)
    (hsquares : 0 < lattice.correlations.2) :
    (lattice.advance lattice.reflection).correlations.2 =
      (1 - lattice.reflection ^ 2) * lattice.correlations.2 -
        ((lattice.forward.sample covered -
            lattice.reflection * lattice.backward.sample covered) ^ 2 +
          (lattice.backward.sample 0 - lattice.reflection * lattice.forward.sample 0) ^ 2) := by
  rw [← sum_squares_reflection hsquares, squares_advance_eq_sum, hcovered, Nat.add_sub_cancel,
    Finset.sum_add_distrib, Finset.sum_range_succ, Finset.sum_range_succ' _ covered]
  ring

/-- A stage leaves the denominator of the next one at most one less the squared coefficient
times its own. -/
theorem squares_advance_le (hsquares : 0 < lattice.correlations.2) :
    (lattice.advance lattice.reflection).correlations.2 ≤
      (1 - lattice.reflection ^ 2) * lattice.correlations.2 := by
  obtain ⟨covered, hcovered⟩ : ∃ covered, lattice.forward.size = covered + 1 :=
    Nat.exists_eq_add_of_le' (size_pos_of_squares_pos hsquares)
  rw [squares_advance hcovered hsquares]
  exact sub_le_self _ (add_nonneg (sq_nonneg _) (sq_nonneg _))

theorem squares_advance_le_squares (hsquares : 0 < lattice.correlations.2) :
    (lattice.advance lattice.reflection).correlations.2 ≤ lattice.correlations.2 :=
  (squares_advance_le hsquares).trans
    (mul_le_of_le_one_left hsquares.le (sub_le_self 1 (sq_nonneg _)))

/-! ## A whole run -/

theorem run_of_exhausted {remaining : Nat} (hexhausted : ¬0 < lattice.correlations.2) :
    run (remaining + 1) lattice = { lattice with power := 0 } :=
  if_pos (not_lt.mp hexhausted)

theorem run_of_squares_pos {remaining : Nat} (hsquares : 0 < lattice.correlations.2) :
    run (remaining + 1) lattice = run remaining (lattice.advance lattice.reflection) :=
  if_neg (not_le.mpr hsquares)

theorem log_of_exhausted {remaining : Nat} (hexhausted : ¬0 < lattice.correlations.2) :
    log (remaining + 1) lattice = ⟨[lattice.correlations.2], []⟩ :=
  if_pos (not_lt.mp hexhausted)

theorem log_of_squares_pos {remaining : Nat} (hsquares : 0 < lattice.correlations.2) :
    log (remaining + 1) lattice =
      (log remaining (lattice.advance lattice.reflection)).after lattice.correlations.2
        lattice.reflection :=
  if_neg (not_le.mpr hsquares)

/-- A run is complete, or its next stage finds no energy, or it goes on behind that stage. -/
theorem stages_induction {motive : Nat → Lattice ℝ → Prop}
    (complete : ∀ lattice, motive 0 lattice)
    (exhausted : ∀ remaining lattice, ¬0 < lattice.correlations.2 →
      motive (remaining + 1) lattice)
    (stage : ∀ remaining lattice, 0 < lattice.correlations.2 →
      motive remaining (lattice.advance lattice.reflection) → motive (remaining + 1) lattice)
    (remaining : Nat) (lattice : Lattice ℝ) : motive remaining lattice := by
  induction remaining generalizing lattice with
  | zero => exact complete lattice
  | succ remaining ih =>
      by_cases hsquares : 0 < lattice.correlations.2
      · exact stage remaining lattice hsquares (ih _)
      · exact exhausted remaining lattice hsquares

/-- A stage takes the squared coefficient's share of the power. -/
theorem power_advance_mem (hsquares : 0 < lattice.correlations.2) (hpower : 0 ≤ lattice.power) :
    0 ≤ (lattice.advance lattice.reflection).power ∧
      (lattice.advance lattice.reflection).power ≤ lattice.power := by
  have hleft : (lattice.advance lattice.reflection).power =
      lattice.power * (1 - lattice.reflection ^ 2) := by
    rw [advance, sq]
  rw [hleft]
  exact ⟨mul_nonneg hpower (sub_nonneg.mpr (sq_reflection_le_one hsquares)),
    mul_le_of_le_one_right hpower (sub_le_self 1 (sq_nonneg _))⟩

/-- The power never grows and never becomes negative. -/
theorem power_run_mem (remaining : Nat) (hpower : 0 ≤ lattice.power) :
    0 ≤ (run remaining lattice).power ∧ (run remaining lattice).power ≤ lattice.power := by
  induction remaining, lattice using stages_induction with
  | complete lattice => exact ⟨hpower, le_rfl⟩
  | exhausted remaining lattice hexhausted =>
      rw [run_of_exhausted hexhausted]
      exact ⟨le_rfl, hpower⟩
  | stage remaining lattice hsquares ih =>
      obtain ⟨hnonneg, hle⟩ := power_advance_mem hsquares hpower
      rw [run_of_squares_pos hsquares]
      exact ⟨(ih hnonneg).1, (ih hnonneg).2.trans hle⟩

/-- Every stage takes a sample from the errors, so no stage is completed without one. -/
theorem size_add_reached_run (remaining : Nat) :
    (run remaining lattice).forward.size + (run remaining lattice).reached =
      lattice.forward.size + lattice.reached := by
  induction remaining, lattice using stages_induction with
  | complete lattice => rfl
  | exhausted remaining lattice hexhausted => rw [run_of_exhausted hexhausted]
  | stage remaining lattice hsquares ih =>
      have hsize := size_pos_of_squares_pos hsquares
      have hnext : (lattice.advance lattice.reflection).forward.size =
          lattice.forward.size - 1 := Signal.size_tabulate _ _
      have hreached : (lattice.advance lattice.reflection).reached = lattice.reached + 1 := rfl
      rw [run_of_squares_pos hsquares, ih]
      omega

/-- A coefficient is noted for every completed stage. -/
theorem length_coefficients_log (remaining : Nat) :
    lattice.reached + (lattice.log remaining).coefficients.length =
      (run remaining lattice).reached := by
  induction remaining, lattice using stages_induction with
  | complete lattice => rfl
  | exhausted remaining lattice hexhausted =>
      rw [run_of_exhausted hexhausted, log_of_exhausted hexhausted]
      rfl
  | stage remaining lattice hsquares ih =>
      rw [run_of_squares_pos hsquares, log_of_squares_pos hsquares, ← ih]
      exact (Nat.succ_add_eq_add_succ _ _).symm

theorem abs_le_one_of_mem_coefficients {remaining : Nat} {coefficient : ℝ}
    (hcoefficient : coefficient ∈ (lattice.log remaining).coefficients) : |coefficient| ≤ 1 := by
  induction remaining, lattice using stages_induction with
  | complete lattice => exact absurd hcoefficient List.not_mem_nil
  | exhausted remaining lattice hexhausted =>
      rw [log_of_exhausted hexhausted] at hcoefficient
      exact absurd hcoefficient List.not_mem_nil
  | stage remaining lattice hsquares ih =>
      rw [log_of_squares_pos hsquares] at hcoefficient
      cases List.mem_cons.mp hcoefficient with
      | inl hfirst =>
          rw [hfirst, ← sq_le_one_iff_abs_le_one]
          exact sq_reflection_le_one hsquares
      | inr hlater => exact ih hlater

/-- No later denominator exceeds that of the next stage. -/
theorem le_squares_of_mem_denominators {remaining : Nat} {denominator : ℝ}
    (hdenominator : denominator ∈ (lattice.log remaining).denominators) :
    denominator ≤ lattice.correlations.2 := by
  induction remaining, lattice using stages_induction with
  | complete lattice => exact absurd hdenominator List.not_mem_nil
  | exhausted remaining lattice hexhausted =>
      rw [log_of_exhausted hexhausted] at hdenominator
      exact (List.mem_singleton.mp hdenominator).le
  | stage remaining lattice hsquares ih =>
      rw [log_of_squares_pos hsquares] at hdenominator
      cases List.mem_cons.mp hdenominator with
      | inl hfirst => exact hfirst.le
      | inr hlater => exact (ih hlater).trans (squares_advance_le_squares hsquares)

theorem pairwise_denominators_log (remaining : Nat) :
    (lattice.log remaining).denominators.Pairwise (· ≥ ·) := by
  induction remaining, lattice using stages_induction with
  | complete lattice => exact List.Pairwise.nil
  | exhausted remaining lattice hexhausted =>
      rw [log_of_exhausted hexhausted]
      exact List.pairwise_singleton _ _
  | stage remaining lattice hsquares ih =>
      rw [log_of_squares_pos hsquares]
      exact List.pairwise_cons.mpr ⟨fun denominator hlater =>
        (le_squares_of_mem_denominators hlater).trans (squares_advance_le_squares hsquares), ih⟩

theorem squares_start_pos {segment : Signal ℝ} (power : ℝ) (hsegment : 2 ≤ segment.size)
    (haudible : ∃ index, segment.sample index ≠ 0) :
    0 < (start segment power).correlations.2 := by
  obtain ⟨index, hindex⟩ := haudible
  have hinside : index < segment.size := by
    by_contra houtside
    exact hindex (Signal.sample_of_size_le segment (not_lt.mp houtside))
  have hsize : (start segment power).forward.size = segment.size - 1 := Signal.size_tabulate _ _
  rw [squares_eq_sum, hsize]
  apply Finset.sum_pos'
  · exact fun _ _ => add_nonneg (sq_nonneg _) (sq_nonneg _)
  -- the last sample is a backward error only
  · cases Nat.lt_or_ge index (segment.size - 1) with
    | inl hfirst =>
        refine ⟨index, Finset.mem_range.mpr hfirst, add_pos_of_pos_of_nonneg ?_ (sq_nonneg _)⟩
        rw [start, Signal.sample_tabulate, if_pos hfirst]
        exact sq_pos_of_ne_zero hindex
    | inr hlast =>
        have hbefore : index - 1 < segment.size - 1 := by omega
        refine ⟨index - 1, Finset.mem_range.mpr hbefore,
          add_pos_of_nonneg_of_pos (sq_nonneg _) ?_⟩
        rw [start, Signal.sample_tabulate, if_pos hbefore, Nat.sub_add_cancel (by omega)]
        exact sq_pos_of_ne_zero hindex

end Lattice

/-! ## The predictor of the method of Burg -/

variable {segment : Signal ℝ} {order : Nat}

theorem ofBurg_eq_ok (segment : Signal ℝ) (horder : 1 ≤ order) :
    ofBurg segment order = .ok (burg segment order) := by
  rw [ofBurg, require_bind_of (decide_eq_true horder)]
  rfl

/-- A segment without power has the flat predictor and no stages; any other has those of its
lattice. -/
theorem burg_eq_flat_or_run (hsegment : 2 ≤ segment.size) (order : Nat) :
    (burg segment order = .flat order ∧ burgLog segment order = ⟨[], []⟩) ∨
      ∃ power, 0 < power ∧ power * segment.size = segment.energy ∧
        (burg segment order).gain =
          (Lattice.run order (.start segment power)).power * segment.size ∧
        (burg segment order).orderReached =
          (Lattice.run order (.start segment power)).reached ∧
        burgLog segment order = (Lattice.start segment power).log order := by
  have hcount : (0 : ℝ) < segment.size := Nat.cast_pos.mpr (by omega)
  by_cases hpower : segment.energy / segment.size ≤ 0
  · left
    rw [burg, burgLog]
    exact ⟨if_pos (.inr hpower), if_pos (.inr hpower)⟩
  · right
    have hlattice : ¬(segment.size < 2 ∨ segment.energy / segment.size ≤ 0) :=
      not_or.mpr ⟨not_lt.mpr hsegment, hpower⟩
    rw [burg, burgLog, if_neg hlattice, if_neg hlattice]
    exact ⟨_, not_le.mp hpower, div_mul_cancel₀ _ hcount.ne', rfl, rfl, rfl⟩

/-- The gain is part of the energy of the segment. -/
theorem gain_burg_mem (hsegment : 2 ≤ segment.size) (order : Nat) :
    0 ≤ (burg segment order).gain ∧ (burg segment order).gain ≤ segment.energy := by
  cases burg_eq_flat_or_run hsegment order with
  | inl hflat =>
      rw [hflat.1, Signal.energy_eq_sum]
      exact ⟨le_rfl, Finset.sum_nonneg fun _ _ => sq_nonneg _⟩
  | inr hrun =>
      obtain ⟨power, hpower, henergy, hgain, -, -⟩ := hrun
      obtain ⟨hnonneg, hle⟩ := (Lattice.start segment power).power_run_mem order hpower.le
      rw [hgain, ← henergy]
      exact ⟨mul_nonneg hnonneg (Nat.cast_nonneg _),
        mul_le_mul_of_nonneg_right hle (Nat.cast_nonneg _)⟩

/-- The stages reach neither beyond the order nor to the length of the segment. -/
theorem orderReached_burg_le (hsegment : 2 ≤ segment.size) (horder : 1 ≤ order) :
    (burg segment order).orderReached ≤ min order (segment.size - 1) := by
  obtain ⟨power, hreached, -⟩ := burg_eq_run hsegment horder
  have hstages := ((Lattice.tracks_start segment power).run order).2
  have hsamples := (Lattice.start segment power).size_add_reached_run order
  have hsize : (Lattice.start segment power).forward.size = segment.size - 1 :=
    Signal.size_tabulate _ _
  have hstart : (Lattice.start segment power).reached = 0 := rfl
  rw [hreached]
  omega

theorem sample_burg_of_reached_lt (hsegment : 2 ≤ segment.size) (horder : 1 ≤ order) {index : Nat}
    (hindex : (burg segment order).orderReached < index) :
    (burg segment order).polynomial.sample index = 0 := by
  obtain ⟨power, hreached, hpolynomial⟩ := burg_eq_run hsegment horder
  obtain ⟨htracks, hle⟩ := (Lattice.tracks_start segment power).run order
  rw [hpolynomial, htracks.sample_polynomial (hle.trans_eq (Nat.zero_add order))]
  exact htracks.coefficient_of_lt (hreached ▸ hindex)

/-- The first stage of a segment that is not silent is completed. -/
theorem one_le_orderReached_burg (hsegment : 2 ≤ segment.size) (horder : 1 ≤ order)
    (haudible : ∃ index, segment.sample index ≠ 0) : 1 ≤ (burg segment order).orderReached := by
  obtain ⟨power, hreached, -⟩ := burg_eq_run hsegment horder
  obtain ⟨remaining, rfl⟩ := Nat.exists_eq_add_of_le' horder
  rw [hreached, Lattice.run_of_squares_pos (Lattice.squares_start_pos power hsegment haudible),
    ← Lattice.length_coefficients_log]
  exact Nat.le_add_right 1 _

theorem length_coefficients_burgLog (hsegment : 2 ≤ segment.size) (order : Nat) :
    (burgLog segment order).coefficients.length = (burg segment order).orderReached := by
  cases burg_eq_flat_or_run hsegment order with
  | inl hflat =>
      rw [hflat.1, hflat.2]
      rfl
  | inr hrun =>
      obtain ⟨power, -, -, -, hreached, hlog⟩ := hrun
      rw [hlog, hreached, ← Lattice.length_coefficients_log]
      exact (Nat.zero_add _).symm

theorem abs_le_one_of_mem_burgLog (hsegment : 2 ≤ segment.size) {coefficient : ℝ}
    (hcoefficient : coefficient ∈ (burgLog segment order).coefficients) : |coefficient| ≤ 1 := by
  cases burg_eq_flat_or_run hsegment order with
  | inl hflat =>
      rw [hflat.2] at hcoefficient
      exact absurd hcoefficient List.not_mem_nil
  | inr hrun =>
      obtain ⟨power, -, -, -, -, hlog⟩ := hrun
      exact Lattice.abs_le_one_of_mem_coefficients (hlog ▸ hcoefficient)

theorem pairwise_denominators_burgLog (hsegment : 2 ≤ segment.size) (order : Nat) :
    (burgLog segment order).denominators.Pairwise (· ≥ ·) := by
  cases burg_eq_flat_or_run hsegment order with
  | inl hflat =>
      rw [hflat.2]
      exact List.Pairwise.nil
  | inr hrun =>
      obtain ⟨power, -, -, -, -, hlog⟩ := hrun
      rw [hlog]
      exact Lattice.pairwise_denominators_log order

/-- The method of Burg succeeds on every segment of at least two samples, for every order.  No
step leaves a buffer or divides by zero.  The coefficient of no stage exceeds one, the
denominators do not grow from stage to stage, and the gain is part of the energy of the
segment.  The polynomial starts with one and ends with the last stage, which needs a sample
of its own; there is a first one unless the segment is silent. -/
theorem ofBurg_is_bounded (segment : Signal ℝ) (order : Nat) (hsegment : 2 ≤ segment.size)
    (horder : 1 ≤ order) :
    ∃ predictor log, ofBurg segment order = .ok predictor ∧
      (order + 1 ≤ maxLength → analyze segment order .burg = .ok predictor) ∧
      burg? segment order = some (predictor, log) ∧
      predictor.polynomial.size = order + 1 ∧ predictor.polynomial.sample 0 = 1 ∧
      log.coefficients.length = predictor.orderReached ∧
      (∀ coefficient ∈ log.coefficients, |coefficient| ≤ 1) ∧
      log.denominators.Pairwise (· ≥ ·) ∧
      0 ≤ predictor.gain ∧ predictor.gain ≤ segment.energy ∧
      predictor.orderReached ≤ min order (segment.size - 1) ∧
      (∀ index, predictor.orderReached < index → predictor.polynomial.sample index = 0) ∧
      ((∃ index, segment.sample index ≠ 0) → 1 ≤ predictor.orderReached) := by
  have hok := ofBurg_eq_ok segment horder
  obtain ⟨hnonneg, hle⟩ := gain_burg_mem hsegment order
  exact ⟨burg segment order, burgLog segment order, hok,
    fun hstored => (analyze_of_stored segment _ hstored).trans hok, burg?_eq_some segment order,
    size_burg _ _, leading_burg _ _, length_coefficients_burgLog hsegment order,
    fun _ hcoefficient => abs_le_one_of_mem_burgLog hsegment hcoefficient,
    pairwise_denominators_burgLog hsegment order, hnonneg, hle,
    orderReached_burg_le hsegment horder,
    fun _ hindex => sample_burg_of_reached_lt hsegment horder hindex,
    one_le_orderReached_burg hsegment horder⟩

/-- The order may exceed the length of the segment. -/
theorem ofBurg_is_bounded_of_two_samples :
    ∃ (predictor : Predictor ℝ) (log : StageLog ℝ), ofBurg #[1, 2] 3 = .ok predictor ∧
      burg? #[1, 2] 3 = some (predictor, log) ∧ log.coefficients.length = 1 ∧
      predictor.orderReached = 1 ∧ predictor.polynomial.sample 2 = 0 := by
  obtain ⟨predictor, log, hok, -, hchecked, -, -, hlength, -, -, -, -, hreached, hbeyond,
    hfirst⟩ := ofBurg_is_bounded #[1, 2] 3 (by decide) (by decide)
  have hone : predictor.orderReached = 1 :=
    le_antisymm hreached (hfirst ⟨0, by norm_num [Signal.sample]⟩)
  exact ⟨predictor, log, hok, hchecked, hlength.trans hone, hone, hbeyond 2 (by omega)⟩

end Glottis.LinearPrediction
