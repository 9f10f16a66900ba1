import Mathlib
import Glottis.Proofs.PredictorOptimality
import Glottis.Proofs.RecursiveFilters
import Glottis.Proofs.Scaling

/-!
# Minimum phase

The whitening filter of the autocorrelation method has all its zeros inside the unit
circle.  To divide a zero out of the polynomial leaves a filter whose response to the
segment, delayed by one sample, is a combination of delayed segments.  What the solution
of the normal equations leaves is orthogonal to those, so the energy of that response is
the gain plus the energy times the squared magnitude of the zero, and the gain is
positive.

The synthesis filter runs the whitening filter backwards.  Zero by zero it multiplies a
bound on its input by a constant, so it answers a bounded input by a bounded output.
-/

namespace Glottis.LinearPrediction

/-! ## Division by a zero -/

/-- The value of a polynomial whose first coefficient belongs to the highest power. -/
noncomputable def value (coefficient : Nat → ℂ) (order : Nat) (point : ℂ) : ℂ :=
  ∑ index ∈ Finset.range (order + 1), coefficient index * point ^ (order - index)

/-- The coefficients that are left when a polynomial is divided by `z - root`, and the
remainder behind them. -/
noncomputable def quotient (coefficient : Nat → ℂ) (root : ℂ) : Nat → ℂ
  | 0 => coefficient 0
  | index + 1 => coefficient (index + 1) + root * quotient coefficient root index

/-- An input weighted with delayed coefficients, where the input is silent before its
start. -/
noncomputable def response (coefficient : Nat → ℂ) (order : Nat) (input : Nat → ℂ)
    (index : Nat) : ℂ :=
  ∑ delay ∈ Finset.range (order + 1),
    coefficient delay * if delay ≤ index then input (index - delay) else 0

theorem value_succ (coefficient : Nat → ℂ) (order : Nat) (point : ℂ) :
    value coefficient (order + 1) point =
      point * value coefficient order point + coefficient (order + 1) := by
  rw [value, Finset.sum_range_succ, Nat.sub_self, pow_zero, mul_one, value, Finset.mul_sum]
  congr 1
  apply Finset.sum_congr rfl
  intro index hindex
  rw [Finset.mem_range] at hindex
  rw [Nat.sub_add_comm (by omega : index ≤ order), pow_succ]
  ring

theorem value_eq_mul_add (coefficient : Nat → ℂ) (order : Nat) (root point : ℂ) :
    value coefficient (order + 1) point =
      (point - root) * value (quotient coefficient root) order point +
        quotient coefficient root (order + 1) := by
  induction order with
  | zero =>
      rw [value_succ, value, value, zero_add, Finset.sum_range_one, Finset.sum_range_one,
        quotient.eq_2, quotient]
      ring
  | succ order ih =>
      rw [value_succ, ih, value_succ (quotient coefficient root), quotient.eq_2 _ _ (order + 1)]
      ring

/-- Nothing remains where the polynomial vanishes. -/
theorem quotient_eq_zero {coefficient : Nat → ℂ} {order : Nat} {root : ℂ}
    (hroot : value coefficient (order + 1) root = 0) :
    quotient coefficient root (order + 1) = 0 := by
  rwa [value_eq_mul_add coefficient order root root, sub_self, zero_mul, zero_add] at hroot

theorem response_zero (coefficient : Nat → ℂ) (order : Nat) (input : Nat → ℂ) :
    response coefficient order input 0 = coefficient 0 * input 0 := by
  rw [response, Finset.sum_eq_single_of_mem 0 (by simp), if_pos le_rfl]
  intro delay _ hne
  rw [if_neg (by omega), mul_zero]

/-- The response of the whole polynomial is that of the quotient, less its delayed self
times the root. -/
theorem response_succ {coefficient : Nat → ℂ} {order : Nat} {root : ℂ}
    (hroot : value coefficient (order + 1) root = 0) (input : Nat → ℂ) (index : Nat) :
    response coefficient (order + 1) input (index + 1) =
      response (quotient coefficient root) order input (index + 1) -
        root * response (quotient coefficient root) order input index := by
  have hpast : ∀ delay, (if delay + 1 ≤ index + 1 then input (index + 1 - (delay + 1)) else 0) =
      if delay ≤ index then input (index - delay) else 0 := by
    intro delay
    rw [Nat.add_sub_add_right]
    exact if_congr (Nat.add_le_add_iff_right) rfl rfl
  have hcoefficient : ∀ delay, coefficient (delay + 1) =
      quotient coefficient root (delay + 1) - root * quotient coefficient root delay := by
    intro delay
    rw [quotient, add_sub_cancel_right]
  have hlonger : response (quotient coefficient root) order input (index + 1) =
      response (quotient coefficient root) (order + 1) input (index + 1) := by
    rw [response, response, Finset.sum_range_succ _ (order + 1), quotient_eq_zero hroot, zero_mul,
      add_zero]
  rw [hlonger, response, response, response, Finset.sum_range_succ',
    Finset.sum_range_succ' _ (order + 1)]
  simp only [hpast, hcoefficient, sub_mul, Finset.sum_sub_distrib, Finset.mul_sum, mul_assoc,
    quotient.eq_1]
  ring

/-! ## The place of the zeros -/

/-- What a polynomial with real coefficients leaves of a segment. -/
theorem response_ofReal (segment : Signal ℝ) (coefficient : Nat → ℝ) (order index : Nat) :
    response (fun delay => (coefficient delay : ℂ)) order (fun time => (segment.sample time : ℂ))
      index = (filtered segment coefficient order index : ℂ) := by
  rw [response, filtered, Complex.ofReal_sum]
  apply Finset.sum_congr rfl
  intro delay _
  rw [Complex.ofReal_mul, delayed, apply_ite Complex.ofReal, Complex.ofReal_zero]

section

variable {segment : Signal ℝ} {coefficient : Nat → ℝ} {order : Nat} {gain : ℝ}

/-- What a solution leaves is orthogonal to the segment at the delays up to its order. -/
theorem SolvesNormalEquations.sum_filtered_mul_delayed
    (hsolves : SolvesNormalEquations (lagProduct segment) coefficient order gain)
    {delay : Nat} (hpositive : 1 ≤ delay) (hdelay : delay ≤ order) :
    ∑ index ∈ Finset.range (segment.size + order),
      filtered segment coefficient order index * delayed segment delay index = 0 := by
  have hsingle : ∀ index,
      filtered segment (fun other => if other = delay then 1 else 0) order index =
        delayed segment delay index := by
    intro index
    rw [filtered, Finset.sum_eq_single_of_mem delay (Finset.mem_range.mpr (by omega)), if_pos rfl,
      one_mul]
    intro other _ hne
    rw [if_neg hne, zero_mul]
  calc ∑ index ∈ Finset.range (segment.size + order),
        filtered segment coefficient order index * delayed segment delay index
      = ∑ index ∈ Finset.range (segment.size + order),
          filtered segment (fun other => if other = delay then 1 else 0) order index *
            filtered segment coefficient order index := by
        simp only [hsingle, mul_comm]
    _ = 0 := hsolves.sum_filtered_mul_eq_zero (if_neg (by omega))

/-- It is orthogonal to the delayed response of every filter of lower order. -/
theorem SolvesNormalEquations.sum_filtered_mul_response
    (hsolves : SolvesNormalEquations (lagProduct segment) coefficient (order + 1) gain)
    (other : Nat → ℂ) :
    ∑ index ∈ Finset.range (segment.size + order),
      (filtered segment coefficient (order + 1) (index + 1) : ℂ) *
        response other order (fun time => (segment.sample time : ℂ)) index = 0 := by
  have hdelayed : ∀ delay index,
      (if delay ≤ index then (segment.sample (index - delay) : ℂ) else 0) =
        (delayed segment (delay + 1) (index + 1) : ℂ) := by
    intro delay index
    rw [delayed, apply_ite Complex.ofReal, Complex.ofReal_zero, Nat.add_sub_add_right]
    exact if_congr Nat.add_le_add_iff_right.symm rfl rfl
  have horthogonal : ∀ delay ∈ Finset.range (order + 1),
      ∑ index ∈ Finset.range (segment.size + order),
        filtered segment coefficient (order + 1) (index + 1) *
          delayed segment (delay + 1) (index + 1) = 0 := by
    intro delay hdelay
    rw [Finset.mem_range] at hdelay
    have hall := hsolves.sum_filtered_mul_delayed (Nat.le_add_left 1 delay) (by omega)
    rw [← Nat.add_assoc, Finset.sum_range_succ'] at hall
    rwa [delayed, if_neg (Nat.not_succ_le_zero delay), mul_zero, add_zero] at hall
  simp only [response, hdelayed, Finset.mul_sum]
  rw [Finset.sum_comm]
  apply Finset.sum_eq_zero
  intro delay hdelay
  calc ∑ index ∈ Finset.range (segment.size + order),
        (filtered segment coefficient (order + 1) (index + 1) : ℂ) *
          (other delay * (delayed segment (delay + 1) (index + 1) : ℂ))
      = other delay * ((∑ index ∈ Finset.range (segment.size + order),
          filtered segment coefficient (order + 1) (index + 1) *
            delayed segment (delay + 1) (index + 1) : ℝ) : ℂ) := by
        push_cast
        rw [Finset.mul_sum]
        apply Finset.sum_congr rfl
        intro index _
        ring
    _ = 0 := by rw [horthogonal delay hdelay, Complex.ofReal_zero, mul_zero]

theorem response_eq_zero_of_le (other : Nat → ℂ) {index : Nat}
    (hindex : segment.size + order ≤ index) :
    response other order (fun time => (segment.sample time : ℂ)) index = 0 := by
  apply Finset.sum_eq_zero
  intro delay hdelay
  rw [Finset.mem_range] at hdelay
  dsimp only
  rw [if_pos (by omega), Signal.sample_of_size_le segment (by omega), Complex.ofReal_zero,
    mul_zero]

/-- The energy of the response of the quotient is the gain and that energy again, times the
squared magnitude of the zero. -/
theorem SolvesNormalEquations.exists_energy_eq
    (hsolves : SolvesNormalEquations (lagProduct segment) coefficient (order + 1) gain)
    {root : ℂ} (hroot : value (fun index => (coefficient index : ℂ)) (order + 1) root = 0) :
    ∃ energy, 0 ≤ energy ∧ energy = gain + Complex.normSq root * energy := by
  generalize hleft : response (quotient (fun index => (coefficient index : ℂ)) root) order
    (fun time => (segment.sample time : ℂ)) = left
  have hstart : left 0 = (filtered segment coefficient (order + 1) 0 : ℂ) := by
    rw [← response_ofReal, ← hleft, response_zero, response_zero, quotient]
  have hnext : ∀ index, left (index + 1) =
      (filtered segment coefficient (order + 1) (index + 1) : ℂ) + root * left index := by
    intro index
    rw [← response_ofReal, response_succ hroot, hleft, sub_add_cancel]
  have hend : left (segment.size + order) = 0 := by
    rw [← hleft, response_eq_zero_of_le _ le_rfl]
  have horthogonal := hsolves.sum_filtered_mul_response
    (quotient (fun index => (coefficient index : ℂ)) root)
  rw [hleft] at horthogonal
  have hsquare : ∀ index, Complex.normSq (left (index + 1)) =
      filtered segment coefficient (order + 1) (index + 1) ^ 2 +
        Complex.normSq root * Complex.normSq (left index) +
        2 * (root * ((filtered segment coefficient (order + 1) (index + 1) : ℂ) *
          left index)).re := by
    intro index
    rw [hnext, Complex.normSq_add, Complex.normSq_ofReal, Complex.normSq_mul, map_mul]
    simp only [Complex.mul_re, Complex.ofReal_re, Complex.ofReal_im, Complex.conj_re,
      Complex.conj_im, Complex.mul_im]
    ring
  refine ⟨∑ index ∈ Finset.range (segment.size + order), Complex.normSq (left index),
    Finset.sum_nonneg fun _ _ => Complex.normSq_nonneg _, ?_⟩
  calc ∑ index ∈ Finset.range (segment.size + order), Complex.normSq (left index)
      = ∑ index ∈ Finset.range (segment.size + order + 1), Complex.normSq (left index) := by
        rw [Finset.sum_range_succ, hend, Complex.normSq_zero, add_zero]
    _ = ∑ index ∈ Finset.range (segment.size + order), Complex.normSq (left (index + 1)) +
          filtered segment coefficient (order + 1) 0 ^ 2 := by
        rw [Finset.sum_range_succ', hstart, Complex.normSq_ofReal, sq]
    _ = errorEnergy segment coefficient (order + 1) + Complex.normSq root *
          ∑ index ∈ Finset.range (segment.size + order), Complex.normSq (left index) +
          2 * (root * ∑ index ∈ Finset.range (segment.size + order),
            (filtered segment coefficient (order + 1) (index + 1) : ℂ) * left index).re := by
        rw [errorEnergy, ← Nat.add_assoc, Finset.sum_range_succ' _ (segment.size + order)]
        simp only [hsquare, Finset.sum_add_distrib, Finset.mul_sum, Complex.re_sum]
        ring
    _ = gain + Complex.normSq root *
          ∑ index ∈ Finset.range (segment.size + order), Complex.normSq (left index) := by
        rw [horthogonal, mul_zero, Complex.zero_re, mul_zero, add_zero, hsolves.errorEnergy_eq]

/-- A solution with a positive gain has its zeros inside the unit circle. -/
theorem SolvesNormalEquations.norm_root_lt_one
    (hsolves : SolvesNormalEquations (lagProduct segment) coefficient (order + 1) gain)
    (hgain : 0 < gain) {root : ℂ}
    (hroot : value (fun index => (coefficient index : ℂ)) (order + 1) root = 0) :
    ‖root‖ < 1 := by
  obtain ⟨energy, hnonneg, henergy⟩ := hsolves.exists_energy_eq hroot
  rw [Complex.normSq_eq_norm_sq] at henergy
  by_contra houtside
  have hlarge : 1 ≤ ‖root‖ ^ 2 := one_le_pow₀ (not_lt.mp houtside)
  have hmore : energy ≤ ‖root‖ ^ 2 * energy := le_mul_of_one_le_left hnonneg hlarge
  linarith

end

/-! ## The synthesis filter -/

theorem exists_root {coefficient : Nat → ℂ} (hleading : coefficient 0 = 1) (order : Nat) :
    ∃ root, value coefficient (order + 1) root = 0 := by
  obtain ⟨polynomial, hpolynomial⟩ : ∃ polynomial : Polynomial ℂ, polynomial =
      ∑ index ∈ Finset.range (order + 1 + 1),
        Polynomial.C (coefficient index) * Polynomial.X ^ (order + 1 - index) := ⟨_, rfl⟩
  have hhighest : polynomial.coeff (order + 1) = 1 := by
    rw [hpolynomial, Polynomial.finsetSum_coeff,
      Finset.sum_eq_single_of_mem 0 (by simp), Polynomial.coeff_C_mul_X_pow, Nat.sub_zero,
      if_pos rfl, hleading]
    intro index hindex hne
    rw [Finset.mem_range] at hindex
    rw [Polynomial.coeff_C_mul_X_pow, if_neg (by omega)]
  have hdegree : polynomial.degree ≠ 0 := by
    intro hzero
    rw [Polynomial.eq_C_of_degree_eq_zero hzero, Polynomial.coeff_C_succ] at hhighest
    exact zero_ne_one hhighest
  obtain ⟨root, hroot⟩ := IsAlgClosed.exists_root polynomial hdegree
  refine ⟨root, ?_⟩
  rw [Polynomial.IsRoot, hpolynomial, Polynomial.eval_finsetSum] at hroot
  simpa [value] using hroot

/-- A sequence that follows its past by a factor below one stays bounded. -/
theorem norm_le_of_contraction {sequence : Nat → ℂ} {root : ℂ} {limit : ℝ} {count : Nat}
    (hroot : ‖root‖ < 1) (hstart : 0 < count → ‖sequence 0‖ ≤ limit)
    (hnext : ∀ index, index + 1 < count →
      ‖sequence (index + 1) - root * sequence index‖ ≤ limit) :
    ∀ index < count, ‖sequence index‖ ≤ limit / (1 - ‖root‖) := by
  have hrest : 0 < 1 - ‖root‖ := sub_pos.mpr hroot
  intro index
  induction index with
  | zero =>
      intro hcount
      have hlimit := hstart hcount
      rw [le_div_iff₀ hrest]
      calc ‖sequence 0‖ * (1 - ‖root‖) ≤ ‖sequence 0‖ * 1 :=
            mul_le_mul_of_nonneg_left (sub_le_self 1 (norm_nonneg root)) (norm_nonneg _)
        _ = ‖sequence 0‖ := mul_one _
        _ ≤ limit := hlimit
  | succ index ih =>
      intro hcount
      have hbefore := ih (by omega)
      calc ‖sequence (index + 1)‖
          = ‖(sequence (index + 1) - root * sequence index) + root * sequence index‖ := by
            rw [sub_add_cancel]
        _ ≤ ‖sequence (index + 1) - root * sequence index‖ + ‖root * sequence index‖ :=
            norm_add_le _ _
        _ ≤ limit + ‖root‖ * (limit / (1 - ‖root‖)) := by
            rw [norm_mul]
            exact add_le_add (hnext index hcount)
              (mul_le_mul_of_nonneg_left hbefore (norm_nonneg root))
        _ = limit / (1 - ‖root‖) := by
            field_simp
            ring

/-- Where all zeros are inside the unit circle, a bounded response has a bounded input. -/
theorem exists_bound_of_roots {order : Nat} {coefficient : Nat → ℂ}
    (hroots : ∀ root, value coefficient order root = 0 → ‖root‖ < 1)
    (hleading : coefficient 0 = 1) :
    ∃ bound : ℝ, 0 ≤ bound ∧ ∀ (input : Nat → ℂ) (limit : ℝ) (count : Nat),
      (∀ index < count, ‖response coefficient order input index‖ ≤ limit) →
        ∀ index < count, ‖input index‖ ≤ bound * limit := by
  induction order generalizing coefficient with
  | zero =>
      refine ⟨1, zero_le_one, fun input limit count hresponse index hindex => ?_⟩
      have hsame := hresponse index hindex
      rwa [response, zero_add, Finset.sum_range_one, hleading, one_mul, if_pos (Nat.zero_le _),
        Nat.sub_zero, ← one_mul limit] at hsame
  | succ order ih =>
      obtain ⟨root, hroot⟩ := exists_root hleading order
      have hinside : ∀ other, value (quotient coefficient root) order other = 0 →
          ‖other‖ < 1 := by
        intro other hother
        apply hroots
        rw [value_eq_mul_add coefficient order root, hother, mul_zero, zero_add,
          quotient_eq_zero hroot]
      obtain ⟨bound, hnonneg, hbound⟩ :=
        ih hinside hleading
      refine ⟨bound / (1 - ‖root‖),
        div_nonneg hnonneg (sub_nonneg.mpr (hroots root hroot).le),
        fun input limit count hresponse index hindex => ?_⟩
      have hstart : 0 < count →
          ‖response (quotient coefficient root) order input 0‖ ≤ limit := by
        intro hcount
        rw [response_zero, quotient, ← response_zero coefficient (order + 1)]
        exact hresponse 0 hcount
      have hnext : ∀ time, time + 1 < count →
          ‖response (quotient coefficient root) order input (time + 1) -
            root * response (quotient coefficient root) order input time‖ ≤ limit := by
        intro time htime
        rw [← response_succ hroot]
        exact hresponse (time + 1) htime
      rw [div_mul_eq_mul_div, mul_div_assoc]
      exact hbound input _ count (norm_le_of_contraction (hroots root hroot) hstart hnext)
        index hindex

/-- If all zeros of a polynomial are inside the unit circle, its synthesis filter answers
every excitation within a constant multiple of the peak of the excitation. -/
theorem exists_synthesis_bound {polynomial : Signal ℝ} {order : Nat}
    (hsize : polynomial.size = order + 1) (hleading : polynomial.sample 0 = 1)
    (hroots : ∀ root, value (fun index => (polynomial.sample index : ℂ)) order root = 0 →
      ‖root‖ < 1) :
    ∃ bound : ℝ, ∀ (excitation : Signal ℝ) (index : Nat),
      |(Filter.iir #[1] polynomial excitation).sample index| ≤ bound * excitation.peak := by
  obtain ⟨bound, hnonneg, hbound⟩ := exists_bound_of_roots hroots
    (by rw [hleading, Complex.ofReal_one])
  refine ⟨bound, fun excitation index => ?_⟩
  have hwhitened : ∀ time < excitation.size,
      ‖response (fun delay => (polynomial.sample delay : ℂ)) order
        (fun time => ((Filter.iir #[1] polynomial excitation).sample time : ℂ)) time‖ ≤
        excitation.peak := by
    intro time htime
    have hinside : time < (Filter.iir #[1] polynomial excitation).size := by
      rwa [Filter.size_iir]
    rw [response_ofReal, ← feedForward_eq_filtered hsize, ← Filter.sample_fir _ _ hinside,
      Filter.fir_iir hleading, Complex.norm_real]
    exact Signal.abs_sample_le_peak excitation time
  cases Nat.lt_or_ge index excitation.size with
  | inl hinside =>
      have hindex := hbound _ _ _ hwhitened index hinside
      rwa [Complex.norm_real] at hindex
  | inr houtside =>
      have hpeak := (abs_nonneg _).trans (Signal.abs_sample_le_peak excitation 0)
      rw [Signal.sample_of_size_le _ (by rw [Filter.size_iir]; exact houtside), abs_zero]
      exact mul_nonneg hnonneg hpeak

/-! ## The predictor of the autocorrelation method -/

/-- A silent segment has the polynomial one. -/
theorem levinson_of_silent {segment : Signal ℝ} (order : Nat)
    (hsilent : ¬ ∃ index, segment.sample index ≠ 0) :
    levinson (.tabulate (order + 1) (autocorrelation segment)) order = .flat order := by
  have hpower : lagProduct segment 0 = 0 := by
    have hnone := mt segment.energy_pos_iff.mp hsilent
    have hnonneg : 0 ≤ segment.energy := by
      rw [Signal.energy_eq_sum]
      exact Finset.sum_nonneg fun _ _ => sq_nonneg _
    rw [← energy_eq_lagProduct]
    exact le_antisymm (not_lt.mp hnone) hnonneg
  rw [levinson, Signal.sample_tabulate, if_pos (Nat.succ_pos order), autocorrelation_eq_lagProduct,
    hpower, if_pos ⟨le_rfl, le_rfl⟩]

/-- The zeros of the polynomial one, read at some order, are all at the origin. -/
theorem norm_root_flat {order : Nat} {root : ℂ}
    (hroot : value (fun index => ((Predictor.flat order : Predictor ℝ).polynomial.sample index : ℂ))
      order root = 0) : ‖root‖ < 1 := by
  have hpower : root ^ order = 0 := by
    rw [value, Finset.sum_eq_single_of_mem 0 (by simp)] at hroot
    · rwa [leading_flat, Complex.ofReal_one, one_mul, Nat.sub_zero] at hroot
    · intro index _ hne
      rw [(flat_solves #[] order).beyond index (Nat.pos_of_ne_zero hne), Complex.ofReal_zero,
        zero_mul]
  rw [eq_zero_of_pow_eq_zero hpower, norm_zero]
  exact zero_lt_one

theorem norm_root_levinson (segment : Signal ℝ) {order : Nat} (horder : 1 ≤ order) {root : ℂ}
    (hroot : value (fun index => ((levinson (.tabulate (order + 1) (autocorrelation segment))
      order).polynomial.sample index : ℂ)) order root = 0) : ‖root‖ < 1 := by
  by_cases hsegment : ∃ index, segment.sample index ≠ 0
  · obtain ⟨lower, rfl⟩ : ∃ lower, order = lower + 1 := ⟨order - 1, by omega⟩
    have hsolves := levinson_solves segment (lower + 1) hsegment
    exact hsolves.norm_root_lt_one (hsolves.gain_pos hsegment) hroot
  · rw [levinson_of_silent order hsegment] at hroot
    exact norm_root_flat hroot

/-- The whitening filter of the autocorrelation method is minimum phase: every zero of its
polynomial is inside the unit circle.  The synthesis filter, which it undoes, is therefore
stable: it answers every excitation within a constant multiple of the peak of the
excitation. -/
theorem ofAutocorrelation_is_minimumPhase (segment : Signal ℝ) (order : Nat)
    (horder : 1 ≤ order) :
    ∃ predictor, ofAutocorrelation segment order = .ok predictor ∧
      (order + 1 ≤ maxLength → analyze segment order .autocorrelation = .ok predictor) ∧
      (∀ root : ℂ, ∑ index ∈ Finset.range (order + 1),
        (predictor.polynomial.sample index : ℂ) * root ^ (order - index) = 0 → ‖root‖ < 1) ∧
      (∀ excitation : Signal ℝ, Filter.fir predictor.polynomial
        (Filter.iir #[1] predictor.polynomial excitation) = excitation) ∧
      ∃ bound : ℝ, ∀ (excitation : Signal ℝ) (index : Nat),
        |(Filter.iir #[1] predictor.polynomial excitation).sample index| ≤
          bound * excitation.peak := by
  have hok := ofAutocorrelation_eq_ok segment horder
  have hsize := size_levinson (.tabulate (order + 1) (autocorrelation segment)) order
  have hleading := leading_levinson (.tabulate (order + 1) (autocorrelation segment)) order
  exact ⟨_, hok, fun hstored => (analyze_of_stored segment _ hstored).trans hok,
    fun root hroot => norm_root_levinson segment horder hroot,
    Filter.fir_iir hleading,
    exists_synthesis_bound hsize hleading fun root hroot => norm_root_levinson segment horder hroot⟩

/-- The order may exceed the length of the segment. -/
theorem ofAutocorrelation_is_minimumPhase_of_two_samples :
    ∃ predictor : Predictor ℝ, ofAutocorrelation #[1, 2] 3 = .ok predictor ∧
      ∀ root : ℂ, ∑ index ∈ Finset.range 4,
        (predictor.polynomial.sample index : ℂ) * root ^ (3 - index) = 0 → ‖root‖ < 1 := by
  obtain ⟨predictor, hpredictor, _, hroots, _⟩ :=
    ofAutocorrelation_is_minimumPhase #[1, 2] 3 (by decide)
  exact ⟨predictor, hpredictor, hroots⟩

end Glottis.LinearPrediction
