import Mathlib
import Glottis.LinearPrediction
import Glottis.Proofs.ExactArithmetic

/-!
# The quadratic form of the autocorrelation

Filtering a segment by a polynomial and letting it ring out gives a sequence whose
energy is a quadratic form in the coefficients, with the autocorrelation of the
segment as its matrix.  Unless the segment is silent the form is positive for every
polynomial but zero, because the first coefficient and the first sample that are not
zero meet in a sample of their own.
-/

namespace Glottis.LinearPrediction

/-- The sum of products of samples `lag` apart; zero for a lag past the end. -/
noncomputable def lagProduct (segment : Signal ℝ) (lag : Nat) : ℝ :=
  ∑ index ∈ Finset.range (segment.size - lag),
    segment.sample index * segment.sample (index + lag)

theorem autocorrelation_eq_lagProduct (segment : Signal ℝ) (lag : Nat) :
    autocorrelation segment lag = lagProduct segment lag := by
  rw [autocorrelation, lagProduct]
  split
  case isTrue hlag => rw [Nat.sub_eq_zero_of_le hlag, Finset.sum_range_zero]
  case isFalse => rw [sumLanes_eq_sum]

noncomputable def delayed (segment : Signal ℝ) (delay index : Nat) : ℝ :=
  if delay ≤ index then segment.sample (index - delay) else 0

/-- The products of a lag, summed over any range that covers the segment. -/
theorem lagProduct_eq_sum (segment : Signal ℝ) (lag : Nat) {stop : Nat}
    (hstop : segment.size ≤ stop) :
    lagProduct segment lag =
      ∑ index ∈ Finset.range stop, segment.sample index * segment.sample (index + lag) := by
  rw [lagProduct]
  apply Finset.sum_subset
  · intro index hindex
    rw [Finset.mem_range] at hindex ⊢
    omega
  · intro index _ hindex
    rw [Finset.mem_range, not_lt] at hindex
    rw [Signal.sample_of_size_le segment (by omega : segment.size ≤ index + lag), mul_zero]

/-- Delaying a segment by two amounts correlates it at the difference. -/
private theorem sum_delayed_of_le (segment : Signal ℝ) {first second stop : Nat}
    (hle : first ≤ second) (hstop : segment.size + second ≤ stop) :
    ∑ index ∈ Finset.range stop, delayed segment first index * delayed segment second index =
      lagProduct segment (second - first) := by
  obtain ⟨length, rfl⟩ : ∃ length, stop = second + length := ⟨stop - second, by omega⟩
  rw [Finset.sum_range_add, lagProduct_eq_sum segment _ (by omega : segment.size ≤ length)]
  have hhead : ∑ index ∈ Finset.range second,
      delayed segment first index * delayed segment second index = 0 := by
    apply Finset.sum_eq_zero
    intro index hindex
    rw [Finset.mem_range] at hindex
    rw [delayed, delayed, if_neg (not_le.mpr hindex), mul_zero]
  rw [hhead, zero_add]
  apply Finset.sum_congr rfl
  intro index _
  rw [delayed, delayed, if_pos (by omega), if_pos (by omega), Nat.add_sub_cancel_left, mul_comm,
    show second + index - first = index + (second - first) by omega]

theorem sum_delayed_eq_lagProduct (segment : Signal ℝ) {first second stop : Nat}
    (hfirst : segment.size + first ≤ stop) (hsecond : segment.size + second ≤ stop) :
    ∑ index ∈ Finset.range stop, delayed segment first index * delayed segment second index =
      lagProduct segment (Nat.dist first second) := by
  cases Nat.le_total first second with
  | inl hle => rw [Nat.dist_eq_sub_of_le hle, sum_delayed_of_le segment hle hsecond]
  | inr hle =>
      rw [Nat.dist_eq_sub_of_le_right hle, ← sum_delayed_of_le segment hle hfirst]
      apply Finset.sum_congr rfl
      intro index _
      rw [mul_comm]

/-- Sample `index` of a segment filtered by a polynomial of an order. -/
noncomputable def filtered (segment : Signal ℝ) (coefficient : Nat → ℝ) (order index : Nat) : ℝ :=
  ∑ delay ∈ Finset.range (order + 1), coefficient delay * delayed segment delay index

/-- The product of two filtered segments, summed until both have rung out, is the
bilinear form of the autocorrelation. -/
theorem sum_filtered_mul_filtered (segment : Signal ℝ) (left right : Nat → ℝ) (order : Nat) :
    ∑ index ∈ Finset.range (segment.size + order),
        filtered segment left order index * filtered segment right order index =
      ∑ first ∈ Finset.range (order + 1), left first *
        ∑ second ∈ Finset.range (order + 1), right second *
          lagProduct segment (Nat.dist first second) := by
  have hproduct : ∀ index, filtered segment left order index * filtered segment right order index =
      ∑ first ∈ Finset.range (order + 1), ∑ second ∈ Finset.range (order + 1),
        left first * (right second *
          (delayed segment first index * delayed segment second index)) := by
    intro index
    rw [filtered, filtered, Finset.sum_mul_sum]
    apply Finset.sum_congr rfl
    intro first _
    apply Finset.sum_congr rfl
    intro second _
    ring
  rw [Finset.sum_congr rfl fun index _ => hproduct index, Finset.sum_comm]
  apply Finset.sum_congr rfl
  intro first hfirst
  rw [Finset.sum_comm, Finset.mul_sum]
  apply Finset.sum_congr rfl
  intro second hsecond
  rw [Finset.mem_range] at hfirst hsecond
  rw [← Finset.mul_sum, ← Finset.mul_sum,
    sum_delayed_eq_lagProduct segment (by omega) (by omega)]

/-- The first coefficient and the first sample that are not zero meet in one sample of the
filtered segment, to which nothing else contributes. -/
theorem exists_filtered_ne_zero {segment : Signal ℝ} {coefficient : Nat → ℝ} {order : Nat}
    (hcoefficient : ∃ delay, delay ≤ order ∧ coefficient delay ≠ 0)
    (hsegment : ∃ index, segment.sample index ≠ 0) :
    ∃ index < segment.size + order, filtered segment coefficient order index ≠ 0 := by
  classical
  obtain ⟨horder, hdelay⟩ := Nat.find_spec hcoefficient
  have hsample := Nat.find_spec hsegment
  have hbefore : ∀ index < Nat.find hsegment, segment.sample index = 0 := fun index hindex =>
    not_not.mp (Nat.find_min hsegment hindex)
  have hlower : ∀ delay < Nat.find hcoefficient, coefficient delay = 0 := fun delay hlt =>
    not_not.mp fun hne => Nat.find_min hcoefficient hlt ⟨hlt.le.trans horder, hne⟩
  refine ⟨Nat.find hcoefficient + Nat.find hsegment, ?_, ?_⟩
  · have hinside : Nat.find hsegment < segment.size := by
      by_contra hsize
      exact hsample (Signal.sample_of_size_le segment (not_lt.mp hsize))
    omega
  · rw [filtered, Finset.sum_eq_single_of_mem (Nat.find hcoefficient)
      (Finset.mem_range.mpr (Nat.lt_succ_of_le horder))]
    · rw [delayed, if_pos (Nat.le_add_right _ _), Nat.add_sub_cancel_left]
      exact mul_ne_zero hdelay hsample
    · intro delay _ hne
      cases Nat.lt_or_gt_of_ne hne with
      | inl hless => rw [hlower delay hless, zero_mul]
      | inr hmore =>
          rw [delayed]
          split
          case isTrue => rw [hbefore _ (by omega), mul_zero]
          case isFalse => rw [mul_zero]

/-- The autocorrelation of a segment that is not silent is positive definite. -/
theorem quadraticForm_pos {segment : Signal ℝ} {coefficient : Nat → ℝ} {order : Nat}
    (hcoefficient : ∃ delay, delay ≤ order ∧ coefficient delay ≠ 0)
    (hsegment : ∃ index, segment.sample index ≠ 0) :
    0 < ∑ first ∈ Finset.range (order + 1), coefficient first *
      ∑ second ∈ Finset.range (order + 1), coefficient second *
        lagProduct segment (Nat.dist first second) := by
  rw [← sum_filtered_mul_filtered]
  obtain ⟨index, hindex, hne⟩ := exists_filtered_ne_zero hcoefficient hsegment
  apply Finset.sum_pos'
  · intro other _
    exact mul_self_nonneg _
  · exact ⟨index, Finset.mem_range.mpr hindex, mul_self_pos.mpr hne⟩

end Glottis.LinearPrediction
