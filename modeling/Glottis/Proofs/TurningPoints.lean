import Mathlib
import Glottis.Extremum
import Glottis.Proofs.ExactArithmetic

/-!
# Places of turning points

The list of turning points is ascending without repetitions, and neither the last
sample nor an index outside the signal is in it.  Both hold whatever the values
are and however they compare.  In exact arithmetic a maximum inside the signal is a
sample that neither neighbour exceeds and that exceeds one of them, and the minima are
the maxima of the signal turned upside down.
-/

namespace Glottis.Extremum

variable {α : Type} [Scalar α]

theorem pairwise_find (signal : Signal α) (extremum : Extremum) :
    (find signal extremum).Pairwise (· < ·) := by
  rw [find]
  split
  · exact List.Pairwise.nil
  · exact List.pairwise_lt_range.filter _

theorem succ_lt_size_of_mem_find {signal : Signal α} {extremum : Extremum} {index : Nat}
    (hindex : index ∈ find signal extremum) : index + 1 < signal.size := by
  rw [find] at hindex
  split at hindex
  · exact absurd hindex List.not_mem_nil
  · have hrange := List.mem_range.mp (List.mem_filter.mp hindex).1
    omega

theorem mem_find_iff (signal : Signal α) (extremum : Extremum) (index : Nat) :
    index ∈ find signal extremum ↔ 3 ≤ signal.size ∧ index + 1 < signal.size ∧
      slope signal index * slope signal (index + 1) ≤ 0 ∧
      bend signal (index + 1) * extremum.sign < 0 := by
  rw [find]
  split
  case isTrue hsize =>
    constructor
    · intro hindex
      exact absurd hindex List.not_mem_nil
    · intro hindex
      exact absurd hindex.1 (Nat.not_le.mpr hsize)
  case isFalse hsize =>
    rw [List.mem_filter, List.mem_range, decide_eq_true_iff]
    constructor
    · intro hindex
      exact ⟨by omega, by omega, hindex.2⟩
    · intro hindex
      exact ⟨by omega, hindex.2.2⟩

/-! ## Exact arithmetic -/

/-- A slope turns from rising to falling where the product of two slopes is not
positive and the second is less than the first. -/
theorem turns_downward_iff (before after : ℝ) :
    before * after ≤ 0 ∧ after - before < 0 ↔
      0 ≤ before ∧ after ≤ 0 ∧ (0 < before ∨ after < 0) := by
  constructor
  · rintro ⟨hproduct, hfalling⟩
    have hbefore : 0 ≤ before := by
      by_contra hneg
      have := mul_pos_of_neg_of_neg (not_le.mp hneg) (by linarith : after < 0)
      linarith
    have hafter : after ≤ 0 := by
      by_contra hpos
      have := mul_pos (by linarith : 0 < before) (not_le.mp hpos)
      linarith
    refine ⟨hbefore, hafter, ?_⟩
    by_contra hflat
    rw [not_or, not_lt, not_lt] at hflat
    linarith
  · rintro ⟨hbefore, hafter, hstrict⟩
    refine ⟨mul_nonpos_of_nonneg_of_nonpos hbefore hafter, ?_⟩
    cases hstrict with
    | inl hstrict => linarith
    | inr hstrict => linarith

theorem slope_succ (signal : Signal α) (index : Nat) :
    slope signal (index + 1) = signal.sample (index + 1) - signal.sample index :=
  rfl

theorem bend_of_two_le (signal : Signal α) {index : Nat} (hindex : 2 ≤ index) :
    bend signal index = slope signal index - slope signal (index - 1) := by
  rw [bend, max_eq_left hindex]

/-- A maximum inside a signal is neither below its neighbours nor level with both. -/
theorem succ_mem_find_maximum_iff (signal : Signal ℝ) (index : Nat) :
    index + 1 ∈ find signal .maximum ↔ index + 2 < signal.size ∧
      signal.sample index ≤ signal.sample (index + 1) ∧
      signal.sample (index + 2) ≤ signal.sample (index + 1) ∧
      (signal.sample index < signal.sample (index + 1) ∨
        signal.sample (index + 2) < signal.sample (index + 1)) := by
  have hturn := turns_downward_iff (slope signal (index + 1)) (slope signal (index + 2))
  rw [mem_find_iff, bend_of_two_le signal (Nat.le_add_left 2 index), sign, mul_one,
    show index + 2 - 1 = index + 1 from rfl, hturn, slope_succ, slope_succ, sub_nonneg,
    sub_nonpos, sub_pos, sub_neg]
  constructor
  · rintro ⟨_, hsize, hturning⟩
    exact ⟨hsize, hturning⟩
  · rintro ⟨hsize, hturning⟩
    exact ⟨by omega, hsize, hturning⟩

/-- The first index is a maximum only of a signal that starts level and then falls. -/
theorem zero_mem_find_maximum_iff (signal : Signal ℝ) :
    0 ∈ find signal .maximum ↔ 3 ≤ signal.size ∧
      signal.sample 1 = signal.sample 0 ∧ signal.sample 2 < signal.sample 1 := by
  have hslope : slope signal 0 = slope signal 1 := rfl
  have hbend : bend signal (0 + 1) = slope signal 2 - slope signal 1 := rfl
  rw [mem_find_iff, hbend, hslope, slope_succ signal 0, slope_succ signal 1, sign, mul_one]
  constructor
  · rintro ⟨hsize, -, hlevel, hfalling⟩
    have hequal := sub_eq_zero.mp (mul_self_eq_zero.mp (le_antisymm hlevel (mul_self_nonneg _)))
    refine ⟨hsize, hequal, ?_⟩
    rwa [hequal, sub_self, sub_zero, sub_neg, ← hequal] at hfalling
  · rintro ⟨hsize, hequal, hfalling⟩
    refine ⟨hsize, by omega, ?_, ?_⟩
    · rw [hequal, sub_self, mul_zero]
    · rw [hequal, sub_self, sub_zero, sub_neg, ← hequal]
      exact hfalling

/-! ## Minima -/

def opposite : Extremum → Extremum
  | maximum => minimum
  | minimum => maximum

theorem sign_opposite (extremum : Extremum) :
    (extremum.opposite.sign : ℝ) = -extremum.sign := by
  cases extremum with
  | maximum => rfl
  | minimum => exact (neg_neg (1 : ℝ)).symm

theorem sample_map_neg (signal : Signal ℝ) (index : Nat) :
    Signal.sample (signal.map (-·)) index = -signal.sample index :=
  Signal.sample_map signal _ neg_zero index

theorem slope_map_neg (signal : Signal ℝ) (index : Nat) :
    slope (signal.map (-·)) index = -slope signal index := by
  simp only [slope, sample_map_neg, neg_sub_neg]
  split
  · exact (neg_sub _ _).symm
  · exact (neg_sub _ _).symm

theorem bend_map_neg (signal : Signal ℝ) (index : Nat) :
    bend (signal.map (-·)) index = -bend signal index := by
  simp only [bend, slope_map_neg, neg_sub_neg, neg_sub]

/-- Upside down, the extrema are those of the other polarity. -/
theorem find_map_neg (signal : Signal ℝ) (extremum : Extremum) :
    find (signal.map (-·)) extremum = find signal extremum.opposite := by
  simp only [find, Array.size_map, slope_map_neg, bend_map_neg, sign_opposite, neg_mul,
    mul_neg, neg_neg]

theorem find_minimum_eq (signal : Signal ℝ) :
    find signal .minimum = find (signal.map (-·)) .maximum :=
  (find_map_neg signal .maximum).symm

/-- A minimum inside a signal is neither above its neighbours nor level with both. -/
theorem succ_mem_find_minimum_iff (signal : Signal ℝ) (index : Nat) :
    index + 1 ∈ find signal .minimum ↔ index + 2 < signal.size ∧
      signal.sample (index + 1) ≤ signal.sample index ∧
      signal.sample (index + 1) ≤ signal.sample (index + 2) ∧
      (signal.sample (index + 1) < signal.sample index ∨
        signal.sample (index + 1) < signal.sample (index + 2)) := by
  simp only [find_minimum_eq, succ_mem_find_maximum_iff, Array.size_map,
    sample_map_neg, neg_le_neg_iff, neg_lt_neg_iff]

/-- The first index is a minimum only of a signal that starts level and then rises. -/
theorem zero_mem_find_minimum_iff (signal : Signal ℝ) :
    0 ∈ find signal .minimum ↔ 3 ≤ signal.size ∧
      signal.sample 1 = signal.sample 0 ∧ signal.sample 1 < signal.sample 2 := by
  simp only [find_minimum_eq, zero_mem_find_maximum_iff, Array.size_map,
    sample_map_neg, neg_inj, neg_lt_neg_iff]

/-- The slope cannot turn both ways at one index. -/
theorem not_mem_find_opposite {signal : Signal ℝ} {extremum : Extremum} {index : Nat}
    (hindex : index ∈ find signal extremum) : index ∉ find signal extremum.opposite := by
  intro hopposite
  have hturn := ((mem_find_iff signal _ index).mp hindex).2.2.2
  have hback := ((mem_find_iff signal _ index).mp hopposite).2.2.2
  rw [sign_opposite, mul_neg, neg_lt_zero] at hback
  exact lt_asymm hturn hback

/-- In exact arithmetic the maxima of at least three samples are ascending without repetitions.
An index inside the signal is one of them exactly if no neighbour exceeds its sample and the
sample exceeds one of them; the first index is one exactly if the signal starts level and then
falls, and the last one never.  The minima are the maxima of the signal upside down, and no
index is both. -/
theorem find_describes_turning_points (signal : Signal ℝ) (hsize : 3 ≤ signal.size) :
    (find signal .maximum).Pairwise (· < ·) ∧
      (∀ index, 1 ≤ index → index ≤ signal.size - 2 →
        (index ∈ find signal .maximum ↔
          signal.sample (index - 1) ≤ signal.sample index ∧
            signal.sample (index + 1) ≤ signal.sample index ∧
            (signal.sample (index - 1) < signal.sample index ∨
              signal.sample (index + 1) < signal.sample index))) ∧
      (0 ∈ find signal .maximum ↔
        signal.sample 0 = signal.sample 1 ∧ signal.sample 2 < signal.sample 1) ∧
      (∀ index ∈ find signal .maximum, index < signal.size - 1) ∧
      find signal .minimum = find (signal.map (-·)) .maximum ∧
      ∀ index, ¬(index ∈ find signal .maximum ∧ index ∈ find signal .minimum) := by
  refine ⟨pairwise_find signal .maximum, ?_, ?_, ?_, find_minimum_eq signal, ?_⟩
  · intro index hfirst hlast
    obtain ⟨previous, rfl⟩ := Nat.exists_eq_add_of_le' hfirst
    have hinside : previous + 2 < signal.size := by omega
    rw [succ_mem_find_maximum_iff, Nat.add_sub_cancel]
    exact and_iff_right hinside
  · rw [zero_mem_find_maximum_iff, eq_comm (a := signal.sample 0)]
    exact and_iff_right hsize
  · intro index hindex
    exact Nat.lt_sub_of_add_lt (succ_lt_size_of_mem_find hindex)
  · intro index hboth
    exact not_mem_find_opposite hboth.1 hboth.2

/-- A level start, a level top and a descending step. -/
theorem find_describes_turning_points_of_plateaus :
    0 ∈ find (#[2, 2, 1, 3, 3, 1, 1, 0] : Signal ℝ) .maximum ∧
      4 ∈ find (#[2, 2, 1, 3, 3, 1, 1, 0] : Signal ℝ) .maximum ∧
      6 ∈ find (#[2, 2, 1, 3, 3, 1, 1, 0] : Signal ℝ) .maximum ∧
      2 ∉ find (#[2, 2, 1, 3, 3, 1, 1, 0] : Signal ℝ) .maximum := by
  obtain ⟨_, hinside, hstart, _⟩ := find_describes_turning_points
    (#[2, 2, 1, 3, 3, 1, 1, 0] : Signal ℝ) (by decide)
  refine ⟨?_, ?_, ?_, ?_⟩
  · rw [hstart]
    norm_num [Signal.sample]
  · rw [hinside 4 (by decide) (by decide)]
    norm_num [Signal.sample]
  · rw [hinside 6 (by decide) (by decide)]
    norm_num [Signal.sample]
  · rw [hinside 2 (by decide) (by decide)]
    norm_num [Signal.sample]

end Glottis.Extremum
