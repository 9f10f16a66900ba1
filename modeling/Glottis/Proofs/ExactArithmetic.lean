import Mathlib
import Glottis.Proofs.Comparison
import Glottis.Signal

/-!
# Exact arithmetic

The analyses are written over any type of sample values.  Read over the real
numbers they compute without rounding: every value is finite, only zero is not
normal, and a decimal constant is the fraction that it denotes.  An index is still
a 64-bit word, so turning a value into an index saturates.
-/

namespace Glottis

noncomputable instance : Scalar ℝ where
  decidableLT := inferInstance
  decidableLE := inferInstance
  pi := Real.pi
  cos := Real.cos
  exp := Real.exp
  sqrt := Real.sqrt
  isFinite _ := true
  isNormal value := decide (value ≠ 0)
  truncate value := min ⌊value⌋₊ maxIndex
  ofDecimal mantissa exponent := (mantissa : ℝ) * 10 ^ exponent

instance : LawfulComparison ℝ where
  lt_irrefl := lt_irrefl
  lt_trans := lt_trans
  lt_or_lt _ hlower := hlower.gt_or_lt _

namespace Scalar

theorem truncate_real (value : ℝ) : truncate value = min ⌊value⌋₊ maxIndex := rfl

theorem isPositive_real_iff (value : ℝ) : isPositive value = true ↔ 0 < value := by
  simp [isPositive, isFinite]

theorem isNormal_real_iff (value : ℝ) : isNormal value = true ↔ value ≠ 0 :=
  decide_eq_true_iff

theorem magnitude_real (value : ℝ) : magnitude value = |value| := by
  rw [magnitude]
  split
  case isTrue hneg => rw [abs_of_neg hneg]
  case isFalse hpos => rw [abs_of_nonneg (not_lt.mp hpos)]

theorem round_natCast {count : Nat} (hcount : count ≤ maxIndex) :
    round (count : ℝ) = count := by
  have hwhole : truncate (count : ℝ) = count := by
    rw [truncate_real, Nat.floor_natCast, min_eq_left hcount]
  simp only [round, hwhole, sub_self]
  rw [if_neg (by norm_num)]

theorem round_le_one {value : ℝ} (hvalue : value < 1) : round value ≤ 1 := by
  have hwhole : truncate value = 0 := by
    rw [truncate_real, Nat.floor_eq_zero.mpr hvalue, Nat.zero_min]
  simp only [round, hwhole]
  split
  · exact Nat.min_le_left _ _
  · exact Nat.zero_le 1

/-- A value beyond all indices is turned into the largest one. -/
theorem round_of_maxIndex_le {value : ℝ} (hvalue : (maxIndex : ℝ) ≤ value) :
    round value = maxIndex := by
  have hwhole : truncate value = maxIndex := by
    rw [truncate_real, min_eq_right (Nat.le_floor hvalue)]
  simp only [round, hwhole]
  rw [min_eq_right (Nat.le_succ maxIndex), ite_self]

/-- Rounding cuts off half a sample higher. -/
theorem round_real (value : ℝ) : round value = min ⌊value + 1 / 2⌋₊ maxIndex := by
  cases le_or_gt (maxIndex : ℝ) value with
  | inl hlarge =>
      have hfloor : maxIndex ≤ ⌊value + 1 / 2⌋₊ := Nat.le_floor (by linarith)
      rw [round_of_maxIndex_le hlarge, min_eq_right hfloor]
  | inr hsmall =>
      have hbelow : ⌊value⌋₊ < maxIndex := (Nat.floor_lt' (by decide)).mpr hsmall
      have hwhole : truncate value = ⌊value⌋₊ := by rw [truncate_real, min_eq_left hbelow.le]
      have habove := Nat.lt_floor_add_one value
      have hhalf : (0.5 : ℝ) = 1 / 2 := by norm_num
      simp only [round, hwhole, hhalf]
      split
      case isTrue hup =>
        have hfloor : ⌊value + 1 / 2⌋₊ = ⌊value⌋₊ + 1 := by
          rw [Nat.floor_eq_iff' (Nat.succ_ne_zero _)]
          push_cast
          constructor <;> linarith
        rw [hfloor]
      case isFalse hdown =>
        have hfloor : ⌊value + 1 / 2⌋₊ = ⌊value⌋₊ := by
          apply le_antisymm
          · rw [← Nat.lt_succ_iff, Nat.floor_lt' (Nat.succ_ne_zero _)]
            push_cast
            linarith
          · exact Nat.floor_le_floor (by linarith)
        rw [hfloor, min_eq_left hbelow.le]

/-- Rounding stays at or below a count up to half a sample above it. -/
theorem round_le_iff {value : ℝ} {count : Nat} (hcount : count < maxIndex) :
    round value ≤ count ↔ value < count + 1 / 2 := by
  rw [round_real, min_le_iff, or_iff_left (not_le.mpr hcount), ← Nat.lt_succ_iff,
    Nat.floor_lt' (Nat.succ_ne_zero count)]
  push_cast
  constructor <;> intro hlt <;> linarith

end Scalar

theorem sumRange_eq_sum (count : Nat) (term : Nat → ℝ) :
    sumRange count term = ∑ index ∈ Finset.range count, term index := by
  induction count with
  | zero => rfl
  | succ count ih => rw [sumRange_succ, ih, Finset.sum_range_succ]

/-- A fold that takes terms away takes their sum away. -/
theorem fold_sub_eq_sub_sum (count : Nat) (start : ℝ) (term : Nat → ℝ) :
    count.fold (fun index _ total => total - term index) start =
      start - ∑ index ∈ Finset.range count, term index := by
  induction count with
  | zero => simp
  | succ count ih => rw [Nat.fold_succ, ih, Finset.sum_range_succ, sub_sub]

/-- A sum over whole groups of eight and the rest, taken group by group. -/
private theorem sum_groups (groups rest : Nat) (term : Nat → ℝ) :
    ∑ index ∈ Finset.range (8 * groups + rest), term index =
      (∑ group ∈ Finset.range groups, ∑ offset ∈ Finset.range 8, term (8 * group + offset)) +
        ∑ index ∈ Finset.range rest, term (8 * groups + index) := by
  rw [Finset.sum_range_add]
  congr 1
  induction groups with
  | zero => rfl
  | succ groups ih =>
      rw [Nat.mul_succ, Finset.sum_range_add, ih, Finset.sum_range_succ _ groups]

/-- The order of the lanes does not matter without rounding. -/
theorem sumLanes_eq_sum (count : Nat) (term : Nat → ℝ) :
    sumLanes count term = ∑ index ∈ Finset.range count, term index := by
  have hcount : count = 8 * (count / 8) + count % 8 := (Nat.div_add_mod count 8).symm
  have hrest : ∀ (rest : Nat) (start : ℝ),
      rest.fold (fun index _ total => total + term (8 * (count / 8) + index)) start =
        start + ∑ index ∈ Finset.range rest, term (8 * (count / 8) + index) := by
    intro rest start
    induction rest with
    | zero => simp
    | succ rest ih => rw [Nat.fold_succ, ih, Finset.sum_range_succ, add_assoc]
  rw [sumLanes, hrest]
  conv_rhs => rw [hcount, sum_groups]
  congr 1
  simp only [sumRange_eq_sum, Finset.sum_range_succ, Finset.sum_range_zero,
    Finset.sum_add_distrib, Finset.sum_const_zero]
  ring

namespace Signal

theorem allFinite_real (signal : Signal ℝ) : allFinite signal = true := by
  simp [allFinite, Scalar.isFinite]

/-- Mapping a signal by a function that keeps silence maps every sample. -/
theorem sample_map {α : Type} [Scalar α] (signal : Signal α) (f : α → α) (hzero : f 0 = 0)
    (index : Nat) : sample (signal.map f) index = f (sample signal index) := by
  by_cases hindex : index < signal.size
  · rw [sample_eq_getElem _ hindex, sample_eq_getElem _ (by simpa using hindex),
      Array.getElem_map]
  · rw [not_lt] at hindex
    rw [sample_of_size_le _ hindex, sample_of_size_le _ (by simpa using hindex), hzero]

theorem energy_eq_sum (signal : Signal ℝ) :
    energy signal = ∑ index ∈ Finset.range signal.size, signal.sample index ^ 2 := by
  rw [energy, sumLanes_eq_sum]
  simp only [sq]

/-- A signal has energy unless it is silent. -/
theorem energy_pos_iff (signal : Signal ℝ) :
    0 < energy signal ↔ ∃ index, signal.sample index ≠ 0 := by
  rw [energy_eq_sum, Finset.sum_pos_iff_of_nonneg fun index _ => sq_nonneg _]
  constructor
  · intro hpositive
    obtain ⟨index, _, hindex⟩ := hpositive
    exact ⟨index, sq_pos_iff.mp hindex⟩
  · intro hsample
    obtain ⟨index, hindex⟩ := hsample
    refine ⟨index, Finset.mem_range.mpr ?_, sq_pos_of_ne_zero hindex⟩
    by_contra hsize
    exact hindex (sample_of_size_le signal (not_lt.mp hsize))

end Signal

end Glottis
