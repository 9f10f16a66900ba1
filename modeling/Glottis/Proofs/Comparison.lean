import Mathlib
import Glottis.Binary64

/-!
# Comparison of sample values

A search for the largest sample depends on its sample values through `<` alone.
The two laws below are all that such a search needs.  They hold of binary64
numbers although an undefined value compares with nothing and the two zeros are
equal in rank: a value that exceeds another one has a rank in a linear order.
-/

namespace Glottis

open Float.Model (UnpackedFloat)
open Float.Model.UnpackedFloat (Sign)

/-- Comparison behaves like that of a linear order on all values that exceed
some value. -/
class LawfulComparison (α : Type) [Scalar α] : Prop where
  lt_irrefl (value : α) : ¬ value < value
  lt_trans {first second third : α} : first < second → second < third → first < third
  /-- A value that takes part in comparisons lies above the smaller or below the
  larger of two compared values. -/
  lt_or_lt {bound value lower upper : α} :
    bound < value → lower < upper → lower < value ∨ value < upper

namespace Binary64

/-- The place of an unpacked number in the order of all numbers, by sign and
kind, then exponent, then mantissa; an undefined value has none. -/
private def rank : UnpackedFloat → Option (ℤ ×ₗ ℤ ×ₗ ℤ)
  | .notANumber => none
  | .infinity .negative => some (toLex (-2, toLex (0, 0)))
  | .finite .negative mantissa exponent _ => some (toLex (-1, toLex (-exponent, -mantissa)))
  | .zero _ => some (toLex (0, toLex (0, 0)))
  | .finite .positive mantissa exponent _ => some (toLex (1, toLex (exponent, mantissa)))
  | .infinity .positive => some (toLex (2, toLex (0, 0)))

/-- Pairs are compared by their first entry, and by their second where that
decides nothing. -/
theorem compare_then_eq_lt_iff (exponent exponent' : ℤ) (mantissa mantissa' : ℕ) :
    (compare exponent exponent').then (compare mantissa mantissa') = .lt ↔
      exponent < exponent' ∨ exponent = exponent' ∧ mantissa < mantissa' := by
  rw [Ordering.then_eq_lt, compare_lt_iff_lt, compare_lt_iff_lt, compare_eq_iff_eq]

theorem compare_then_eq_gt_iff (exponent exponent' : ℤ) (mantissa mantissa' : ℕ) :
    (compare exponent exponent').then (compare mantissa mantissa') = .gt ↔
      exponent' < exponent ∨ exponent = exponent' ∧ mantissa' < mantissa := by
  rw [Ordering.then_eq_gt, compare_gt_iff_gt, compare_gt_iff_gt, compare_eq_iff_eq]

/-- One number is less than another if both have a rank and the ranks are in that
order. -/
private theorem unpacked_lt_iff (left right : UnpackedFloat) :
    left.lt right = true ↔ ∃ low ∈ rank left, ∃ high ∈ rank right, low < high := by
  rcases left with (_ | _) | _ | _ | ⟨_ | _, mantissa, exponent, hleft⟩ <;>
    rcases right with (_ | _) | _ | _ | ⟨_ | _, mantissa', exponent', hright⟩ <;>
    simp [UnpackedFloat.lt, UnpackedFloat.compare, rank, Prod.Lex.toLex_lt_toLex,
      compare_then_eq_lt_iff, compare_then_eq_gt_iff,
      show compare Sign.negative Sign.positive = .lt from rfl]

private theorem float_lt_iff (left right : Float) :
    left < right ↔ ∃ low ∈ rank left.toModel.unpack, ∃ high ∈ rank right.toModel.unpack,
      low < high := by
  rw [← unpacked_lt_iff]
  exact decide_eq_true_iff

instance : LawfulComparison Float where
  lt_irrefl value hvalue := by
    rw [float_lt_iff] at hvalue
    obtain ⟨low, hlow, high, hhigh, hlt⟩ := hvalue
    obtain rfl : low = high := Option.mem_unique hlow hhigh
    exact lt_irrefl low hlt
  lt_trans {first second third} hfirst hsecond := by
    rw [float_lt_iff] at hfirst hsecond ⊢
    obtain ⟨low, hlow, middle, hmiddle, hlt⟩ := hfirst
    obtain ⟨middle', hmiddle', high, hhigh, hlt'⟩ := hsecond
    obtain rfl : middle = middle' := Option.mem_unique hmiddle hmiddle'
    exact ⟨low, hlow, high, hhigh, hlt.trans hlt'⟩
  lt_or_lt {bound value lower upper} hbound hlower := by
    rw [float_lt_iff] at hbound hlower
    rw [float_lt_iff, float_lt_iff]
    obtain ⟨_, _, place, hplace, _⟩ := hbound
    obtain ⟨low, hlow, high, hhigh, hlt⟩ := hlower
    rcases hlt.gt_or_lt place with h | h
    · exact .inl ⟨low, hlow, place, hplace, h⟩
    · exact .inr ⟨place, hplace, high, hhigh, h⟩

end Binary64

end Glottis
