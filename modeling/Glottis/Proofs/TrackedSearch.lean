import Mathlib
import Glottis.Proofs.Binary64Values
import Glottis.Proofs.ThresholdSearch

/-!
# A search that keeps the best value

A loop over a window can keep the value of the best sample beside its index, and
start with a value that stands for no sample.  It returns what the search over
optional indices returns as long as every sample above the threshold exceeds that
first value.  For binary64 samples the lowest finite number will do, whatever the
finite threshold.
-/

namespace Glottis

namespace Sedreams

variable {α : Type} [Scalar α]

/-- The better of the best sample so far, given by its index and its value, and the
sample at an index. -/
def keepLarger (signal : Signal α) (threshold : α) (best : Nat × α) (index : Nat) : Nat × α :=
  if threshold < signal.sample index ∧ best.2 < signal.sample index then
    (index, signal.sample index)
  else best

/-- The search from `start` to `start + span` that begins with the index `start` and
an initial value in place of its sample. -/
def trackedSearch (initial : α) (signal : Signal α) (start span : Nat) (threshold : α) : Nat :=
  ((List.range' start (windowEnd signal start span + 1 - start)).foldl
    (keepLarger signal threshold) (start, initial)).1

def kept (initial : α) (signal : Signal α) (start : Nat) : Option Nat → Nat × α
  | none => (start, initial)
  | some best => (best, signal.sample best)

theorem kept_fst (initial : α) (signal : Signal α) (start : Nat) (best : Option Nat) :
    (kept initial signal start best).1 = best.getD start := by
  cases best with
  | none => rfl
  | some best => rfl

/-- One step keeps the index and the value of what the other search has found. -/
theorem keepLarger_kept {initial threshold : α}
    (hinitial : ∀ value, threshold < value → initial < value) (signal : Signal α) (start : Nat)
    (best : Option Nat) (index : Nat) :
    keepLarger signal threshold (kept initial signal start best) index =
      kept initial signal start (stronger signal threshold best index) := by
  by_cases habove : threshold < signal.sample index
  case neg =>
    have hstay : stronger signal threshold best index = best := if_neg habove
    rw [hstay]
    exact if_neg fun hboth => habove hboth.1
  case pos =>
    cases best with
    | none =>
        have hfirst : stronger signal threshold none index = some index := if_pos habove
        rw [hfirst]
        exact if_pos ⟨habove, hinitial _ habove⟩
    | some earlier =>
        by_cases hlarger : signal.sample earlier < signal.sample index
        · have hnext : stronger signal threshold (some earlier) index = some index :=
            (if_pos habove).trans (if_pos hlarger)
          rw [hnext]
          exact if_pos ⟨habove, hlarger⟩
        · have hstay : stronger signal threshold (some earlier) index = some earlier :=
            (if_pos habove).trans (if_neg hlarger)
          rw [hstay]
          exact if_neg fun hboth => hlarger hboth.2

/-- Where every value above the threshold exceeds the initial one, both searches
return the same index. -/
theorem trackedSearch_eq {initial threshold : α}
    (hinitial : ∀ value, threshold < value → initial < value) (signal : Signal α)
    (start span : Nat) :
    trackedSearch initial signal start span threshold =
      strongestAbove signal start span threshold := by
  have hrun (indices : List Nat) :
      indices.foldl (keepLarger signal threshold) (kept initial signal start none) =
        kept initial signal start (indices.foldl (stronger signal threshold) none) :=
    List.foldl_hom _ (keepLarger_kept hinitial signal start)
  rw [strongestAbove, ← kept_fst initial signal, ← hrun]
  rfl

end Sedreams

/-! ## The lowest finite number -/

namespace Binary64

open Float.Model.UnpackedFloat

variable {threshold value : Float} {sign : Sign} {grains : Nat}

/-- The negative number of the largest mantissa and exponent. -/
def lowest : Float := -1.7976931348623157e308

theorem lowest_eq_ofBits : lowest = .ofBits 0xffefffffffffffff := by decide +kernel

/-- The number of grains of the largest mantissa and exponent. -/
def mostGrains : Nat := (2 ^ 53 - 1) * 2 ^ ((971 : Int) + 1074).toNat

theorem isValue_lowest : IsValue lowest .negative mostGrains := by
  have hunpack : (.ofBits 0xffefffffffffffff : Float).toModel.unpack =
      .finite .negative (2 ^ 53 - 1) 971 (by decide) := rfl
  rw [IsValue, lowest_eq_ofBits, hunpack]
  exact .finite .negative (by decide) ⟨by decide, by decide, by decide, .inl (by decide)⟩

theorem HasGrains.grains_le {number : Unpacked} (hnumber : HasGrains number sign grains) :
    grains ≤ mostGrains := by
  cases hnumber with
  | zero sign => exact Nat.zero_le _
  | finite sign hpositive hcanonical =>
      have hmantissa := hcanonical.mantissa_lt
      have hexponent := hcanonical.exponent_le
      exact Nat.mul_le_mul (by omega) (Nat.pow_le_pow_right (by decide) (by omega))

theorem IsValue.not_lt_lowest (hvalue : IsValue value sign grains) : ¬ value < lowest := by
  have hgrains := HasGrains.grains_le hvalue
  rw [hvalue.lt_iff isValue_lowest, not_lt]
  cases sign with
  | positive => exact (neg_nonpos.mpr (Int.natCast_nonneg _)).trans (Int.natCast_nonneg grains)
  | negative => exact neg_le_neg (Int.ofNat_le.mpr hgrains)

/-- What exceeds a finite number exceeds the lowest one. -/
theorem lowest_lt_of_lt (hthreshold : Scalar.isFinite threshold = true)
    (hvalue : threshold < value) : lowest < value := by
  obtain ⟨sign, grains, hgrains⟩ := exists_isValue_of_isFinite hthreshold
  -- Above negative infinity the lowest number takes part in comparisons.
  have hbelow : (.ofBits 0xfff0000000000000 : Float) < lowest :=
    isValue_lowest.lt_of_negative_infinity rfl
  exact (LawfulComparison.lt_or_lt hbelow hvalue).resolve_left hgrains.not_lt_lowest

end Binary64

end Glottis
