import Mathlib
import Glottis.Filter
import Glottis.Proofs.Binary64Values

/-!
# Signs of binary64 operations

Rounding may carry a number to zero or to infinity, but never across zero, and nothing that is
computed here from positive samples is undefined.  Where one has been added to such a number,
it is at least one, and so its inverse is finite.  The factor of pre-emphasis is such an
inverse, and multiplying zero by it gives zero.
-/

namespace Glottis.Binary64

open Float.Model (Format totalExponent)
open Float.Model.UnpackedFloat

/-- A sample of a sign, finite or infinite. -/
def HasSign (value : Float) (sign : Sign) : Prop :=
  value.toModel.unpack = .infinity sign ∨ ∃ grains, IsValue value sign grains

variable {value left right : Float} {sign sign' : Sign} {grains grains' : Nat}

/-! ## Packing out of range -/

theorem unpack_pack_infinity (sign : Sign) :
    (Float.Model.pack (.infinity sign)).unpack = .infinity sign := by
  cases sign <;> rfl

/-- Bits whose exponent field is not full are those of a finite number. -/
private theorem exists_isValue_of_components {exponent : BitVec 11} (hfield : exponent ≠ -1#11)
    {mantissa : BitVec 52}
    (hbits : value.toModel.toBits.toBitVec =
      packComponents Format.binary64 sign exponent mantissa) :
    ∃ grains, IsValue value sign grains := by
  have hunpack : value.toModel.unpack =
      unpack Format.binary64 (packComponents Format.binary64 sign exponent mantissa) :=
    congrArg (unpack Format.binary64) hbits
  rw [unpack] at hunpack
  simp only [unpackMantissa_packComponents, unpackExponent_packComponents,
    unpackSign_packComponents, ofBitVec_toBitVec, hfield, if_false] at hunpack
  split at hunpack
  case isTrue =>
    split at hunpack
    case isTrue =>
      refine ⟨0, ?_⟩
      rw [IsValue, hunpack]
      exact .zero sign
    case isFalse => exact ⟨_, isValue_of_unpack hunpack⟩
  case isFalse => exact ⟨_, isValue_of_unpack hunpack⟩

section Packing

variable {mantissa : Nat} {exponent : Int} {hpositive : 0 < mantissa}

/-- A number below the largest exponent may lose bits when it is packed, but stays finite. -/
theorem exists_isValue_pack_finite (sign : Sign) (hexponent : exponent ≤ 971) :
    ∃ grains, IsValue ⟨.pack (.finite sign mantissa exponent hpositive)⟩ sign grains := by
  obtain ⟨biased, hbiased⟩ : ∃ biased,
      (exponent + (Format.binary64.exponentBias : Int) + (52 : Nat)).toNat = biased := ⟨_, rfl⟩
  have hbelow : biased < 2047 := by
    rw [← hbiased, show Format.binary64.exponentBias = 1023 from rfl]
    omega
  have hfield : BitVec.ofNat 11 biased ≠ -1#11 := by
    intro hfull
    have hfull := congrArg BitVec.toNat hfull
    rw [BitVec.toNat_ofNat, Nat.mod_eq_of_lt (hbelow.trans (by decide))] at hfull
    exact hbelow.ne hfull
  have hbits : pack Format.binary64 (.finite sign mantissa exponent hpositive) =
      if mantissa.log2 + 1 = 53 then
        packComponents Format.binary64 sign (BitVec.ofNat 11 biased) (BitVec.ofNat 52 mantissa)
      else packComponents Format.binary64 sign 0#11 (BitVec.ofNat 52 mantissa) := by
    rw [pack]
    dsimp only
    rw [hbiased, if_neg (by omega)]
    rfl
  by_cases hnormal : mantissa.log2 + 1 = 53
  · rw [if_pos hnormal] at hbits
    exact exists_isValue_of_components hfield hbits
  · rw [if_neg hnormal] at hbits
    exact exists_isValue_of_components (by decide) hbits

theorem unpack_pack_of_lt (sign : Sign) (hexponent : 971 < exponent) :
    (Float.Model.pack (.finite sign mantissa exponent hpositive)).unpack = .infinity sign := by
  have hfull : 2 ^ 11 ≤ (exponent + (1023 : Nat) + (52 : Nat)).toNat + 1 := by omega
  have hbits : pack Format.binary64 (.finite sign mantissa exponent hpositive) =
      pack Format.binary64 (.infinity sign) := if_pos hfull
  change unpack Format.binary64 (pack Format.binary64 _) = _
  rw [hbits]
  exact unpack_pack_infinity sign

theorem hasSign_pack_finite (sign : Sign) :
    HasSign ⟨.pack (.finite sign mantissa exponent hpositive)⟩ sign := by
  cases le_or_gt exponent 971 with
  | inl hexponent => exact .inr (exists_isValue_pack_finite sign hexponent)
  | inr hexponent => exact .inl (unpack_pack_of_lt sign hexponent)

end Packing

/-- Whatever is rounded and packed keeps its sign. -/
theorem hasSign_pack_roundWithAccuracy (sign : Sign) (mantissa : Nat) (exponent : Int)
    (accuracy : Accuracy) :
    HasSign ⟨.pack (roundWithAccuracy Format.binary64 sign mantissa exponent accuracy)⟩ sign := by
  rw [roundWithAccuracy]
  dsimp only
  split
  case isTrue => exact .inr ⟨0, isValue_ofModel_pack (.zero sign)⟩
  case isFalse => exact hasSign_pack_finite sign

/-! ## Products and quotients -/

/-- A product of finite samples may leave the range, but has the sign of the product. -/
theorem IsValue.hasSign_mul (hleft : IsValue left sign grains)
    (hright : IsValue right sign' grains') : HasSign (left * right) (sign * sign') := by
  suffices hproduct : HasSign ⟨.pack (Float.Model.UnpackedFloat.mul Format.binary64
      left.toModel.unpack right.toModel.unpack)⟩ (sign * sign') from hproduct
  rw [IsValue] at hleft hright
  generalize left.toModel.unpack = number at hleft
  generalize right.toModel.unpack = number' at hright
  cases hleft with
  | zero sign => cases hright <;> exact .inr ⟨0, isValue_ofModel_pack (.zero _)⟩
  | finite sign hpositive hcanonical =>
      cases hright with
      | zero sign' => exact .inr ⟨0, isValue_ofModel_pack (.zero _)⟩
      | finite sign' hpositive' hcanonical' => exact hasSign_pack_roundWithAccuracy _ _ _ _

/-- A quotient by a sample that is not zero has the sign of the quotient. -/
theorem HasSign.div (hleft : HasSign left sign) (hright : IsValue right sign' grains')
    (hdivisor : 0 < grains') : HasSign (left / right) (sign / sign') := by
  suffices hquotient : HasSign ⟨.pack (Float.Model.UnpackedFloat.div Format.binary64
      left.toModel.unpack right.toModel.unpack)⟩ (sign / sign') from hquotient
  rw [IsValue] at hright
  generalize right.toModel.unpack = number' at hright
  cases hright with
  | zero sign' => exact absurd hdivisor (lt_irrefl 0)
  | finite sign' hpositive' hcanonical' =>
      cases hleft with
      | inl hinfinite =>
          rw [hinfinite]
          exact .inl (unpack_pack_infinity _)
      | inr hfinite =>
          obtain ⟨grains, hgrains⟩ := hfinite
          rw [IsValue] at hgrains
          generalize left.toModel.unpack = number at hgrains
          cases hgrains with
          | zero sign => exact .inr ⟨0, isValue_ofModel_pack (.zero _)⟩
          | finite sign hpositive hcanonical => exact hasSign_pack_roundWithAccuracy _ _ _ _

/-! ## One and more -/

theorem unpack_one : (1 : Float).toModel.unpack = .finite .positive (2 ^ 52) (-52) (by decide) :=
  rfl

/-- A sample that is infinite, or whose last bit counts at least what it does in one. -/
inductive IsCoarse (value : Float) : Prop where
  | infinite (hunpack : value.toModel.unpack = .infinity .positive)
  | finite {mantissa : Nat} {exponent : Int} {hpositive : 0 < mantissa}
      (hunpack : value.toModel.unpack = .finite .positive mantissa exponent hpositive)
      (hexponent : -52 ≤ exponent)

/-- The sum of a positive number and one has a full mantissa, whose last bit counts at least
what it does in one. -/
theorem exists_add_one_eq {mantissa : Nat} {exponent : Int} (hpositive : 0 < mantissa) :
    ∃ rounded exponent' hpositive',
      Float.Model.UnpackedFloat.add Format.binary64 (.finite .positive mantissa exponent hpositive)
          (.finite .positive (2 ^ 52) (-52) (by decide)) =
        .finite .positive rounded exponent' hpositive' ∧
      2 ^ 52 ≤ rounded ∧ rounded < 2 ^ 53 ∧ -52 ≤ exponent' := by
  obtain ⟨lowest, hlowest⟩ : ∃ lowest, lowest = min exponent (-52) := ⟨_, rfl⟩
  obtain ⟨total, htotal⟩ : ∃ total : Nat, total =
      mantissa <<< (exponent - lowest).toNat + 2 ^ 52 <<< (-52 - lowest).toNat := ⟨_, rfl⟩
  have hbits : 2 ^ (-lowest).toNat ≤ total := by
    calc
      2 ^ (-lowest).toNat = 2 ^ 52 <<< (-52 - lowest).toNat := by
        rw [Nat.shiftLeft_eq, ← pow_add]
        congr 1
        omega
      _ ≤ total := htotal ▸ Nat.le_add_left _ _
  have htotalPositive : 0 < total := (Nat.two_pow_pos _).trans_le hbits
  have hlog : (-lowest).toNat ≤ total.log2 := (Nat.le_log2 htotalPositive.ne').mpr hbits
  have hround : Float.Model.UnpackedFloat.add Format.binary64
        (.finite .positive mantissa exponent hpositive)
        (.finite .positive (2 ^ 52) (-52) (by decide)) =
      roundWithAccuracy Format.binary64 .positive total lowest .exact := by
    have hadd : Float.Model.UnpackedFloat.add Format.binary64
          (.finite .positive mantissa exponent hpositive)
          (.finite .positive (2 ^ 52) (-52) (by decide)) =
        Float.Model.UnpackedFloat.normalize Format.binary64 (total : Int) lowest .positive := by
      rw [htotal, hlowest]
      rfl
    -- The sum has enough bits, so none are added before it is rounded.
    have hshift : (lowest - max (total.log2 + lowest - 52) (-1074)).toNat = 0 := by omega
    rw [hadd, normalize_natCast _ htotalPositive hshift, pow_zero, Nat.mul_one, Nat.cast_zero,
      sub_zero]
  obtain ⟨rounded, exponent', hrounded, heq, hlow, hhigh, hexponent⟩ :=
    exists_roundWithAccuracy_of_full .positive (by omega : 52 ≤ total.log2)
      (by omega : -1074 ≤ total.log2 + lowest - 52)
  exact ⟨rounded, exponent', hrounded, hround.trans heq, hlow, hhigh, by omega⟩

/-- One added to a sample that is not negative. -/
theorem HasSign.add_one (hvalue : HasSign value .positive) : IsCoarse (value + 1) := by
  have hsum : (value + 1).toModel = .pack (Float.Model.UnpackedFloat.add Format.binary64
      value.toModel.unpack (1 : Float).toModel.unpack) := rfl
  rw [unpack_one] at hsum
  cases hvalue with
  | inl hinfinite =>
      rw [hinfinite] at hsum
      exact .infinite (by rw [hsum]; exact unpack_pack_infinity .positive)
  | inr hfinite =>
      obtain ⟨grains, hgrains⟩ := hfinite
      rw [IsValue] at hgrains
      generalize value.toModel.unpack = number at hgrains hsum
      cases hgrains with
      | zero =>
          have hone :
              (value + 1).toModel.unpack = .finite .positive (2 ^ 52) (-52) (by decide) := by
            rw [hsum]
            rfl
          exact .finite hone le_rfl
      | finite _ hpositive hcanonical =>
          obtain ⟨rounded, exponent', hrounded, heq, hlow, hhigh, hexponent⟩ :=
            exists_add_one_eq hpositive
          rw [heq] at hsum
          cases le_or_gt exponent' 971 with
          | inl hbelow =>
              have hcanonical' : IsCanonical rounded exponent' :=
                ⟨hhigh, by omega, hbelow, .inl hlow⟩
              exact .finite (by rw [hsum]; exact hcanonical'.unpack_pack .positive hrounded)
                hexponent
          | inr habove =>
              exact .infinite (by rw [hsum]; exact unpack_pack_of_lt .positive habove)

/-! ## Inverses -/

section Shifts

variable (mantissa : Nat) (exponent : Int) (accuracy : Accuracy)

theorem exponent_shiftToTargetExponent :
    (shiftToTargetExponent Format.binary64 mantissa exponent accuracy).2 =
      max exponent (max (mantissa.log2 + exponent - 52) (-1074)) := by
  rw [shiftToTargetExponent, targetExponent_eq, shiftToExponent]
  dsimp only
  omega

theorem roundedMantissa_shiftToTargetExponent_le :
    (shiftToTargetExponent Format.binary64 mantissa exponent accuracy).1.roundedMantissa ≤
      mantissa + 1 := by
  have hstart : (ExtendedMantissa.ofMantissaAndAccuracy mantissa accuracy).mantissa = mantissa := by
    rcases accuracy with _ | _ | _ | _ <;> rfl
  have hshifted : (shiftToTargetExponent Format.binary64 mantissa exponent accuracy).1.mantissa ≤
      mantissa := by
    rw [shiftToTargetExponent, shiftToExponent]
    dsimp only
    rw [mantissa_shiftRight, hstart]
    exact Nat.div_le_self _ _
  exact (roundedMantissa_le _).2.trans (Nat.succ_le_succ hshifted)

end Shifts

/-- A mantissa that is not too long is not rounded out of range. -/
theorem exists_isValue_pack_roundWithAccuracy (sign : Sign) {mantissa : Nat} {exponent : Int}
    (hmantissa : mantissa < 2 ^ 106) (hexponent : exponent ≤ 0) (accuracy : Accuracy) :
    ∃ grains,
      IsValue ⟨.pack (roundWithAccuracy Format.binary64 sign mantissa exponent accuracy)⟩ sign
        grains := by
  have hrounded := roundedMantissa_shiftToTargetExponent_le mantissa exponent accuracy
  have hfirst := exponent_shiftToTargetExponent mantissa exponent accuracy
  rw [roundWithAccuracy]
  generalize shiftToTargetExponent Format.binary64 mantissa exponent accuracy = shifted
    at hrounded hfirst
  have hlog : mantissa.log2 < 106 := log2_lt_of_lt hmantissa (by decide)
  have hlog' : shifted.1.roundedMantissa.log2 < 107 :=
    log2_lt_of_lt (by omega) (by decide)
  have hsecond := exponent_shiftToTargetExponent shifted.1.roundedMantissa shifted.2 .exact
  dsimp only
  split
  case isTrue => exact ⟨0, isValue_ofModel_pack (.zero sign)⟩
  case isFalse => exact exists_isValue_pack_finite sign (by omega)

/-- The quotient of one and a coarse number, before it is rounded. -/
theorem exists_divCore_one_eq {mantissa : Nat} {exponent : Int} (hmantissa : mantissa < 2 ^ 53)
    (hexponent : -52 ≤ exponent) :
    ∃ quotient target accuracy,
      divCore Format.binary64 (2 ^ 52) (-52) mantissa exponent = (quotient, target, accuracy) ∧
      quotient < 2 ^ 106 ∧ target ≤ 0 := by
  have hlog : mantissa.log2 < 53 := log2_lt_of_lt hmantissa (by decide)
  have hminimum : Format.binary64.minExponent = -1074 := rfl
  have hbits : Format.binary64.mantissaBits = 53 := rfl
  have htotal : Format.binary64.targetExponent
      (totalExponent (2 ^ 52) (-52) - totalExponent mantissa exponent) =
        max (-(mantissa.log2 : Int) - exponent - 53) (-1074) := by
    rw [Format.targetExponent, totalExponent, totalExponent, hminimum, hbits, Nat.log2_two_pow]
    omega
  refine ⟨_, _, _, rfl, ?_, ?_⟩
  · rw [htotal, Nat.shiftLeft_eq]
    generalize hshift : (-52 - exponent - min (-52 - exponent)
      (max (-(mantissa.log2 : Int) - exponent - 53) (-1074))).toNat = shift
    have hshift : shift ≤ 53 := by omega
    calc
      2 ^ 52 * 2 ^ shift / mantissa ≤ 2 ^ 52 * 2 ^ shift := Nat.div_le_self _ _
      _ ≤ 2 ^ 52 * 2 ^ 53 := Nat.mul_le_mul_left _ (Nat.pow_le_pow_right (by decide) hshift)
      _ < 2 ^ 106 := by decide
  · exact (min_le_left _ _).trans (by omega)

/-- The inverse of a coarse sample is finite. -/
theorem IsCoarse.exists_isValue_inverse (hvalue : IsCoarse value) :
    ∃ grains, IsValue (1 / value) .positive grains := by
  suffices hquotient : ∃ grains, IsValue ⟨.pack (Float.Model.UnpackedFloat.div Format.binary64
      (1 : Float).toModel.unpack value.toModel.unpack)⟩ .positive grains from hquotient
  rw [unpack_one]
  cases hvalue with
  | infinite hunpack =>
      rw [hunpack]
      exact ⟨0, isValue_ofModel_pack (.zero .positive)⟩
  | finite hunpack hexponent =>
      obtain ⟨quotient, target, accuracy, hcore, hquotient, htarget⟩ :=
        exists_divCore_one_eq (isCanonical_of_unpack hunpack).mantissa_lt hexponent
      rw [hunpack, Float.Model.UnpackedFloat.div, hcore]
      exact exists_isValue_pack_roundWithAccuracy .positive hquotient htarget accuracy

/-! ## Zero -/

/-- What is positive and finite is a positive number of grains. -/
theorem exists_isValue_of_isPositive (hvalue : Scalar.isPositive value = true) :
    ∃ grains, 0 < grains ∧ IsValue value .positive grains := by
  rw [Scalar.isPositive, Bool.and_eq_true, decide_eq_true_iff] at hvalue
  obtain ⟨hfinite, hpositive⟩ := hvalue
  obtain ⟨sign, grains, hgrains⟩ := exists_isValue_of_isFinite hfinite
  have hzero : IsValue 0 .positive 0 := .zero .positive
  have hsigned : (0 : Int) < sign.apply grains := (hzero.lt_iff hgrains).mp hpositive
  cases sign with
  | positive => exact ⟨grains, Int.natCast_pos.mp hsigned, hgrains⟩
  | negative => exact absurd hsigned (not_lt.mpr (neg_nonpos.mpr (Int.natCast_nonneg grains)))

theorem IsValue.mul_zero (hvalue : IsValue value .positive grains) : value * 0 = 0 := by
  have hproduct : value * 0 = ⟨.pack (Float.Model.UnpackedFloat.mul Format.binary64
      value.toModel.unpack (.zero .positive))⟩ := rfl
  rw [IsValue] at hvalue
  rw [hproduct]
  generalize value.toModel.unpack = number at hvalue
  cases hvalue <;> rfl

theorem zero_div_of_isPositive (hvalue : Scalar.isPositive value = true) : 0 / value = 0 := by
  have hquotient : 0 / value = ⟨.pack (Float.Model.UnpackedFloat.div Format.binary64
      (.zero .positive) value.toModel.unpack)⟩ := rfl
  obtain ⟨grains, hgrains, hpositive⟩ := exists_isValue_of_isPositive hvalue
  rw [IsValue] at hpositive
  rw [hquotient]
  generalize value.toModel.unpack = number at hpositive
  cases hpositive with
  | zero => exact absurd hgrains (lt_irrefl 0)
  | finite => rfl

/-! ## The factor of pre-emphasis -/

/-- The factor of pre-emphasis is finite and not negative for all rates and cutoffs, however
large or small. -/
theorem exists_isValue_emphasisFactor {sampleRate frequency : Float}
    (hrate : Scalar.isPositive sampleRate = true)
    (hfrequency : Scalar.isPositive frequency = true) :
    ∃ grains, IsValue (Filter.emphasisFactor sampleRate frequency) .positive grains := by
  have hturn : Scalar.isPositive ((2.0 : Float) * Scalar.pi) = true := by decide +kernel
  obtain ⟨turn, _, hturn⟩ := exists_isValue_of_isPositive hturn
  obtain ⟨grains, _, hfrequency⟩ := exists_isValue_of_isPositive hfrequency
  obtain ⟨divisor, hdivisor, hrate⟩ := exists_isValue_of_isPositive hrate
  have hshare : HasSign (2.0 * Scalar.pi * frequency / sampleRate) .positive :=
    (hturn.hasSign_mul hfrequency).div hrate hdivisor
  exact hshare.add_one.exists_isValue_inverse

end Glottis.Binary64
