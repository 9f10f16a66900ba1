import Mathlib
import Glottis.Binary64
import Glottis.Proofs.Binary64Rounding
import Glottis.Proofs.Comparison

/-!
# Values of binary64 operations

What the operations on samples do to the sign and the number of grains of a finite
binary64 number.  Negation, comparison and the whole part follow the exact value; a
product is rounded once, and a natural number below two to the power of fifty-three is
represented exactly.
-/

namespace Glottis.Binary64

open Float.Model (Format totalExponent)
open Float.Model.UnpackedFloat

/-- The number of grains in one. -/
def one : Nat := 2 ^ 1074

def IsValue (value : Float) (sign : Sign) (grains : Nat) : Prop :=
  HasGrains value.toModel.unpack sign grains

variable {value left right : Float} {sign sign' : Sign} {grains grains' : Nat}

theorem mul_positive (sign : Sign) : sign * .positive = sign := by cases sign <;> rfl

/-! ## Packing -/

theorem unpack_pack_zero (sign : Sign) :
    (Float.Model.pack (.zero sign)).unpack = .zero sign := by
  cases sign <;> rfl

/-- Packing loses nothing of a number in range. -/
theorem HasGrains.unpack_pack {number : Unpacked} (hnumber : HasGrains number sign grains) :
    HasGrains (Float.Model.pack number).unpack sign grains := by
  cases hnumber with
  | zero sign =>
      rw [unpack_pack_zero]
      exact .zero sign
  | finite sign hpositive hcanonical =>
      rw [hcanonical.unpack_pack]
      exact .finite sign hpositive hcanonical

theorem isValue_ofModel_pack {number : Unpacked} (hnumber : HasGrains number sign grains) :
    IsValue ⟨.pack number⟩ sign grains :=
  hnumber.unpack_pack

/-- A sample is undefined, infinite, or of some sign and number of grains. -/
theorem undefined_or_infinite_or_isValue (value : Float) :
    value.toModel.unpack = .notANumber ∨ (∃ sign, value.toModel.unpack = .infinity sign) ∨
      ∃ sign grains, IsValue value sign grains := by
  rcases hunpack : value.toModel.unpack with sign | _ | sign | ⟨sign, mantissa, exponent, hpositive⟩
  · exact .inr (.inl ⟨sign, rfl⟩)
  · exact .inl rfl
  · refine .inr (.inr ⟨sign, 0, ?_⟩)
    rw [IsValue, hunpack]
    exact .zero sign
  · refine .inr (.inr ⟨sign, mantissa * 2 ^ (exponent + 1074).toNat, ?_⟩)
    rw [IsValue, hunpack]
    exact .finite sign hpositive (isCanonical_of_unpack hunpack)

/-- What is finite has a sign and a number of grains. -/
theorem exists_isValue_of_isFinite (hvalue : Scalar.isFinite value = true) :
    ∃ sign grains, IsValue value sign grains := by
  change value.toModel.unpack.isFinite = true at hvalue
  rcases undefined_or_infinite_or_isValue value with hundefined | ⟨sign, hinfinite⟩ | hgrains
  · rw [hundefined] at hvalue
    cases hvalue
  · rw [hinfinite] at hvalue
    cases hvalue
  · exact hgrains

/-! ## Negation and products -/

theorem IsValue.neg (hvalue : IsValue value sign grains) : IsValue (-value) (-sign) grains := by
  apply isValue_ofModel_pack
  rw [IsValue] at hvalue
  generalize value.toModel.unpack = number at hvalue
  cases hvalue with
  | zero sign => exact .zero (-sign)
  | finite sign hpositive hcanonical => exact .finite (-sign) hpositive hcanonical

theorem roundsTo_zero : RoundsTo 0 0 where
  le _ _ _ _ := Nat.zero_le _
  ge mantissa scale _ hexact := by
    have hmantissa : mantissa = 0 :=
      (Nat.mul_eq_zero.mp (Nat.le_zero.mp hexact)).resolve_right (Nat.two_pow_pos _).ne'
    rw [hmantissa, Nat.zero_mul]

/-- The product of two positive numbers is rounded once, where it is in range. -/
theorem exists_hasGrains_mul_finite (sign sign' : Sign) {mantissa mantissa' : Nat}
    {exponent exponent' : Int} (hpositive : 0 < mantissa) (hpositive' : 0 < mantissa')
    (hcanonical : IsCanonical mantissa exponent) (hcanonical' : IsCanonical mantissa' exponent')
    {bits : Nat} (hbits : bits ≤ 3171)
    (hbound : mantissa * 2 ^ (exponent + 1074).toNat *
      (mantissa' * 2 ^ (exponent' + 1074).toNat) < 2 ^ bits) :
    ∃ rounded,
      HasGrains (Float.Model.UnpackedFloat.mul Format.binary64
        (.finite sign mantissa exponent hpositive) (.finite sign' mantissa' exponent' hpositive'))
        (sign * sign') rounded ∧
      RoundsTo (mantissa * 2 ^ (exponent + 1074).toNat *
        (mantissa' * 2 ^ (exponent' + 1074).toNat)) rounded := by
  obtain ⟨low, hlow⟩ : ∃ low, low = (exponent + 1074).toNat + (exponent' + 1074).toNat := ⟨_, rfl⟩
  have hexponent : exponent + exponent' = (low : Int) - 2148 := by
    have := hcanonical.le_exponent
    have := hcanonical'.le_exponent
    omega
  have hproduct : mantissa * 2 ^ (exponent + 1074).toNat *
      (mantissa' * 2 ^ (exponent' + 1074).toNat) = mantissa * mantissa' * 2 ^ low := by
    rw [hlow, pow_add]
    ac_rfl
  have hmantissas := Nat.mul_pos hpositive hpositive'
  rw [hproduct] at hbound ⊢
  have hfull : 52 ≤ (mantissa * mantissa').log2 ∨ low ≤ 1074 := by
    rw [Nat.le_log2 hmantissas.ne']
    rcases hcanonical.normal with hnormal | hlowest
    · exact .inl (hnormal.trans (Nat.le_mul_of_pos_right _ hpositive'))
    · rcases hcanonical'.normal with hnormal | hlowest'
      · exact .inl (hnormal.trans (Nat.le_mul_of_pos_left _ hpositive))
      · exact .inr (by omega)
  have hrange : (mantissa * mantissa').log2 + low < bits := by
    rw [← Nat.pow_lt_pow_iff_right (by decide : 1 < 2), pow_add]
    exact (Nat.mul_le_mul_right _ (Nat.log2_self_le hmantissas.ne')).trans_lt hbound
  have hround := exists_hasGrains_roundWithAccuracy (sign * sign') hmantissas hfull (by omega)
  rw [← hexponent] at hround
  exact hround

/-- A product of samples is rounded once, where it is in range. -/
theorem IsValue.exists_mul (hleft : IsValue left sign grains) (hright : IsValue right sign' grains')
    {bits : Nat} (hbits : bits ≤ 3171) (hbound : grains * grains' < 2 ^ bits) :
    ∃ rounded, IsValue (left * right) (sign * sign') rounded ∧
      RoundsTo (grains * grains') rounded := by
  suffices hproduct : ∃ rounded,
      HasGrains (Float.Model.UnpackedFloat.mul Format.binary64 left.toModel.unpack
        right.toModel.unpack) (sign * sign') rounded ∧ RoundsTo (grains * grains') rounded by
    obtain ⟨rounded, hgrains, hrounds⟩ := hproduct
    exact ⟨rounded, isValue_ofModel_pack hgrains, hrounds⟩
  rw [IsValue] at hleft hright
  generalize left.toModel.unpack = number at hleft
  generalize right.toModel.unpack = number' at hright
  cases hleft with
  | zero sign =>
      rw [Nat.zero_mul]
      cases hright <;> exact ⟨0, .zero _, roundsTo_zero⟩
  | finite sign hpositive hcanonical =>
      cases hright with
      | zero sign' => exact ⟨0, .zero _, roundsTo_zero⟩
      | finite sign' hpositive' hcanonical' =>
          exact exists_hasGrains_mul_finite sign sign' hpositive hpositive' hcanonical hcanonical'
            hbits hbound

/-- A product that fits a mantissa is exact. -/
theorem IsValue.mul_exact {mantissa scale : Nat} (hleft : IsValue left sign grains)
    (hright : IsValue right sign' grains') (hmantissa : mantissa < 2 ^ 53) (hscale : scale ≤ 2044)
    (hexact : grains * grains' = mantissa * 2 ^ (scale + 1074)) :
    IsValue (left * right) (sign * sign') (mantissa * 2 ^ scale) := by
  have hbound : grains * grains' < 2 ^ (53 + (scale + 1074)) := by
    rw [hexact]
    exact mul_two_pow_lt hmantissa (scale + 1074)
  obtain ⟨rounded, hvalue, hrounds⟩ := hleft.exists_mul hright (by omega) hbound
  rwa [hrounds.eq hmantissa hexact] at hvalue

/-! ## Natural numbers -/

/-- A natural number below two to the power of fifty-three is represented exactly. -/
theorem hasGrains_ofNat {count : Nat} (hcount : count < 2 ^ 53) :
    HasGrains (Float.Model.UnpackedFloat.ofNat Format.binary64 count) .positive (count * one) := by
  cases Nat.eq_zero_or_pos count with
  | inl hzero =>
      rw [hzero, Nat.zero_mul]
      exact .zero .positive
  | inr hpositive =>
      have hbits : count.log2 ≤ 52 := Nat.lt_succ_iff.mp ((Nat.log2_lt hpositive.ne').mpr hcount)
      obtain ⟨shift, hshift⟩ : ∃ shift, count.log2 + shift = 52 :=
        ⟨52 - count.log2, by omega⟩
      have hlog : (count * 2 ^ shift).log2 = 52 := by
        rw [Nat.log2_eq_iff (Nat.mul_pos hpositive (Nat.two_pow_pos shift)).ne', ← hshift, pow_add,
          Nat.add_right_comm, pow_add 2 (count.log2 + 1)]
        exact ⟨Nat.mul_le_mul_right _ (Nat.log2_self_le hpositive.ne'),
          Nat.mul_lt_mul_of_pos_right Nat.lt_log2_self (Nat.two_pow_pos shift)⟩
      have hround : Float.Model.UnpackedFloat.ofNat Format.binary64 count =
          roundWithAccuracy Format.binary64 .positive (count * 2 ^ shift)
            (((2148 - shift : Nat) : Int) - 2148) .exact := by
        have hbitsLeft : ((0 : Int) - max ((count.log2 : Int) + 0 - 52) (-1074)).toNat = shift := by
          omega
        rw [Float.Model.UnpackedFloat.ofNat, Float.Model.UnpackedFloat.ofInt,
          normalize_natCast _ hpositive hbitsLeft]
        congr 1
        omega
      obtain ⟨rounded, hgrains, hrounds⟩ := exists_hasGrains_roundWithAccuracy .positive
        (Nat.mul_pos hpositive (Nat.two_pow_pos shift)) (.inl hlog.ge)
        (by omega : (count * 2 ^ shift).log2 + (2148 - shift) ≤ 3170)
      rw [hround]
      have hexact : count * 2 ^ shift * 2 ^ (2148 - shift) = count * 2 ^ (1074 + 1074) := by
        rw [Nat.mul_assoc, ← pow_add, show shift + (2148 - shift) = 1074 + 1074 by omega]
      rwa [hrounds.eq hcount hexact] at hgrains

theorem isValue_of_unpack {mantissa : Nat} {exponent : Int} {hpositive : 0 < mantissa}
    (hunpack : value.toModel.unpack = .finite sign mantissa exponent hpositive) :
    IsValue value sign (mantissa * 2 ^ (exponent + 1074).toNat) := by
  rw [IsValue, hunpack]
  exact .finite sign hpositive (isCanonical_of_unpack hunpack)

theorem isValue_ofNat {count : Nat} (hcount : count < 2 ^ 53) :
    IsValue (Float.ofNat count) .positive (count * one) := by
  have hword : IsValue count.toUInt64.toFloat .positive (count * one) := by
    apply isValue_ofModel_pack
    have hsame : count.toUInt64.toNat = count := by
      simp
      omega
    rw [Float.Model.UnpackedFloat.ofUInt64, hsame]
    exact hasGrains_ofNat hcount
  -- A small number is multiplied by the power of ten with the exponent zero.
  have hsplit : Float.ofNat count = count.toUInt64.toFloat * Float.ofBits 0x3FF0000000000000 := by
    rw [Float.ofNat]
    change Float.ofScientific count false 0 = _
    rw [Float.ofScientific, dif_pos ⟨hcount, by decide⟩]
    rfl
  have hone : IsValue (Float.ofBits 0x3FF0000000000000) .positive
      (2 ^ 52 * 2 ^ ((-52 : Int) + 1074).toNat) :=
    isValue_of_unpack (rfl : (Float.ofBits 0x3FF0000000000000).toModel.unpack =
      .finite .positive (2 ^ 52) (-52) (by decide))
  rw [hsplit]
  exact hword.mul_exact hone hcount (by decide) (by
    rw [one, Nat.mul_assoc, ← pow_add, ← pow_add, show ((-52 : Int) + 1074).toNat = 1022 from rfl])

/-! ## Comparison -/

/-- A number with a larger exponent has more grains. -/
theorem IsCanonical.grains_lt {mantissa mantissa' : Nat} {exponent exponent' : Int}
    (hcanonical : IsCanonical mantissa exponent) (hcanonical' : IsCanonical mantissa' exponent')
    (hexponent : exponent < exponent') :
    mantissa * 2 ^ (exponent + 1074).toNat < mantissa' * 2 ^ (exponent' + 1074).toNat := by
  have hlow := hcanonical.le_exponent
  have hfull : 2 ^ 52 ≤ mantissa' := hcanonical'.normal.resolve_right (by omega)
  calc
    mantissa * 2 ^ (exponent + 1074).toNat
        < 2 ^ 53 * 2 ^ (exponent + 1074).toNat :=
      Nat.mul_lt_mul_of_pos_right hcanonical.mantissa_lt (Nat.two_pow_pos _)
    _ = 2 ^ 52 * 2 ^ ((exponent + 1074).toNat + 1) := by rw [← pow_add, ← pow_add]; congr 1; omega
    _ ≤ 2 ^ 52 * 2 ^ (exponent' + 1074).toNat :=
      Nat.mul_le_mul_left _ (Nat.pow_le_pow_right (by decide) (by omega))
    _ ≤ mantissa' * 2 ^ (exponent' + 1074).toNat := Nat.mul_le_mul_right _ hfull

/-- Exponents first and mantissas second is the order of the numbers of grains. -/
theorem IsCanonical.lex_iff {mantissa mantissa' : Nat} {exponent exponent' : Int}
    (hcanonical : IsCanonical mantissa exponent) (hcanonical' : IsCanonical mantissa' exponent') :
    (exponent < exponent' ∨ exponent = exponent' ∧ mantissa < mantissa') ↔
      mantissa * 2 ^ (exponent + 1074).toNat < mantissa' * 2 ^ (exponent' + 1074).toNat := by
  rcases lt_trichotomy exponent exponent' with hlt | rfl | hgt
  · exact iff_of_true (.inl hlt) (hcanonical.grains_lt hcanonical' hlt)
  · rw [Nat.mul_lt_mul_right (Nat.two_pow_pos _)]
    exact ⟨fun h => (h.resolve_left (lt_irrefl _)).2, fun h => .inr ⟨rfl, h⟩⟩
  · refine iff_of_false ?_ (hcanonical'.grains_lt hcanonical hgt).not_gt
    rintro (hlt | ⟨rfl, -⟩)
    · exact lt_asymm hlt hgt
    · exact lt_irrefl _ hgt

theorem HasGrains.lt_iff {number number' : Unpacked} (hnumber : HasGrains number sign grains)
    (hnumber' : HasGrains number' sign' grains') :
    number.lt number' = true ↔ sign.apply grains < sign'.apply grains' := by
  rcases hnumber with _ | @⟨_, mantissa, exponent, hpositive, hcanonical⟩ <;>
    rcases hnumber' with _ | @⟨_, mantissa', exponent', hpositive', hcanonical'⟩
  case zero.zero =>
    cases sign <;> cases sign' <;>
      simp [Float.Model.UnpackedFloat.lt, Float.Model.UnpackedFloat.compare, Sign.apply]
  case zero.finite =>
    have hgrains' := Nat.mul_pos hpositive' (Nat.two_pow_pos (exponent' + 1074).toNat)
    cases sign <;> cases sign' <;>
      simp only [Float.Model.UnpackedFloat.lt, Float.Model.UnpackedFloat.compare, Sign.apply] <;>
      simp <;> omega
  case finite.zero =>
    have hgrains := Nat.mul_pos hpositive (Nat.two_pow_pos (exponent + 1074).toNat)
    cases sign <;> cases sign' <;>
      simp only [Float.Model.UnpackedFloat.lt, Float.Model.UnpackedFloat.compare, Sign.apply] <;>
      simp <;> omega
  case finite.finite =>
    have hgrains := Nat.mul_pos hpositive (Nat.two_pow_pos (exponent + 1074).toNat)
    have hgrains' := Nat.mul_pos hpositive' (Nat.two_pow_pos (exponent' + 1074).toNat)
    have hless := (compare_then_eq_lt_iff exponent exponent' mantissa mantissa').trans
      (hcanonical.lex_iff hcanonical')
    have hgreater := (compare_then_eq_gt_iff exponent exponent' mantissa mantissa').trans
      ((or_congr_right (and_congr_left' eq_comm)).trans (hcanonical'.lex_iff hcanonical))
    generalize mantissa * 2 ^ (exponent + 1074).toNat = grains at *
    generalize mantissa' * 2 ^ (exponent' + 1074).toNat = grains' at *
    cases sign <;> cases sign' <;>
      simp only [Float.Model.UnpackedFloat.lt, Float.Model.UnpackedFloat.compare, Sign.apply,
        beq_iff_eq, Option.some.injEq, Ordering.swap_eq_lt, hless, hgreater, reduceCtorEq,
        false_iff, true_iff] <;>
      omega

theorem lt_iff_unpack (left right : Float) :
    left < right ↔ left.toModel.unpack.lt right.toModel.unpack = true :=
  decide_eq_true_iff

/-- Samples are compared by their signed numbers of grains. -/
theorem IsValue.lt_iff (hleft : IsValue left sign grains) (hright : IsValue right sign' grains') :
    left < right ↔ sign.apply grains < sign'.apply grains' := by
  rw [lt_iff_unpack, HasGrains.lt_iff hleft hright]

theorem IsValue.lt_of_infinity (hleft : IsValue left sign grains)
    (hright : right.toModel.unpack = .infinity .positive) : left < right := by
  rw [IsValue] at hleft
  rw [lt_iff_unpack, hright]
  generalize left.toModel.unpack = number at hleft
  cases hleft <;> rfl

theorem IsValue.lt_of_negative_infinity (hright : IsValue right sign grains)
    (hleft : left.toModel.unpack = .infinity .negative) : left < right := by
  rw [IsValue] at hright
  rw [lt_iff_unpack, hleft]
  generalize right.toModel.unpack = number at hright
  cases hright <;> rfl

/-! ## Whole parts -/

theorem roundToInt_eq {mantissa : Nat} {exponent : Int} (sign : Sign)
    (hexponent : -1074 ≤ exponent) :
    roundToInt sign mantissa exponent =
      sign.apply ((mantissa * 2 ^ (exponent + 1074).toNat / one : Nat) : Int) := by
  have hshifted : roundToInt sign mantissa exponent = sign.apply
      ((⟨mantissa <<< (exponent - 0).toNat, false, false⟩ : ExtendedMantissa) >>>
        (0 - (exponent - (exponent - 0).toNat)).toNat).mantissa := rfl
  rw [hshifted, mantissa_shiftRight, Nat.shiftLeft_eq, sub_zero]
  congr 2
  cases lt_or_ge exponent 0 with
  | inl hnegative =>
      obtain ⟨rest, hrest⟩ : ∃ rest : Nat, (rest : Int) = exponent + 1074 :=
        ⟨(exponent + 1074).toNat, by omega⟩
      rw [show exponent.toNat = 0 by omega, show (exponent + 1074).toNat = rest by omega,
        show (0 - (exponent - (0 : Nat))).toNat = 1074 - rest by omega, one,
        show 1074 = 1074 - rest + rest by omega, pow_add, pow_zero, Nat.mul_one,
        Nat.mul_div_mul_right _ _ (Nat.two_pow_pos rest)]
      congr 2
      omega
  | inr hnonnegative =>
      rw [show (0 - (exponent - (exponent.toNat : Int))).toNat = 0 by omega,
        show (exponent + 1074).toNat = exponent.toNat + 1074 by omega, pow_add, ← Nat.mul_assoc,
        one, Nat.mul_div_cancel _ (Nat.two_pow_pos 1074), pow_zero, Nat.div_one]

/-- The whole part of a number of grains. -/
theorem HasGrains.toInt {number : Unpacked} (hnumber : HasGrains number sign grains)
    (below above : Int) :
    number.toInt below above = sign.apply ((grains / one : Nat) : Int) := by
  cases hnumber with
  | zero sign =>
      rw [Nat.zero_div]
      cases sign <;> rfl
  | finite sign hpositive hcanonical => exact roundToInt_eq sign hcanonical.le_exponent

theorem toNat_ofNatClamp {count : Nat} (hcount : count < 2 ^ 64) :
    (UInt64.ofNatClamp count).toNat = count := by
  have hsize : count < UInt64.size := hcount
  rw [UInt64.ofNatClamp, dif_pos hsize]
  rfl

theorem toUInt64_eq (value : Float) :
    value.toUInt64 =
      UInt64.ofNatClamp (value.toModel.unpack.toInt 0 (UInt64.size - 1)).toNat :=
  rfl

theorem IsValue.toUInt64 (hvalue : IsValue value .positive grains)
    (hbound : grains / one < 2 ^ 64) : value.toUInt64.toNat = grains / one := by
  rw [toUInt64_eq, HasGrains.toInt hvalue]
  exact toNat_ofNatClamp hbound

/-- The whole part of a sample, with its sign. -/
theorem IsValue.truncateInt (hvalue : IsValue value sign grains)
    (hbound : grains / one < 2 ^ 64) :
    Scalar.truncateInt value = sign.apply ((grains / one : Nat) : Int) := by
  have hzero : IsValue 0 .positive 0 := .zero .positive
  have hnegative : value < 0 ↔ sign.apply grains < 0 := hvalue.lt_iff hzero
  cases sign with
  | positive =>
      have hnot : ¬ value < 0 := by
        rw [hnegative]
        exact not_lt.mpr (Int.natCast_nonneg grains)
      exact (if_neg hnot).trans (congrArg Nat.cast (hvalue.toUInt64 hbound))
  | negative =>
      cases Nat.eq_zero_or_pos grains with
      | inl hgrains =>
          have hnot : ¬ value < 0 := by
            rw [hnegative, hgrains]
            decide
          refine (if_neg hnot).trans ?_
          change ((value.toUInt64.toNat : Nat) : Int) = _
          rw [toUInt64_eq, HasGrains.toInt hvalue, hgrains, Nat.zero_div]
          rfl
      | inr hgrains =>
          have hbelow : value < 0 := by
            rw [hnegative]
            exact neg_neg_of_pos (Int.natCast_pos.mpr hgrains)
          have hneg : IsValue (-value) .positive grains := hvalue.neg
          exact (if_pos hbelow).trans (congrArg (fun count : Nat => -(count : Int))
            (hneg.toUInt64 hbound))

/-! ## Undefined samples -/

theorem unpack_mul_of_undefined (hleft : left.toModel.unpack = .notANumber) (right : Float) :
    (left * right).toModel.unpack = .notANumber := by
  have hproduct : (left * right).toModel.unpack = (Float.Model.pack
      (Float.Model.UnpackedFloat.mul Format.binary64 left.toModel.unpack
        right.toModel.unpack)).unpack := rfl
  have hundefined (number : Unpacked) :
      Float.Model.UnpackedFloat.mul Format.binary64 .notANumber number = .notANumber := by
    cases number <;> rfl
  rw [hproduct, hleft, hundefined]
  rfl

theorem truncateInt_of_undefined (hvalue : value.toModel.unpack = .notANumber) :
    Scalar.truncateInt value = 0 := by
  have hnot : ¬ value < 0 := by
    rw [lt_iff_unpack, hvalue]
    decide
  have hwhole : value.toUInt64.toNat = 0 := by
    rw [toUInt64_eq, hvalue]
    rfl
  exact (if_neg hnot).trans (congrArg Nat.cast hwhole)

end Glottis.Binary64
