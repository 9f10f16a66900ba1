import Mathlib

/-!
# Rounding of binary64 numbers

Every finite binary64 number is a whole number of grains of size two to the power of
minus 1074.  A product that has to be rounded is a whole number of the squares of
these grains.  Rounding it never crosses a number of grains that fits a mantissa, from
either side, so a product that is such a number is exact.
-/

namespace Glottis.Binary64

open Float.Model (Format totalExponent)
open Float.Model.UnpackedFloat

abbrev Unpacked := Float.Model.UnpackedFloat

/-! ## Mantissas and exponents in range -/

theorem mul_two_pow_mul_two_pow (mantissa scale scale' : Nat) :
    mantissa * 2 ^ scale * 2 ^ scale' = mantissa * 2 ^ (scale + scale') := by
  rw [Nat.mul_assoc, ← pow_add]

theorem mul_two_pow_lt {mantissa bits : Nat} (hmantissa : mantissa < 2 ^ bits) (scale : Nat) :
    mantissa * 2 ^ scale < 2 ^ (bits + scale) := by
  rw [pow_add]
  exact Nat.mul_lt_mul_of_pos_right hmantissa (Nat.two_pow_pos scale)

theorem log2_lt_of_lt {mantissa bits : Nat} (hmantissa : mantissa < 2 ^ bits) (hbits : 0 < bits) :
    mantissa.log2 < bits := by
  cases Nat.eq_zero_or_pos mantissa with
  | inl hzero => rwa [hzero, Nat.log2_zero]
  | inr hpositive => exact (Nat.log2_lt hpositive.ne').mpr hmantissa

/-- The mantissas and exponents of finite binary64 numbers: a mantissa has fifty-three
bits unless the exponent is the lowest one. -/
structure IsCanonical (mantissa : Nat) (exponent : Int) : Prop where
  mantissa_lt : mantissa < 2 ^ 53
  le_exponent : -1074 ≤ exponent
  exponent_le : exponent ≤ 971
  normal : 2 ^ 52 ≤ mantissa ∨ exponent = -1074

theorem unpackSign_packComponents (format : Format) (sign : Sign)
    (exponent : BitVec format.exponentBits)
    (mantissa : BitVec format.mantissaBitsWithoutImplicit) :
    unpackSign (packComponents format sign exponent mantissa) = sign.toBitVec := by
  apply BitVec.eq_of_getLsbD_eq
  intro index hindex
  obtain rfl : index = 0 := by omega
  simp [unpackSign, packComponents, BitVec.getLsbD_append, BitVec.getElem_append]

theorem ofBitVec_toBitVec (sign : Sign) : Sign.ofBitVec sign.toBitVec = sign := by
  cases sign <;> rfl

private theorem ofNat_ne_ofNat {width value value' : Nat} (hvalue : value < 2 ^ width)
    (hvalue' : value' < 2 ^ width) (hne : value ≠ value') :
    BitVec.ofNat width value ≠ BitVec.ofNat width value' := by
  intro heq
  have hfields := congrArg BitVec.toNat heq
  rw [BitVec.toNat_ofNat, BitVec.toNat_ofNat, Nat.mod_eq_of_lt hvalue,
    Nat.mod_eq_of_lt hvalue'] at hfields
  exact hne hfields

/-- A number with a full mantissa survives packing. -/
private theorem unpack_pack_normal (sign : Sign) {mantissa : Nat} {exponent : Int}
    (hpositive : 0 < mantissa) (hlow : 2 ^ 52 ≤ mantissa) (hhigh : mantissa < 2 ^ 53)
    (hexponent : -1074 ≤ exponent) (hexponent' : exponent ≤ 971) :
    unpack Format.binary64 (pack Format.binary64 (.finite sign mantissa exponent hpositive)) =
      .finite sign mantissa exponent hpositive := by
  have hbits : mantissa.log2 = 52 :=
    (Nat.log2_eq_iff hpositive.ne').mpr ⟨hlow, hhigh⟩
  obtain ⟨biased, hbiased⟩ : ∃ biased : Nat, (biased : Int) = exponent + 1075 :=
    ⟨(exponent + 1075).toNat, by omega⟩
  have hfield : (BitVec.ofNat 11 biased).toNat = biased := by
    rw [BitVec.toNat_ofNat, Nat.mod_eq_of_lt (by omega)]
  have hmantissa : (1#1 ++ BitVec.ofNat 52 mantissa).toNat = mantissa := by
    rw [BitVec.toNat_append, ← Nat.shiftLeft_add_eq_or_of_lt (BitVec.isLt _), BitVec.toNat_ofNat,
      Nat.shiftLeft_eq]
    norm_num
    omega
  have hnotZero : BitVec.ofNat 11 biased ≠ 0#11 :=
    ofNat_ne_ofNat (by omega) (by decide) (by omega)
  have hnotFull : BitVec.ofNat 11 biased ≠ -1#11 :=
    @ofNat_ne_ofNat 11 biased 2047 (by omega) (by decide) (by omega)
  have hsum : (exponent + (Format.binary64.exponentBias : Int) + (52 : Nat)).toNat = biased := by
    rw [show Format.binary64.exponentBias = 1023 from rfl]
    omega
  rw [pack]
  dsimp only
  rw [hsum, if_neg (by omega), if_pos (by rw [hbits]; rfl), unpack]
  simp only [unpackMantissa_packComponents, unpackExponent_packComponents,
    unpackSign_packComponents, ofBitVec_toBitVec, hnotZero, hnotFull, if_false, hmantissa, hfield]
  congr 1
  rw [show Format.binary64.exponentBias = 1023 from rfl]
  omega

/-- A number below the full mantissas survives packing at the lowest exponent. -/
private theorem unpack_pack_subnormal (sign : Sign) {mantissa : Nat} (hpositive : 0 < mantissa)
    (hhigh : mantissa < 2 ^ 52) :
    unpack Format.binary64 (pack Format.binary64 (.finite sign mantissa (-1074) hpositive)) =
      .finite sign mantissa (-1074) hpositive := by
  have hbits : mantissa.log2 < 52 := (Nat.log2_lt hpositive.ne').mpr hhigh
  have hfield : (BitVec.ofNat 52 mantissa).toNat = mantissa := by
    rw [BitVec.toNat_ofNat, Nat.mod_eq_of_lt hhigh]
  have hnotZero : BitVec.ofNat 52 mantissa ≠ 0#52 :=
    ofNat_ne_ofNat hhigh (by decide) hpositive.ne'
  rw [pack]
  dsimp only
  rw [if_neg (by decide), if_neg (by rw [show Format.binary64.mantissaBits = 53 from rfl]; omega),
    unpack]
  simp only [unpackMantissa_packComponents, unpackExponent_packComponents,
    unpackSign_packComponents, ofBitVec_toBitVec, hnotZero, hfield]
  rfl

theorem IsCanonical.unpack_pack {mantissa : Nat} {exponent : Int}
    (hcanonical : IsCanonical mantissa exponent) (sign : Sign) (hpositive : 0 < mantissa) :
    (Float.Model.pack (.finite sign mantissa exponent hpositive)).unpack =
      .finite sign mantissa exponent hpositive := by
  cases Nat.lt_or_ge mantissa (2 ^ 52) with
  | inl hlow =>
      obtain rfl := hcanonical.normal.resolve_left (not_le.mpr hlow)
      exact unpack_pack_subnormal sign hpositive hlow
  | inr hlow =>
      exact unpack_pack_normal sign hpositive hlow hcanonical.mantissa_lt
        hcanonical.le_exponent hcanonical.exponent_le

/-- What a binary64 number unpacks to is in range. -/
theorem isCanonical_of_unpack {model : Float.Model} {sign : Sign} {mantissa : Nat}
    {exponent : Int} {hpositive : 0 < mantissa}
    (hunpack : model.unpack = .finite sign mantissa exponent hpositive) :
    IsCanonical mantissa exponent := by
  rw [Float.Model.unpack, unpack] at hunpack
  dsimp only at hunpack
  have hfield : (@unpackExponent Format.binary64 model.toBits.toBitVec).toNat < 2 ^ 11 :=
    BitVec.isLt _
  have hfraction : (@unpackMantissa Format.binary64 model.toBits.toBitVec).toNat < 2 ^ 52 :=
    BitVec.isLt _
  have hbias : Format.binary64.exponentBias = 1023 := rfl
  split at hunpack
  case isTrue => split at hunpack <;> cases hunpack
  case isFalse hnotFull =>
    have hbelow : (@unpackExponent Format.binary64 model.toBits.toBitVec).toNat ≠ 2047 := by
      intro heq
      exact hnotFull (BitVec.eq_of_toNat_eq heq)
    split at hunpack
    case isTrue hzero =>
      split at hunpack
      case isTrue => cases hunpack
      case isFalse =>
        injection hunpack with _ hmantissa hexponent
        rw [hzero, hbias, BitVec.toNat_zero] at hexponent
        exact ⟨by omega, by omega, by omega, .inr (by omega)⟩
    case isFalse hnotZero =>
      have habove : (@unpackExponent Format.binary64 model.toBits.toBitVec).toNat ≠ 0 := by
        intro heq
        exact hnotZero (BitVec.eq_of_toNat_eq heq)
      injection hunpack with _ hmantissa hexponent
      rw [BitVec.toNat_append, ← Nat.shiftLeft_add_eq_or_of_lt (BitVec.isLt _), Nat.shiftLeft_eq]
        at hmantissa
      rw [hbias] at hexponent
      norm_num at hmantissa
      exact ⟨by omega, by omega, by omega, .inl (by omega)⟩

/-! ## Shifting and rounding a mantissa -/

theorem mantissa_shiftRight (extended : ExtendedMantissa) (count : Nat) :
    (extended >>> count).mantissa = extended.mantissa / 2 ^ count := by
  induction count with
  | zero => exact (Nat.div_one _).symm
  | succ count ih =>
      change (extended >>> count).mantissa / 2 = _
      rw [ih, Nat.div_div_eq_div_mul, pow_succ]

/-- Nothing is lost where the mantissa is divisible. -/
theorem shiftRight_of_dvd {mantissa count : Nat} (hdvd : 2 ^ count ∣ mantissa) :
    (⟨mantissa, false, false⟩ : ExtendedMantissa) >>> count =
      ⟨mantissa / 2 ^ count, false, false⟩ := by
  induction count with
  | zero =>
      rw [pow_zero, Nat.div_one]
      rfl
  | succ count ih =>
      have heven : mantissa / 2 ^ count % 2 = 0 :=
        Nat.mod_eq_zero_of_dvd (Nat.dvd_div_of_mul_dvd (by rwa [← pow_succ]))
      change ExtendedMantissa.shiftRightOne
        ((⟨mantissa, false, false⟩ : ExtendedMantissa) >>> count) = _
      rw [ih ((Nat.pow_dvd_pow 2 (Nat.le_succ count)).trans hdvd),
        ExtendedMantissa.shiftRightOne, Nat.div_div_eq_div_mul, ← pow_succ]
      simp [heven]

theorem roundedMantissa_le (extended : ExtendedMantissa) :
    extended.mantissa ≤ extended.roundedMantissa ∧
      extended.roundedMantissa ≤ extended.mantissa + 1 := by
  rcases extended with ⟨mantissa, _ | _, _ | _⟩ <;>
    simp only [ExtendedMantissa.roundedMantissa, ExtendedMantissa.accuracy,
      Accuracy.roundToNearestEven] <;>
    omega

/-- A mantissa shifted to the right and rounded to the nearest whole number. -/
def roundedShift (mantissa count : Nat) : Nat :=
  ((⟨mantissa, false, false⟩ : ExtendedMantissa) >>> count).roundedMantissa

theorem le_roundedShift {mantissa count bound : Nat} (hbound : bound * 2 ^ count ≤ mantissa) :
    bound ≤ roundedShift mantissa count := by
  have hfloor := (roundedMantissa_le ((⟨mantissa, false, false⟩ : ExtendedMantissa) >>> count)).1
  rw [mantissa_shiftRight] at hfloor
  exact ((Nat.le_div_iff_mul_le (Nat.two_pow_pos count)).mpr hbound).trans hfloor

/-- Rounding up never passes a whole number that is not below the exact quotient. -/
theorem roundedShift_le {mantissa count bound : Nat} (hbound : mantissa ≤ bound * 2 ^ count) :
    roundedShift mantissa count ≤ bound := by
  cases hbound.lt_or_eq with
  | inl hlt =>
      have hceil :=
        (roundedMantissa_le ((⟨mantissa, false, false⟩ : ExtendedMantissa) >>> count)).2
      rw [mantissa_shiftRight] at hceil
      have hquotient := (Nat.div_lt_iff_lt_mul (Nat.two_pow_pos count)).mpr hlt
      exact hceil.trans hquotient
  | inr heq =>
      rw [roundedShift, shiftRight_of_dvd (heq ▸ Nat.dvd_mul_left _ _), heq,
        Nat.mul_div_cancel _ (Nat.two_pow_pos count)]
      exact le_rfl

/-! ## Rounding a number -/

/-- The exponent to which a number is rounded. -/
theorem targetExponent_eq (mantissa : Nat) (exponent : Int) :
    Format.binary64.targetExponent (totalExponent mantissa exponent) =
      max (mantissa.log2 + exponent - 52) (-1074) := by
  have hminimum : Format.binary64.minExponent = -1074 := rfl
  have hbits : Format.binary64.mantissaBits = 53 := rfl
  rw [Format.targetExponent, totalExponent, hminimum, hbits]
  omega

theorem shiftToTargetExponent_eq {mantissa count : Nat} {exponent : Int}
    (htarget : exponent + count = max (mantissa.log2 + exponent - 52) (-1074)) :
    shiftToTargetExponent Format.binary64 mantissa exponent .exact =
      ((⟨mantissa, false, false⟩ : ExtendedMantissa) >>> count, exponent + count) := by
  rw [shiftToTargetExponent, targetExponent_eq, ← htarget, shiftToExponent,
    show (exponent + count - exponent).toNat = count by omega]
  rfl

theorem shiftToTargetExponent_of_lt {mantissa : Nat} {exponent : Int}
    (hmantissa : mantissa < 2 ^ 53) (hexponent : -1074 ≤ exponent) :
    shiftToTargetExponent Format.binary64 mantissa exponent .exact =
      (⟨mantissa, false, false⟩, exponent) := by
  have hbits : mantissa.log2 < 53 := log2_lt_of_lt hmantissa (by decide)
  rw [shiftToTargetExponent, targetExponent_eq, shiftToExponent,
    show (max ((mantissa.log2 : Int) + exponent - 52) (-1074) - exponent).toNat = 0 by omega]
  exact congrArg _ (add_zero exponent)

/-- A positive whole number at an exponent is given more bits if it has few, and then rounded. -/
theorem normalize_natCast (zeroSign : Sign) {count shift : Nat} {exponent : Int}
    (hpositive : 0 < count)
    (hshift : (exponent - max (count.log2 + exponent - 52) (-1074)).toNat = shift) :
    Float.Model.UnpackedFloat.normalize Format.binary64 (count : Int) exponent zeroSign =
      roundWithAccuracy Format.binary64 .positive (count * 2 ^ shift) (exponent - shift)
        .exact := by
  have hcompare : compare (count : Int) 0 = .gt :=
    compare_gt_iff_gt.mpr (Int.natCast_pos.mpr hpositive)
  rw [Float.Model.UnpackedFloat.normalize, hcompare]
  dsimp only
  rw [Float.Model.UnpackedFloat.round, Int.toNat_natCast, targetExponent_eq, decreaseExponent,
    hshift, Nat.shiftLeft_eq]

/-- A binary64 number of a sign and a number of grains. -/
inductive HasGrains : Unpacked → Sign → Nat → Prop where
  | zero (sign : Sign) : HasGrains (.zero sign) sign 0
  | finite (sign : Sign) {mantissa : Nat} {exponent : Int} (hpositive : 0 < mantissa)
      (hcanonical : IsCanonical mantissa exponent) :
      HasGrains (.finite sign mantissa exponent hpositive) sign
        (mantissa * 2 ^ (exponent + 1074).toNat)

/-- A number of squared grains is rounded to a number of grains without crossing one
that fits a mantissa. -/
structure RoundsTo (exact rounded : Nat) : Prop where
  le : ∀ mantissa scale, mantissa < 2 ^ 53 → exact ≤ mantissa * 2 ^ (scale + 1074) →
    rounded ≤ mantissa * 2 ^ scale
  ge : ∀ mantissa scale, mantissa < 2 ^ 53 → mantissa * 2 ^ (scale + 1074) ≤ exact →
    mantissa * 2 ^ scale ≤ rounded

theorem RoundsTo.eq {exact rounded mantissa scale : Nat} (hrounds : RoundsTo exact rounded)
    (hmantissa : mantissa < 2 ^ 53) (hexact : exact = mantissa * 2 ^ (scale + 1074)) :
    rounded = mantissa * 2 ^ scale :=
  (hrounds.le mantissa scale hmantissa hexact.le).antisymm
    (hrounds.ge mantissa scale hmantissa hexact.ge)

/-- The rounded mantissa of a number, scaled to grains. -/
theorem roundsTo_roundedShift {mantissa count low scale : Nat} (hpositive : 0 < mantissa)
    (hsum : low + count = scale + 1074) (hnormal : 0 < scale → mantissa.log2 = 52 + count) :
    RoundsTo (mantissa * 2 ^ low) (roundedShift mantissa count * 2 ^ scale) where
  le := by
    intro bound grain hbound hexact
    cases Nat.lt_or_ge grain scale with
    | inl hgrain =>
        -- Above the lowest exponent the number has more bits than the bound.
        have hbits := Nat.log2_self_le hpositive.ne'
        rw [hnormal (by omega)] at hbits
        have hcontra : 2 ^ (52 + count + low) ≤ bound * 2 ^ (grain + 1074) := by
          rw [pow_add]
          exact (Nat.mul_le_mul_right _ hbits).trans hexact
        have hupper := mul_two_pow_lt hbound (grain + 1074)
        have hexponents := (Nat.pow_lt_pow_iff_right (by decide)).mp (hcontra.trans_lt hupper)
        omega
    | inr hgrain =>
        obtain ⟨extra, rfl⟩ := Nat.exists_eq_add_of_le hgrain
        rw [show scale + extra + 1074 = extra + (count + low) by omega, pow_add, pow_add,
          ← Nat.mul_assoc, ← Nat.mul_assoc] at hexact
        have hquotient := roundedShift_le (Nat.le_of_mul_le_mul_right hexact (Nat.two_pow_pos low))
        calc
          roundedShift mantissa count * 2 ^ scale
              ≤ bound * 2 ^ extra * 2 ^ scale := Nat.mul_le_mul_right _ hquotient
          _ = bound * 2 ^ (scale + extra) := by rw [Nat.mul_assoc, ← pow_add, Nat.add_comm]
  ge := by
    intro bound grain hbound hexact
    cases Nat.lt_or_ge grain scale with
    | inl hgrain =>
        have hbits := Nat.log2_self_le hpositive.ne'
        rw [hnormal (by omega), pow_add] at hbits
        calc
          bound * 2 ^ grain
              ≤ 2 ^ 53 * 2 ^ grain := Nat.mul_le_mul_right _ hbound.le
          _ = 2 ^ 52 * 2 ^ (grain + 1) := by rw [← pow_add, ← pow_add]; congr 1; omega
          _ ≤ 2 ^ 52 * 2 ^ scale := Nat.mul_le_mul_left _ (Nat.pow_le_pow_right (by decide) hgrain)
          _ ≤ roundedShift mantissa count * 2 ^ scale :=
            Nat.mul_le_mul_right _ (le_roundedShift hbits)
    | inr hgrain =>
        obtain ⟨extra, rfl⟩ := Nat.exists_eq_add_of_le hgrain
        rw [show scale + extra + 1074 = extra + (count + low) by omega, pow_add, pow_add,
          ← Nat.mul_assoc, ← Nat.mul_assoc] at hexact
        have hquotient := le_roundedShift (Nat.le_of_mul_le_mul_right hexact (Nat.two_pow_pos low))
        calc
          bound * 2 ^ (scale + extra)
              = bound * 2 ^ extra * 2 ^ scale := by
            rw [Nat.mul_assoc, ← pow_add, Nat.add_comm extra]
          _ ≤ roundedShift mantissa count * 2 ^ scale := Nat.mul_le_mul_right _ hquotient

/-- The outcome of rounding to a mantissa at an exponent: it moves to the next exponent where
rounding up has filled the mantissa. -/
inductive Rounded (sign : Sign) (rounded : Nat) (exponent : Int) : Unpacked → Prop where
  | zero (hzero : rounded = 0) : Rounded sign rounded exponent (.zero sign)
  | kept (hpositive : 0 < rounded) (hlt : rounded < 2 ^ 53) :
      Rounded sign rounded exponent (.finite sign rounded exponent hpositive)
  | carried (hfull : rounded = 2 ^ 53) :
      Rounded sign rounded exponent (.finite sign (2 ^ 52) (exponent + 1) (by decide))

section RoundWithAccuracy

variable {mantissa count : Nat} {exponent : Int}

theorem roundedShift_le_full (hbits : mantissa.log2 ≤ 52 + count) :
    roundedShift mantissa count ≤ 2 ^ 53 := by
  apply roundedShift_le
  rw [← pow_add]
  exact Nat.lt_log2_self.le.trans (Nat.pow_le_pow_right (by decide) (by omega))

theorem full_le_roundedShift (hpositive : 0 < mantissa) (hbits : 52 + count ≤ mantissa.log2) :
    2 ^ 52 ≤ roundedShift mantissa count := by
  apply le_roundedShift
  rw [← pow_add]
  exact (Nat.pow_le_pow_right (by decide) hbits).trans (Nat.log2_self_le hpositive.ne')

theorem rounded_roundWithAccuracy (sign : Sign)
    (htarget : exponent + count = max (mantissa.log2 + exponent - 52) (-1074)) :
    Rounded sign (roundedShift mantissa count) (exponent + count)
      (roundWithAccuracy Format.binary64 sign mantissa exponent .exact) := by
  have hfull : roundedShift mantissa count ≤ 2 ^ 53 := roundedShift_le_full (by omega)
  rw [roundWithAccuracy, shiftToTargetExponent_eq htarget]
  change Rounded sign _ _ (match shiftToTargetExponent Format.binary64
      (roundedShift mantissa count) (exponent + count) .exact with
    | (final, exponent) => if h : final.mantissa = 0 then .zero sign
        else .finite sign final.mantissa exponent (Nat.pos_of_ne_zero h))
  cases hfull.lt_or_eq with
  | inl hlt =>
      rw [shiftToTargetExponent_of_lt hlt (by omega)]
      dsimp only
      split
      case isTrue hzero => exact .zero hzero
      case isFalse hne => exact .kept (Nat.pos_of_ne_zero hne) hlt
  | inr heq =>
      have hnext := shiftToTargetExponent_eq
        (by rw [Nat.log2_two_pow]; omega : exponent + count + (1 : Nat) =
          max ((2 ^ 53 : Nat).log2 + (exponent + count) - 52) (-1074))
      rw [heq, hnext]
      exact .carried rfl

/-- A number with enough bits is rounded to a full mantissa. -/
theorem exists_roundWithAccuracy_of_full (sign : Sign) (hmantissa : 52 ≤ mantissa.log2)
    (hexponent : -1074 ≤ mantissa.log2 + exponent - 52) :
    ∃ rounded exponent' hpositive,
      roundWithAccuracy Format.binary64 sign mantissa exponent .exact =
        .finite sign rounded exponent' hpositive ∧
      2 ^ 52 ≤ rounded ∧ rounded < 2 ^ 53 ∧ mantissa.log2 + exponent - 52 ≤ exponent' := by
  have hpositive : 0 < mantissa := by
    by_contra hzero
    rw [Nat.eq_zero_of_not_pos hzero] at hmantissa
    exact absurd hmantissa (by decide)
  obtain ⟨count, hcount⟩ := Nat.exists_eq_add_of_le hmantissa
  have hfull := full_le_roundedShift hpositive hcount.ge
  have hrounded := rounded_roundWithAccuracy sign
    (by omega : exponent + count = max (mantissa.log2 + exponent - 52) (-1074))
  generalize roundWithAccuracy Format.binary64 sign mantissa exponent .exact = number at hrounded
  cases hrounded with
  | zero hzero => exact absurd (hzero ▸ hfull) (by decide)
  | kept hpositive hlt => exact ⟨_, _, hpositive, rfl, hfull, hlt, by omega⟩
  | carried heq => exact ⟨_, _, by decide, rfl, le_rfl, by decide, by omega⟩

end RoundWithAccuracy

/-- A number is rounded to its sign and its rounded number of grains, where that is in
range. -/
theorem exists_hasGrains_roundWithAccuracy (sign : Sign) {mantissa low : Nat}
    (hpositive : 0 < mantissa) (hlow : 52 ≤ mantissa.log2 ∨ low ≤ 1074)
    (hhigh : mantissa.log2 + low ≤ 3170) :
    ∃ rounded, HasGrains
        (roundWithAccuracy Format.binary64 sign mantissa ((low : Int) - 2148) .exact)
        sign rounded ∧
      RoundsTo (mantissa * 2 ^ low) rounded := by
  obtain ⟨scale, hscale⟩ : ∃ scale, scale = mantissa.log2 + low - 1126 := ⟨_, rfl⟩
  obtain ⟨count, hcount⟩ : ∃ count, low + count = scale + 1074 :=
    ⟨scale + 1074 - low, by omega⟩
  have hexponent : (low : Int) - 2148 + count = scale - 1074 := by omega
  have hrounds := roundsTo_roundedShift hpositive hcount (fun _ => by omega)
  have hrounded := rounded_roundWithAccuracy sign
    (by omega : (low : Int) - 2148 + count =
      max (mantissa.log2 + ((low : Int) - 2148) - 52) (-1074))
  rw [hexponent] at hrounded
  refine ⟨_, ?_, hrounds⟩
  generalize roundWithAccuracy Format.binary64 sign mantissa ((low : Int) - 2148) .exact = number
    at hrounded
  cases hrounded with
  | zero hzero =>
      rw [hzero, Nat.zero_mul]
      exact .zero sign
  | kept hkept hlt =>
      have hnormal : 0 < scale → 2 ^ 52 ≤ roundedShift mantissa count :=
        fun _ => full_le_roundedShift hpositive (by omega)
      have hgrains := HasGrains.finite sign hkept
        ⟨hlt, (by omega : -1074 ≤ (scale : Int) - 1074), by omega, by omega⟩
      rwa [Int.sub_add_cancel, Int.toNat_natCast] at hgrains
  | carried heq =>
      have hgrains := HasGrains.finite sign (by decide : 0 < 2 ^ 52)
        ⟨by decide, (by omega : -1074 ≤ (scale : Int) - 1074 + 1), by omega, .inl le_rfl⟩
      rw [heq]
      rwa [show ((scale : Int) - 1074 + 1 + 1074).toNat = 1 + scale by omega, pow_add,
        ← Nat.mul_assoc] at hgrains

end Glottis.Binary64
