import Mathlib
import Glottis.Binary64
import Glottis.Wave.Reader
import Glottis.Wave.Writer
import Glottis.Proofs.Binary64Values

/-!
# Pulse codes of samples

A sample is written with the largest code as its scale and cut off toward zero, while a
code is read as a fraction of two to the power of fifteen.  The two scales differ by one
code at full scale, so a code that is read and written again has moved one step toward
zero.  Neither the product of the writer nor that of the reader hides this: the products
of codes are exact in binary64.
-/

namespace Glottis.Wave

open Float.Model.UnpackedFloat (Sign)
open Binary64

variable {value : Float} {sign : Sign} {grains : Nat}

/-- A code moved some steps toward zero, where it stays. -/
def towardZero (steps : Nat) (code : Int) : Int := code.sign * ((code.natAbs - steps : Nat) : Int)

@[simp]
theorem towardZero_zero (code : Int) : towardZero 0 code = code := Int.sign_mul_natAbs code

theorem natAbs_towardZero (steps : Nat) (code : Int) :
    (towardZero steps code).natAbs = code.natAbs - steps := by
  rw [towardZero, Int.natAbs_mul, Int.natAbs_natCast, Int.natAbs_sign]
  split <;> omega

theorem towardZero_towardZero (steps steps' : Nat) (code : Int) :
    towardZero steps' (towardZero steps code) = towardZero (steps + steps') code := by
  rw [towardZero, natAbs_towardZero, towardZero, towardZero, Int.sign_mul, Int.sign_sign,
    Nat.sub_sub]
  cases Nat.eq_zero_or_pos (code.natAbs - steps) with
  | inl hzero =>
      rw [hzero, show code.natAbs - (steps + steps') = 0 by omega]
      simp
  | inr hpositive =>
      rw [Int.sign_natCast_of_ne_zero hpositive.ne', mul_one]

theorem towardZero_one_eq_self_iff (code : Int) : towardZero 1 code = code ↔ code = 0 := by
  constructor
  · intro hfixed
    have hsize := congrArg Int.natAbs hfixed
    rw [natAbs_towardZero] at hsize
    omega
  · rintro rfl
    rfl

theorem natAbs_apply (sign : Sign) (count : Nat) : (sign.apply count).natAbs = count := by
  cases sign with
  | negative => exact Int.natAbs_neg count
  | positive => rfl

theorem towardZero_apply (sign : Sign) (steps count : Nat) :
    towardZero steps (sign.apply count) = sign.apply ((count - steps : Nat) : Int) := by
  rw [towardZero, natAbs_apply]
  cases Nat.eq_zero_or_pos count with
  | inl hzero =>
      rw [hzero, Nat.zero_sub]
      cases sign <;> rfl
  | inr hpositive =>
      have hsign := Int.sign_natCast_of_ne_zero hpositive.ne'
      cases sign with
      | negative => rw [Sign.apply, Int.sign_neg, hsign, neg_one_mul, Sign.apply]
      | positive => rw [Sign.apply, hsign, one_mul, Sign.apply]

/-! ## Writing a sample -/

theorem isValue_fullScale : IsValue 1 .positive one := by
  have hvalue := isValue_ofNat (by decide : 1 < 2 ^ 53)
  rwa [Nat.one_mul] at hvalue

theorem isValue_scale : IsValue 32767.0 .positive (32767 * one) := by
  have hunpack : (32767.0 : Float).toModel.unpack =
      .finite .positive (32767 * 2 ^ 38) (-38) (by decide) := rfl
  have hvalue := isValue_of_unpack hunpack
  rw [one]
  rwa [mul_two_pow_mul_two_pow, show 38 + ((-38 : Int) + 1074).toNat = 1074 from rfl] at hvalue

/-- A sample within full scale is not clamped. -/
theorem clamp_of_le (hvalue : IsValue value sign grains) (hbound : grains ≤ one) :
    clamp value = value := by
  have hbelow : ¬ value < -1 := by
    rw [hvalue.lt_iff isValue_fullScale.neg]
    cases sign <;> simp only [Sign.apply] <;> omega
  have habove : ¬ 1 < value := by
    rw [isValue_fullScale.lt_iff hvalue]
    cases sign <;> simp only [Sign.apply] <;> omega
  exact (if_neg hbelow).trans (if_neg habove)

/-- A clamped sample is undefined or within full scale. -/
theorem clamp_undefined_or_le (value : Float) :
    (clamp value).toModel.unpack = .notANumber ∨
      ∃ sign grains, IsValue (clamp value) sign grains ∧ grains ≤ one := by
  by_cases hbelow : value < -1
  · have hclamp : clamp value = -1 := if_pos hbelow
    rw [hclamp]
    exact .inr ⟨_, one, isValue_fullScale.neg, le_rfl⟩
  · by_cases habove : 1 < value
    · have hclamp : clamp value = 1 := (if_neg hbelow).trans (if_pos habove)
      rw [hclamp]
      exact .inr ⟨_, one, isValue_fullScale, le_rfl⟩
    · have hclamp : clamp value = value := (if_neg hbelow).trans (if_neg habove)
      rw [hclamp]
      rcases undefined_or_infinite_or_isValue value with hundefined | ⟨sign, hinfinite⟩ |
        ⟨sign, grains, hvalue⟩
      · exact .inl hundefined
      · cases sign with
        | negative => exact absurd (isValue_fullScale.neg.lt_of_negative_infinity hinfinite) hbelow
        | positive => exact absurd (isValue_fullScale.lt_of_infinity hinfinite) habove
      · refine .inr ⟨sign, grains, hvalue, ?_⟩
        rw [hvalue.lt_iff isValue_fullScale.neg] at hbelow
        rw [isValue_fullScale.lt_iff hvalue] at habove
        cases sign with
        | negative => exact Nat.cast_le.mp (neg_le_neg_iff.mp (not_lt.mp hbelow))
        | positive => exact Nat.cast_le.mp (not_lt.mp habove)

/-- The code of a sample within full scale is cut off from a number that is rounded
once. -/
theorem exists_truncateInt_scaled (hvalue : IsValue value sign grains) (hbound : grains ≤ one) :
    ∃ rounded, RoundsTo (grains * (32767 * one)) rounded ∧ rounded / one ≤ 32767 ∧
      Scalar.truncateInt (value * 32767.0) = sign.apply ((rounded / one : Nat) : Int) := by
  have hlimit : grains * (32767 * one) ≤ 32767 * 2 ^ (1074 + 1074) := by
    rw [one] at hbound ⊢
    rw [pow_add, Nat.mul_left_comm]
    exact Nat.mul_le_mul_left _ (Nat.mul_le_mul_right _ hbound)
  have hbits := hlimit.trans_lt (mul_two_pow_lt (by decide : 32767 < 2 ^ 15) (1074 + 1074))
  obtain ⟨rounded, hproduct, hrounds⟩ := hvalue.exists_mul isValue_scale (by decide) hbits
  rw [mul_positive] at hproduct
  have hcode : rounded / one ≤ 32767 := by
    rw [one]
    apply Nat.div_le_of_le_mul
    rw [Nat.mul_comm]
    exact hrounds.le 32767 1074 (by decide) hlimit
  exact ⟨rounded, hrounds, hcode, hproduct.truncateInt (hcode.trans_lt (by decide))⟩

/-- No sample has the lowest code of sixteen bits. -/
theorem natAbs_pulseCode_le (value : Float) : (pulseCode value).natAbs ≤ 32767 := by
  rcases clamp_undefined_or_le value with hundefined | ⟨sign, grains, hvalue, hbound⟩
  · have hproduct := unpack_mul_of_undefined hundefined 32767.0
    rw [pulseCode, truncateInt_of_undefined hproduct]
    decide
  · obtain ⟨rounded, -, hcode, htruncate⟩ := exists_truncateInt_scaled hvalue hbound
    rw [pulseCode, htruncate, natAbs_apply]
    exact hcode

/-! ## Reading a code -/

theorem isValue_ofInt {code : Int} (hcode : code.natAbs ≤ 32768) :
    ∃ sign : Sign, sign.apply code.natAbs = code ∧
      IsValue (Scalar.ofInt code) sign (code.natAbs * one) := by
  cases code with
  | ofNat count =>
      exact ⟨.positive, rfl, isValue_ofNat (hcode.trans_lt (by decide))⟩
  | negSucc count =>
      have hvalue := isValue_ofNat (hcode.trans_lt (by decide : 32768 < 2 ^ 53))
      exact ⟨.negative, rfl, hvalue.neg⟩

/-- A code is read as the exact fraction of two to the power of fifteen. -/
theorem isValue_ofCode {code : Int} (hcode : code.natAbs ≤ 32768) :
    ∃ sign : Sign, sign.apply code.natAbs = code ∧
      IsValue (ofCode 16 code) sign (code.natAbs * 2 ^ 1059) := by
  obtain ⟨sign, hsign, hvalue⟩ := isValue_ofInt hcode
  have hunpack : ((1 : Float) / Float.ofNat 32768).toModel.unpack =
      .finite .positive (2 ^ 52) (-67) (by decide) := rfl
  have hstep := isValue_of_unpack hunpack
  have hproduct := hvalue.mul_exact hstep (hcode.trans_lt (by decide : 32768 < 2 ^ 53))
    (by decide : 1059 ≤ 2044) (by
      rw [one, Nat.mul_assoc, ← pow_add, ← pow_add,
        show ((-67 : Int) + 1074).toNat = 1007 from rfl])
  rw [mul_positive] at hproduct
  exact ⟨sign, hsign, hproduct⟩

/-- A code that is read and written again has moved one step toward zero. -/
theorem pulseCode_ofCode {code : Int} (hcode : code.natAbs ≤ 32768) :
    pulseCode (ofCode 16 code : Float) = towardZero 1 code := by
  obtain ⟨sign, hsign, hvalue⟩ := isValue_ofCode hcode
  have hbound : code.natAbs * 2 ^ 1059 ≤ one := by
    rw [one, show 1074 = 15 + 1059 from rfl, pow_add]
    exact Nat.mul_le_mul_right _ hcode
  obtain ⟨rounded, hrounds, -, htruncate⟩ := exists_truncateInt_scaled hvalue hbound
  have hexact : code.natAbs * 2 ^ 1059 * (32767 * one) =
      code.natAbs * 32767 * 2 ^ (1059 + 1074) := by
    rw [one, pow_add, Nat.mul_assoc, Nat.mul_left_comm (2 ^ 1059), ← Nat.mul_assoc]
  have hrounded := hrounds.eq (by omega) hexact
  have hwhole : rounded / one = code.natAbs - 1 := by
    rw [hrounded, one, show 1074 = 15 + 1059 from rfl, pow_add,
      Nat.mul_div_mul_right _ _ (Nat.two_pow_pos 1059)]
    omega
  rw [pulseCode, clamp_of_le hvalue hbound, htruncate, hwhole, ← towardZero_apply, hsign]

end Glottis.Wave
