import Mathlib
import Glottis.Proofs.ExactArithmetic
import Glottis.Proofs.SavedRecordings

/-!
# Quantized samples

What a saved recording loses in exact arithmetic.  A sample within full scale is scaled by the
largest code and cut off toward zero, which loses less than one code; the code is read as a
fraction of two to the power of fifteen, which loses at most one more.  Both steps move a
sample toward zero and keep the order of samples.
-/

namespace Glottis

/-! ## Whole parts -/

namespace Scalar

theorem truncate_le {value : ℝ} (hvalue : 0 ≤ value) : (truncate value : ℝ) ≤ value := by
  rw [truncate_real]
  calc
    ((min ⌊value⌋₊ maxIndex : Nat) : ℝ) ≤ ⌊value⌋₊ := by exact_mod_cast Nat.min_le_left _ _
    _ ≤ value := Nat.floor_le hvalue

theorem lt_truncate_add_one {value : ℝ} (hvalue : value < maxIndex) :
    value < truncate value + 1 := by
  have hfloor : ⌊value⌋₊ ≤ maxIndex := Nat.floor_le_of_le hvalue.le
  rw [truncate_real, min_eq_left hfloor]
  exact Nat.lt_floor_add_one value

theorem truncate_mono {value value' : ℝ} (hle : value ≤ value') :
    truncate value ≤ truncate value' :=
  min_le_min_right maxIndex (Nat.floor_mono hle)

theorem truncateInt_of_nonneg {value : ℝ} (hvalue : 0 ≤ value) :
    truncateInt value = truncate value :=
  if_neg (not_lt.mpr hvalue)

theorem truncateInt_neg (value : ℝ) : truncateInt (-value) = -truncateInt value := by
  rcases lt_trichotomy value 0 with hneg | rfl | hpos
  · rw [truncateInt, if_neg (by linarith), truncateInt, if_pos hneg, neg_neg]
  · have hzero : truncateInt (0 : ℝ) = 0 := by
      rw [truncateInt_of_nonneg le_rfl, truncate_real, Nat.floor_zero, Nat.zero_min, Nat.cast_zero]
    rw [neg_zero, hzero, neg_zero]
  · rw [truncateInt, if_pos (by linarith), neg_neg, truncateInt_of_nonneg hpos.le]

/-- The whole part lies between zero and its value. -/
theorem truncateInt_mem (value : ℝ) :
    |(truncateInt value : ℝ)| ≤ |value| ∧ 0 ≤ truncateInt value * value := by
  have hnonneg {size : ℝ} (hsize : 0 ≤ size) :
      |(truncateInt size : ℝ)| ≤ |size| ∧ 0 ≤ truncateInt size * size := by
    rw [truncateInt_of_nonneg hsize, Int.cast_natCast, Nat.abs_cast, abs_of_nonneg hsize]
    exact ⟨truncate_le hsize, by positivity⟩
  cases le_total 0 value with
  | inl hvalue => exact hnonneg hvalue
  | inr hvalue =>
      have hopposite := hnonneg (neg_nonneg.mpr hvalue)
      rwa [truncateInt_neg, Int.cast_neg, abs_neg, abs_neg, neg_mul_neg] at hopposite

/-- Less than one is cut off. -/
theorem abs_sub_truncateInt_lt {value : ℝ} (hvalue : |value| < maxIndex) :
    |value - truncateInt value| < 1 := by
  have hnonneg {size : ℝ} (hsize : 0 ≤ size) (hbound : size < maxIndex) :
      |size - truncateInt size| < 1 := by
    have hlower := truncate_le hsize
    have hupper := lt_truncate_add_one hbound
    rw [truncateInt_of_nonneg hsize, Int.cast_natCast, abs_of_nonneg (by linarith)]
    linarith
  obtain ⟨hlow, hhigh⟩ := abs_lt.mp hvalue
  cases le_total 0 value with
  | inl hsign => exact hnonneg hsign hhigh
  | inr hsign =>
      have hopposite := hnonneg (neg_nonneg.mpr hsign) (by linarith)
      rwa [truncateInt_neg, Int.cast_neg, neg_sub_neg, abs_sub_comm] at hopposite

theorem truncateInt_mono : Monotone (truncateInt : ℝ → Int) := by
  intro value value' hle
  cases lt_or_ge value 0 with
  | inl hneg =>
      cases lt_or_ge value' 0 with
      | inl hneg' =>
          rw [truncateInt, if_pos hneg, truncateInt, if_pos hneg', neg_le_neg_iff, Nat.cast_le]
          exact truncate_mono (neg_le_neg hle)
      | inr hpos' =>
          rw [truncateInt, if_pos hneg, truncateInt_of_nonneg hpos']
          exact (neg_nonpos.mpr (Int.natCast_nonneg _)).trans (Int.natCast_nonneg _)
  | inr hpos =>
      rw [truncateInt_of_nonneg hpos, truncateInt_of_nonneg (hpos.trans hle), Nat.cast_le]
      exact truncate_mono hle

theorem ofInt_real (value : Int) : (ofInt value : ℝ) = value := by
  cases value with
  | ofNat count => exact (Int.cast_natCast count).symm
  | negSucc count => exact (Int.cast_negSucc count).symm

end Scalar

namespace Wave

/-! ## Writing and reading a sample -/

theorem clamp_real (value : ℝ) : clamp value = max (-1) (min 1 value) := by
  rw [clamp]
  split
  case isTrue hbelow => rw [min_eq_right (by linarith), max_eq_left hbelow.le]
  case isFalse hbelow =>
    split
    case isTrue habove => rw [min_eq_left habove.le, max_eq_right (by norm_num)]
    case isFalse habove => rw [min_eq_right (not_lt.mp habove), max_eq_right (not_lt.mp hbelow)]

theorem abs_clamp_le (value : ℝ) : |clamp value| ≤ 1 := by
  rw [clamp_real, abs_le]
  exact ⟨le_max_left _ _, max_le (by norm_num) (min_le_left _ _)⟩

theorem clamp_mono : Monotone (clamp : ℝ → ℝ) := by
  intro value value' hle
  rw [clamp_real, clamp_real]
  exact max_le_max_left _ (min_le_min_left _ hle)

theorem pulseCode_real (value : ℝ) :
    pulseCode value = Scalar.truncateInt (clamp value * 32767) := by
  rw [pulseCode]
  norm_num

theorem ofCode_real (code : Int) : (ofCode 16 code : ℝ) = code / 32768 := by
  have hscale : ((Nat.pow 2 (16 - 1) : Nat) : ℝ) = 32768 := by norm_num
  rw [ofCode, Scalar.ofInt_real, hscale, mul_one_div]

noncomputable def requantized (value : ℝ) : ℝ := ofCode 16 (pulseCode value)

theorem abs_pulseCode_le (value : ℝ) : |(pulseCode value : ℝ)| ≤ 32767 * |clamp value| := by
  have hcode := (Scalar.truncateInt_mem (clamp value * 32767)).1
  rw [abs_mul, abs_of_pos (by norm_num : (0 : ℝ) < 32767)] at hcode
  rwa [pulseCode_real, mul_comm 32767]

/-- No code has more than fifteen bits beside its sign, and minus two to the power of fifteen
is none. -/
theorem pulseCode_natAbs_le (value : ℝ) : (pulseCode value).natAbs ≤ 32767 := by
  have hcode := (abs_pulseCode_le value).trans (mul_le_of_le_one_right (by norm_num)
    (abs_clamp_le value))
  rw [← Int.cast_abs, Int.abs_eq_natAbs] at hcode
  exact_mod_cast hcode

theorem requantized_mono : Monotone requantized := by
  intro value value' hle
  have hscaled : clamp value * 32767 ≤ clamp value' * 32767 :=
    mul_le_mul_of_nonneg_right (clamp_mono hle) (by norm_num)
  have hcodes := Scalar.truncateInt_mono hscaled
  rw [requantized, requantized, ofCode_real, ofCode_real, pulseCode_real, pulseCode_real]
  gcongr

/-- Quantization moves a sample toward zero, by less than two codes. -/
theorem requantized_close (value : ℝ) :
    |requantized value| ≤ |clamp value| ∧ 0 ≤ requantized value * clamp value ∧
      |clamp value - requantized value| < 2 / 32768 ∧
      |requantized value| ≤ 32767 / 32768 := by
  have hclamp := abs_clamp_le value
  have hcode := abs_pulseCode_le value
  have hsame : 0 ≤ pulseCode value * (clamp value * 32767) := by
    rw [pulseCode_real]
    exact (Scalar.truncateInt_mem _).2
  have hcut : |clamp value * 32767 - pulseCode value| < 1 := by
    rw [pulseCode_real]
    apply Scalar.abs_sub_truncateInt_lt
    rw [abs_mul, abs_of_pos (by norm_num : (0 : ℝ) < 32767)]
    norm_num [maxIndex]
    linarith
  have hsize : |requantized value| = |(pulseCode value : ℝ)| / 32768 := by
    rw [requantized, ofCode_real, abs_div, abs_of_pos (by norm_num : (0 : ℝ) < 32768)]
  refine ⟨?_, ?_, ?_, ?_⟩
  · rw [hsize, div_le_iff₀ (by norm_num)]
    linarith [abs_nonneg (clamp value)]
  · rw [requantized, ofCode_real]
    linarith
  · -- One code is cut off by the writer at most, and the sample itself is the part of a code
    -- by which the scales of writer and reader differ.
    have hsplit : clamp value - requantized value =
        ((clamp value * 32767 - pulseCode value) + clamp value) / 32768 := by
      rw [requantized, ofCode_real]
      ring
    rw [hsplit, abs_div, abs_of_pos (by norm_num : (0 : ℝ) < 32768)]
    gcongr
    calc
      |clamp value * 32767 - pulseCode value + clamp value|
          ≤ |clamp value * 32767 - pulseCode value| + |clamp value| := abs_add_le _ _
      _ < 1 + 1 := add_lt_add_of_lt_of_le hcut hclamp
      _ = 2 := one_add_one_eq_two
  · rw [hsize]
    gcongr
    linarith

/-! ## Saved recordings -/

theorem samples_ofPulseCodes (recording : Recording ℝ) :
    (ofPulseCodes recording.sampleRate (pulseCodes recording) : Recording ℝ).samples =
      recording.samples.map requantized := by
  rw [ofPulseCodes, pulseCodes, List.map_map, ← Array.toList_inj, Array.toList_map]
  rfl

/-- A saved recording is loaded with its sample rate and one sample for each of its own, in
their order.  Each one lies between zero and the clamped sample, less than two codes from it and
within the largest code, and the order of two values is kept.  The file holds one code for each
sample, none of them the lowest of sixteen bits. -/
theorem saved_recording_is_close (fileSystem : FileSystem) (path : String)
    (recording : Recording ℝ) (hcreate : fileSystem.checkCreate path = .ok ())
    (hpositive : 1 ≤ recording.sampleRate) (hrate : recording.sampleRate < 2 ^ 31)
    (hsize : 36 + 2 * recording.samples.size < 2 ^ 32) :
    ∃ saved, ∃ loaded : Recording ℝ, encode fileSystem path recording = (saved, .ok ()) ∧
      decode saved path = .ok loaded ∧ loaded.sampleRate = recording.sampleRate ∧
      loaded.samples.size = recording.samples.size ∧
      (∀ index < recording.samples.size,
        let clamped := max (-1) (min 1 (recording.samples.sample index))
        let decoded := loaded.samples.sample index
        |decoded| ≤ |clamped| ∧ 0 ≤ decoded * clamped ∧ |clamped - decoded| < 2 / 32768 ∧
          |decoded| ≤ 32767 / 32768) ∧
      Monotone requantized ∧ loaded.samples = recording.samples.map requantized ∧
      ∃ codes : List Int, saved.read path = .ok (pulseFile recording.sampleRate codes) ∧
        codes.length = recording.samples.size ∧ ∀ code ∈ codes, -32767 ≤ code ∧ code ≤ 32767 := by
  have hlength : (pulseCodes recording).length = recording.samples.size := by
    rw [pulseCodes, List.length_map, Array.length_toList]
  have hcodes : ∀ code ∈ pulseCodes recording, code.natAbs ≤ 32767 := by
    intro code hcode
    obtain ⟨value, -, rfl⟩ := List.mem_map.mp hcode
    exact pulseCode_natAbs_le value
  obtain ⟨saved, hencode, hholds⟩ := encode_of_checkCreate hcreate hpositive hrate
  have hdecode : (decode saved path : Except DecodeError (Recording ℝ)) =
      .ok (ofPulseCodes recording.sampleRate (pulseCodes recording)) := by
    rw [decode, hholds.read]
    exact decodeBytes_pulseFile hrate (by omega) hcodes path
  have hsamples := samples_ofPulseCodes recording
  refine ⟨saved, _, hencode, hdecode, rfl, by rw [hsamples, Array.size_map], ?_,
    requantized_mono, hsamples, pulseCodes recording, hholds.read, hlength, ?_⟩
  · intro index hindex
    dsimp only
    rw [hsamples, Signal.sample_eq_getElem _ (by rwa [Array.size_map]), Array.getElem_map,
      ← Signal.sample_eq_getElem _ hindex, ← clamp_real]
    exact requantized_close _
  · intro code hcode
    have hbound := hcodes code hcode
    omega

/-- A sample within full scale and one beyond it. -/
theorem saved_recording_is_close_of_clipped :
    (⟨[]⟩ : FileSystem).checkCreate "o.wav" = .ok () ∧
      36 + 2 * (#[0.5, -2] : Signal ℝ).size < 2 ^ 32 ∧
      ∃ saved, ∃ loaded : Recording ℝ,
        encode ⟨[]⟩ "o.wav" (⟨#[0.5, -2], 16000⟩ : Recording ℝ) = (saved, .ok ()) ∧
        decode saved "o.wav" = .ok loaded ∧ loaded.samples.size = 2 ∧
        |0.5 - loaded.samples.sample 0| < 2 / 32768 ∧
        |-1 - loaded.samples.sample 1| < 2 / 32768 := by
  have hsize : 36 + 2 * (#[0.5, -2] : Signal ℝ).size < 2 ^ 32 := by decide
  obtain ⟨saved, loaded, hencode, hdecode, _, hloaded, hclose, _⟩ :=
    saved_recording_is_close ⟨[]⟩ "o.wav" (⟨#[0.5, -2], 16000⟩ : Recording ℝ)
      checkCreate_without_entries (by decide) (by decide) hsize
  have hfirst := (hclose 0 (by decide)).2.2.1
  have hsecond := (hclose 1 (by decide)).2.2.1
  have hhalf : max (-1) (min 1 (Signal.sample (#[0.5, -2] : Signal ℝ) 0)) = 0.5 := by
    norm_num [Signal.sample]
  have hclipped : max (-1) (min 1 (Signal.sample (#[0.5, -2] : Signal ℝ) 1)) = -1 := by
    norm_num [Signal.sample]
  rw [hhalf] at hfirst
  rw [hclipped] at hsecond
  exact ⟨checkCreate_without_entries, hsize, saved, loaded, hencode, hdecode, hloaded, hfirst,
    hsecond⟩

end Wave

end Glottis
