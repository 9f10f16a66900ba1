import Mathlib
import Glottis.Extremum
import Glottis.Filter
import Glottis.Proofs.ExactArithmetic

/-!
# Scaled signals

A recording made at another gain is the same signal with every sample multiplied by
a factor.  The factor passes through every linear step, comes out squared of an
energy, and is lost where a signal is normalized or only the signs of differences
matter.
-/

namespace Glottis

theorem mul_nonpos_iff_of_factor_pos {factor value : ℝ} (hfactor : 0 < factor) :
    factor * value ≤ 0 ↔ value ≤ 0 := by
  rw [← not_lt, mul_pos_iff_of_pos_left hfactor, not_lt]

theorem mul_neg_iff_of_factor_pos {factor value : ℝ} (hfactor : 0 < factor) :
    factor * value < 0 ↔ value < 0 := by
  rw [← not_le, mul_nonneg_iff_of_pos_left hfactor, not_le]

theorem sumRange_mul_left (count : Nat) (factor : ℝ) (term : Nat → ℝ) :
    sumRange count (fun index => factor * term index) = factor * sumRange count term := by
  rw [sumRange_eq_sum, sumRange_eq_sum, Finset.mul_sum]

namespace Signal

noncomputable def scaled (signal : Signal ℝ) (factor : ℝ) : Signal ℝ :=
  signal.map (factor * ·)

@[simp]
theorem size_scaled (signal : Signal ℝ) (factor : ℝ) :
    (signal.scaled factor).size = signal.size :=
  Array.size_map

@[simp]
theorem sample_scaled (signal : Signal ℝ) (factor : ℝ) (index : Nat) :
    (signal.scaled factor).sample index = factor * signal.sample index :=
  sample_map signal _ (mul_zero factor) index

theorem scaled_one (signal : Signal ℝ) : signal.scaled 1 = signal := by
  simp [scaled]

theorem scaled_scaled (signal : Signal ℝ) (first second : ℝ) :
    (signal.scaled first).scaled second = signal.scaled (second * first) := by
  rw [scaled, scaled, scaled, Array.map_map]
  congr 1
  funext value
  exact (mul_assoc second first value).symm

theorem scaled_tabulate (length : Nat) (value : Nat → ℝ) (factor : ℝ) :
    (tabulate length value).scaled factor = tabulate length fun index => factor * value index :=
  Array.map_ofFn

theorem tabulate_sample_scaled (length : Nat) (signal : Signal ℝ) (factor : ℝ) :
    tabulate length (signal.scaled factor).sample =
      (tabulate length signal.sample).scaled factor := by
  rw [scaled_tabulate]
  congr 1
  funext index
  exact sample_scaled signal factor index

/-- A map that commutes with the factor can be applied before scaling. -/
theorem map_scaled (signal : Signal ℝ) {f : ℝ → ℝ} {factor : ℝ}
    (hf : ∀ value, f (factor * value) = factor * f value) :
    (signal.scaled factor).map f = Signal.scaled (signal.map f) factor := by
  rw [scaled, scaled, Array.map_map, Array.map_map]
  congr 1
  funext value
  exact hf value

theorem silence_scaled (length : Nat) (factor : ℝ) :
    (silence length : Signal ℝ).scaled factor = silence length := by
  rw [silence, scaled_tabulate, mul_zero]

/-- Only the factor one keeps a signal that is not silent. -/
theorem scaled_eq_self_iff (signal : Signal ℝ) (factor : ℝ) :
    signal.scaled factor = signal ↔ factor = 1 ∨ signal = silence signal.size := by
  constructor
  · intro hscaled
    by_cases hfactor : factor = 1
    · exact .inl hfactor
    · right
      apply ext_sample (size_silence _).symm
      intro index _
      have hsample := sample_scaled signal factor index
      rw [hscaled] at hsample
      rw [silence, sample_tabulate, ite_self]
      exact eq_zero_of_mul_eq_self_left hfactor hsample.symm
  · intro hsame
    cases hsame with
    | inl hfactor => rw [hfactor, scaled_one]
    | inr hsilent => rw [hsilent, silence_scaled]

/-- A factor that each step passes on from the earlier samples to the next one is
passed on by the whole signal. -/
theorem grow_scaled (length : Nat) {next scaledNext : Signal ℝ → Nat → ℝ} {factor : ℝ}
    (hnext : ∀ past index, scaledNext (past.scaled factor) index = factor * next past index) :
    grow length scaledNext = (grow length next).scaled factor := by
  induction length with
  | zero => rw [grow_zero, grow_zero, scaled, Array.map_empty]
  | succ length ih => rw [grow_succ, grow_succ, ih, hnext, scaled, scaled, Array.map_push]

theorem energy_scaled (signal : Signal ℝ) (factor : ℝ) :
    (signal.scaled factor).energy = factor ^ 2 * signal.energy := by
  calc
    (signal.scaled factor).energy
        = ∑ index ∈ Finset.range signal.size, (factor * signal.sample index) ^ 2 := by
      simp only [energy_eq_sum, size_scaled, sample_scaled]
    _ = ∑ index ∈ Finset.range signal.size, factor ^ 2 * signal.sample index ^ 2 := by
      simp only [mul_pow]
    _ = factor ^ 2 * signal.energy := by
      rw [← Finset.mul_sum, energy_eq_sum]

/-! ## The peak -/

theorem peak_eq_foldl_max (signal : Signal ℝ) :
    signal.peak = signal.toList.foldl (fun largest value => max largest |value|) 0 := by
  rw [peak, ← Array.foldl_toList]
  congr 1
  funext largest value
  rw [Scalar.magnitude_real]
  exact (max_def_lt largest |value|).symm

theorem peak_scaled (signal : Signal ℝ) (factor : ℝ) :
    (signal.scaled factor).peak = |factor| * signal.peak := by
  rw [peak_eq_foldl_max, peak_eq_foldl_max, scaled, Array.toList_map, List.foldl_map]
  generalize signal.toList = values
  conv_lhs => rw [← mul_zero |factor|]
  apply List.foldl_hom
  intro largest value
  rw [abs_mul, mul_max_of_nonneg _ _ (abs_nonneg factor)]

/-- A running maximum is at least where it started and at least each magnitude. -/
private theorem le_foldl_max (values : List ℝ) (start : ℝ) :
    start ≤ values.foldl (fun largest value => max largest |value|) start ∧
      ∀ value ∈ values,
        |value| ≤ values.foldl (fun largest value => max largest |value|) start := by
  induction values generalizing start with
  | nil => exact ⟨le_rfl, fun value hvalue => absurd hvalue List.not_mem_nil⟩
  | cons first values ih =>
      obtain ⟨hstart, hvalues⟩ := ih (max start |first|)
      rw [List.foldl_cons]
      refine ⟨(le_max_left _ _).trans hstart, fun value hvalue => ?_⟩
      cases List.mem_cons.mp hvalue with
      | inl hfirst =>
          rw [hfirst]
          exact (le_max_right _ _).trans hstart
      | inr hrest => exact hvalues value hrest

/-- No sample exceeds the peak in magnitude. -/
theorem abs_sample_le_peak (signal : Signal ℝ) (index : Nat) :
    |signal.sample index| ≤ signal.peak := by
  obtain ⟨hzero, hvalues⟩ := le_foldl_max signal.toList 0
  rw [peak_eq_foldl_max]
  cases Nat.lt_or_ge index signal.size with
  | inl hindex =>
      rw [sample_eq_getElem _ hindex]
      exact hvalues _ (Array.getElem_mem_toList hindex)
  | inr hindex => rwa [sample_of_size_le _ hindex, abs_zero]

/-- A bound of every magnitude is one of the peak. -/
theorem peak_le {signal : Signal ℝ} {bound : ℝ} (hbound : 0 ≤ bound)
    (hsamples : ∀ index < signal.size, |signal.sample index| ≤ bound) : signal.peak ≤ bound := by
  have hvalues : ∀ value ∈ signal.toList, |value| ≤ bound := by
    intro value hvalue
    obtain ⟨index, hindex, rfl⟩ := Array.mem_iff_getElem.mp (Array.mem_toList_iff.mp hvalue)
    rw [← sample_eq_getElem _ hindex]
    exact hsamples index hindex
  rw [peak_eq_foldl_max]
  generalize signal.toList = values at hvalues
  generalize (0 : ℝ) = start at hbound
  induction values generalizing start with
  | nil => exact hbound
  | cons value values ih =>
      rw [List.forall_mem_cons] at hvalues
      exact ih hvalues.2 _ (max_le hbound hvalues.1)

/-- A signal without a positive peak is silent. -/
theorem eq_silence_of_peak_le_zero {signal : Signal ℝ} (hpeak : signal.peak ≤ 0) :
    signal = silence signal.size := by
  apply ext_sample
  · rw [size_silence]
  · intro index hindex
    have hzero := (abs_sample_le_peak signal index).trans hpeak
    rw [abs_nonpos_iff.mp hzero, silence, sample_tabulate, ite_self]

/-- Normalization is a division by the peak where there is one. -/
theorem normalize_of_peak_pos {signal : Signal ℝ} (hpeak : 0 < signal.peak) :
    signal.normalize = signal.scaled signal.peak⁻¹ := by
  rw [normalize, if_pos ⟨hpeak, rfl⟩, scaled]
  congr 1
  funext value
  rw [div_eq_inv_mul]

theorem exists_normalize_eq_scaled (signal : Signal ℝ) :
    ∃ factor, 0 < factor ∧ signal.normalize = signal.scaled factor := by
  by_cases hpeak : 0 < signal.peak
  · exact ⟨signal.peak⁻¹, inv_pos.mpr hpeak, normalize_of_peak_pos hpeak⟩
  · refine ⟨1, one_pos, ?_⟩
    rw [normalize, if_neg (fun hscaled => hpeak hscaled.1), scaled_one]

theorem peak_normalize {signal : Signal ℝ} (hpeak : 0 < signal.peak) :
    signal.normalize.peak = 1 := by
  rw [normalize_of_peak_pos hpeak, peak_scaled, abs_of_pos (inv_pos.mpr hpeak),
    inv_mul_cancel₀ hpeak.ne']

theorem normalize_scaled (signal : Signal ℝ) {factor : ℝ} (hfactor : 0 < factor) :
    (signal.scaled factor).normalize = signal.normalize := by
  have hfinite : ∀ value : ℝ, Scalar.isFinite value = true := fun _ => rfl
  simp only [normalize, hfinite, and_true, peak_scaled, abs_of_pos hfactor,
    mul_pos_iff_of_pos_left hfactor]
  split
  case isTrue hpeak =>
    rw [scaled, Array.map_map]
    congr 1
    funext value
    exact mul_div_mul_left value signal.peak hfactor.ne'
  case isFalse hpeak =>
    rw [eq_silence_of_peak_le_zero (not_lt.mp hpeak), silence_scaled]

theorem silence_normalize (length : Nat) :
    (silence length : Signal ℝ).normalize = silence length := by
  obtain ⟨factor, _, hfactor⟩ := exists_normalize_eq_scaled (silence length)
  rw [hfactor, silence_scaled]

end Signal

/-! ## Filters -/

namespace Filter

theorem feedForward_scaled (coefficients signal : Signal ℝ) (factor : ℝ) (index : Nat) :
    feedForward coefficients (signal.scaled factor) index =
      factor * feedForward coefficients signal index := by
  rw [feedForward, feedForward, ← sumRange_mul_left]
  congr 1
  funext delay
  rw [Signal.sample_scaled, mul_left_comm]

theorem fir_scaled (coefficients signal : Signal ℝ) (factor : ℝ) :
    fir coefficients (signal.scaled factor) = (fir coefficients signal).scaled factor := by
  rw [fir, fir, Signal.scaled_tabulate, Signal.size_scaled]
  congr 1
  funext index
  exact feedForward_scaled coefficients signal factor index

theorem recursiveStep_scaled (numerator denominator signal past : Signal ℝ) (factor : ℝ)
    (index : Nat) :
    recursiveStep numerator denominator (signal.scaled factor) (past.scaled factor) index =
      factor * recursiveStep numerator denominator signal past index := by
  rw [recursiveStep, recursiveStep, fold_sub_eq_sub_sum, fold_sub_eq_sub_sum, feedForward_scaled,
    mul_sub, Finset.mul_sum]
  congr 1
  apply Finset.sum_congr rfl
  intro delay _
  rw [Signal.sample_scaled, mul_left_comm, mul_div_assoc]

theorem iir_scaled (numerator denominator signal : Signal ℝ) (factor : ℝ) :
    iir numerator denominator (signal.scaled factor) =
      (iir numerator denominator signal).scaled factor := by
  rw [iir, iir, Signal.size_scaled]
  apply Signal.grow_scaled
  intro past index
  exact recursiveStep_scaled numerator denominator signal past factor index

theorem preEmphasis_scaled (signal : Signal ℝ) (sampleRate frequency factor : ℝ) :
    preEmphasis (signal.scaled factor) sampleRate frequency =
      (preEmphasis signal sampleRate frequency).scaled factor := by
  rw [preEmphasis, preEmphasis]
  split
  case isTrue => rfl
  case isFalse =>
    rw [Signal.size_scaled]
    apply Signal.grow_scaled
    intro past index
    simp only [Signal.sample_scaled]
    split
    case isTrue => rfl
    case isFalse => ring

theorem preEmphasisPasses_scaled (passes : Nat) (signal : Signal ℝ)
    (sampleRate frequency factor : ℝ) :
    preEmphasisPasses passes (signal.scaled factor) sampleRate frequency =
      (preEmphasisPasses passes signal sampleRate frequency).scaled factor := by
  induction passes with
  | zero => rfl
  | succ passes ih =>
      rw [preEmphasisPasses, preEmphasisPasses] at ih ⊢
      rw [Nat.fold_succ, Nat.fold_succ, ih, preEmphasis_scaled]

end Filter

/-! ## Turning points -/

namespace Extremum

theorem slope_scaled (signal : Signal ℝ) (factor : ℝ) (index : Nat) :
    slope (signal.scaled factor) index = factor * slope signal index := by
  rw [slope, slope]
  simp only [Signal.sample_scaled, ← mul_sub]
  split
  case isTrue => rfl
  case isFalse => rfl

theorem bend_scaled (signal : Signal ℝ) (factor : ℝ) (index : Nat) :
    bend (signal.scaled factor) index = factor * bend signal index := by
  simp only [bend, slope_scaled, mul_sub]

/-- A positive factor moves no turning point. -/
theorem find_scaled (signal : Signal ℝ) (extremum : Extremum) {factor : ℝ}
    (hfactor : 0 < factor) :
    find (signal.scaled factor) extremum = find signal extremum := by
  have hturns : ∀ index,
      (slope (signal.scaled factor) index * slope (signal.scaled factor) (index + 1) ≤ 0 ∧
          bend (signal.scaled factor) (index + 1) * extremum.sign < 0) =
        (slope signal index * slope signal (index + 1) ≤ 0 ∧
          bend signal (index + 1) * extremum.sign < 0) := by
    intro index
    rw [slope_scaled, slope_scaled, bend_scaled, mul_mul_mul_comm,
      mul_nonpos_iff_of_factor_pos (mul_pos hfactor hfactor), mul_assoc factor,
      mul_neg_iff_of_factor_pos hfactor]
  simp only [find, Signal.size_scaled, hturns]

theorem find_normalize (signal : Signal ℝ) (extremum : Extremum) :
    find signal.normalize extremum = find signal extremum := by
  obtain ⟨factor, hfactor, hnormalize⟩ := signal.exists_normalize_eq_scaled
  rw [hnormalize, find_scaled signal extremum hfactor]

end Extremum

end Glottis
