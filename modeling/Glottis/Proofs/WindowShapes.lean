import Mathlib
import Glottis.Proofs.Checks
import Glottis.Proofs.WindowWeights

/-!
# Window shapes

Every named window is the same from both ends, lies between zero and one and rises up to its
middle.  The cosine sums fall with the cosine, which falls up to the middle; the Gaussian and the
Kaiser window fall with the distance from the middle.
-/

namespace Glottis.Window

variable {length index : Nat}

/-! ## Cosine sums -/

/-- The phase of a cosine sum goes through half a turn up to the middle. -/
theorem cos_phase_succ_le (hmiddle : index + 1 ≤ (length - 1) / 2) :
    Real.cos (2 * Real.pi * (index + 1 : Nat) / (length - 1 : Nat)) ≤
      Real.cos (2 * Real.pi * index / (length - 1 : Nat)) := by
  have hspan : (0 : ℝ) < (length - 1 : Nat) := Nat.cast_pos.mpr (by omega)
  have hhalf : (2 : ℝ) * (index + 1 : Nat) ≤ (length - 1 : Nat) := by
    exact_mod_cast (by omega : 2 * (index + 1) ≤ length - 1)
  apply Real.cos_le_cos_of_nonneg_of_le_pi
  · have hpi := Real.pi_pos
    positivity
  · rw [div_le_iff₀ hspan]
    calc
      2 * Real.pi * (index + 1 : Nat) = Real.pi * (2 * (index + 1 : Nat)) := by ring
      _ ≤ Real.pi * (length - 1 : Nat) := mul_le_mul_of_nonneg_left hhalf Real.pi_pos.le
  · rw [div_le_div_iff_of_pos_right hspan]
    exact mul_le_mul_of_nonneg_left (Nat.cast_le.mpr (Nat.le_succ index))
      (mul_nonneg zero_le_two Real.pi_pos.le)

theorem weight_two_cosines_le_one {level depth : ℝ} (hdepth : 0 ≤ depth)
    (hsum : level + depth ≤ 1) (length index : Nat) :
    (cosineSum [level, depth]).weight length index ≤ 1 := by
  rw [weight_two_cosines]
  calc
    level - depth * Real.cos (2 * Real.pi * index / (length - 1 : Nat))
        ≤ level - depth * -1 := sub_le_sub_left
          (mul_le_mul_of_nonneg_left (Real.neg_one_le_cos _) hdepth) level
    _ ≤ 1 := by linarith

theorem weight_two_cosines_le_succ {level depth : ℝ} (hdepth : 0 ≤ depth)
    (hmiddle : index + 1 ≤ (length - 1) / 2) :
    (cosineSum [level, depth]).weight length index ≤
      (cosineSum [level, depth]).weight length (index + 1) := by
  rw [weight_two_cosines, weight_two_cosines]
  exact sub_le_sub_left (mul_le_mul_of_nonneg_left (cos_phase_succ_le hmiddle) hdepth) level

/-- The four terms of the Blackman-Harris window fall with the cosine. -/
theorem blackmanHarrisAt_antitone {cosine cosine' : ℝ} (hle : cosine ≤ cosine')
    (hcosine' : cosine' ≤ 1) : blackmanHarrisAt cosine' ≤ blackmanHarrisAt cosine := by
  have hslope : 0 ≤ 0.45325 - 0.28256 * (cosine' + cosine) +
      0.04672 * (cosine' ^ 2 + cosine' * cosine + cosine ^ 2) := by
    nlinarith [sq_nonneg (cosine' - cosine), sq_nonneg (cosine' + cosine - 2)]
  have hdifference : blackmanHarrisAt cosine - blackmanHarrisAt cosine' =
      (cosine' - cosine) * (0.45325 - 0.28256 * (cosine' + cosine) +
        0.04672 * (cosine' ^ 2 + cosine' * cosine + cosine ^ 2)) := by
    rw [blackmanHarrisAt, blackmanHarrisAt]
    ring
  rw [← sub_nonneg, hdifference]
  exact mul_nonneg (sub_nonneg.mpr hle) hslope

theorem weight_blackmanHarris_le_one (length index : Nat) :
    (WindowKind.blackmanHarris.shape : Window ℝ).weight length index ≤ 1 := by
  rw [weight_blackmanHarris_eq]
  calc
    blackmanHarrisAt (Real.cos (2 * Real.pi * index / (length - 1 : Nat)))
        ≤ blackmanHarrisAt (-1) :=
          blackmanHarrisAt_antitone (Real.neg_one_le_cos _) (Real.cos_le_one _)
    _ ≤ 1 := by norm_num [blackmanHarrisAt]

theorem weight_blackmanHarris_le_succ (hmiddle : index + 1 ≤ (length - 1) / 2) :
    (WindowKind.blackmanHarris.shape : Window ℝ).weight length index ≤
      (WindowKind.blackmanHarris.shape : Window ℝ).weight length (index + 1) := by
  rw [weight_blackmanHarris_eq, weight_blackmanHarris_eq]
  exact blackmanHarrisAt_antitone (cos_phase_succ_le hmiddle) (Real.cos_le_one _)

/-! ## The distance from the middle -/

noncomputable def middle (length : Nat) : ℝ := ((length : ℝ) - 1) / 2.0

noncomputable def offset (length index : Nat) : ℝ := (index : ℝ) - middle length

theorem middle_eq (length : Nat) : middle length = ((length : ℝ) - 1) / 2 := by
  norm_num [middle]

theorem offset_symm (hindex : index < length) :
    offset length (length - 1 - index) = -offset length index := by
  have hplace : ((length - 1 - index : Nat) : ℝ) = (length : ℝ) - 1 - index := by
    rw [Nat.cast_sub (Nat.le_sub_one_of_lt hindex), Nat.cast_sub (by omega), Nat.cast_one]
  rw [offset, offset, hplace, middle_eq]
  ring

theorem sq_offset_succ_le (hmiddle : index + 1 ≤ (length - 1) / 2) :
    offset length (index + 1) ^ 2 ≤ offset length index ^ 2 := by
  have hhalf : (2 : ℝ) * (index + 1) + 1 ≤ length := by
    exact_mod_cast (by omega : 2 * (index + 1) + 1 ≤ length)
  rw [sq_le_sq, offset, offset, middle_eq, Nat.cast_succ, abs_of_nonpos (by linarith),
    abs_of_nonpos (by linarith)]
  linarith

/-! ## The Gaussian -/

/-- The Gaussian before its edges are pulled down, at a squared distance from the middle. -/
noncomputable def bell (length : Nat) (square : ℝ) : ℝ :=
  Real.exp (-(48 * square / ((length : ℝ) + 1) ^ 2))

theorem weight_gaussian (length index : Nat) :
    (gaussian : Window ℝ).weight length index =
      (bell length (offset length index ^ 2) - Real.exp (-12)) / (1 - Real.exp (-12)) := by
  have htwo : (2.0 : ℝ) = 2 := by norm_num
  have hscale : (48.0 : ℝ) = 48 := by norm_num
  have hexponent : -48.0 * ((index : ℝ) - ((length : ℝ) - 1) / 2.0) *
      ((index : ℝ) - ((length : ℝ) - 1) / 2.0) /
        (((length + 1 : Nat) : ℝ) * ((length + 1 : Nat) : ℝ)) =
      -(48 * offset length index ^ 2 / ((length : ℝ) + 1) ^ 2) := by
    rw [offset, middle_eq, htwo, hscale, ← neg_div, Nat.cast_succ]
    congr 1 <;> ring
  simp only [weight, Scalar.exp, hexponent, bell]
  norm_num

theorem bell_antitone (length : Nat) {square square' : ℝ} (hle : square ≤ square') :
    bell length square' ≤ bell length square := by
  rw [bell, bell, Real.exp_le_exp, neg_le_neg_iff]
  gcongr

theorem one_sub_edge_pos : 0 < 1 - Real.exp (-12) :=
  sub_pos.mpr (Real.exp_lt_one_iff.mpr (by norm_num))

theorem weight_gaussian_le_one (length index : Nat) :
    (gaussian : Window ℝ).weight length index ≤ 1 := by
  have hpeak : bell length (offset length index ^ 2) ≤ 1 := by
    calc
      bell length (offset length index ^ 2) ≤ bell length 0 := bell_antitone length (sq_nonneg _)
      _ = 1 := by simp [bell]
  rw [weight_gaussian, div_le_one one_sub_edge_pos]
  exact sub_le_sub_right hpeak _

theorem weight_gaussian_le_succ (hmiddle : index + 1 ≤ (length - 1) / 2) :
    (gaussian : Window ℝ).weight length index ≤
      (gaussian : Window ℝ).weight length (index + 1) := by
  rw [weight_gaussian, weight_gaussian, div_le_div_iff_of_pos_right one_sub_edge_pos]
  exact sub_le_sub_right (bell_antitone length (sq_offset_succ_le hmiddle)) _

/-! ## The Kaiser window -/

/-- The polynomial approximation has positive coefficients, so it rises. -/
theorem bessel_mono {value value' : ℝ} (hvalue : 0 ≤ value) (hle : value ≤ value')
    (hbound : value' < 3.75) : bessel value ≤ bessel value' := by
  have hsmall : value < 3.75 := hle.trans_lt hbound
  have hvalue' : 0 ≤ value' := hvalue.trans hle
  simp only [bessel, Scalar.magnitude_real, abs_of_nonneg hvalue, abs_of_nonneg hvalue',
    if_pos hsmall, if_pos hbound]
  gcongr

noncomputable def radius (length index : Nat) : ℝ :=
  √(max 0 (1 - offset length index ^ 2 / middle length ^ 2))

theorem weight_kaiser (length index : Nat) :
    (WindowKind.kaiser.shape : Window ℝ).weight length index =
      bessel (0.5 * radius length index) / bessel 0.5 := by
  have hsquare : ((index : ℝ) - ((length : ℝ) - 1) / 2.0) / (((length : ℝ) - 1) / 2.0) *
      (((index : ℝ) - ((length : ℝ) - 1) / 2.0) / (((length : ℝ) - 1) / 2.0)) =
        offset length index ^ 2 / middle length ^ 2 := by
    rw [← sq, div_pow, offset, middle]
  simp only [WindowKind.shape, weight, Scalar.sqrt, hsquare, radius]
  congr 4
  split
  case isTrue hinside => rw [max_eq_right hinside.le]
  case isFalse houtside => rw [max_eq_left (not_lt.mp houtside)]

theorem radius_nonneg (length index : Nat) : 0 ≤ radius length index := Real.sqrt_nonneg _

theorem radius_le_one (length index : Nat) : radius length index ≤ 1 := by
  apply Real.sqrt_le_one.mpr
  apply max_le zero_le_one
  have hdistance : 0 ≤ offset length index ^ 2 / middle length ^ 2 := by positivity
  linarith

theorem radius_le_succ (hmiddle : index + 1 ≤ (length - 1) / 2) :
    radius length index ≤ radius length (index + 1) := by
  rw [radius, radius]
  have hdistance := sq_offset_succ_le hmiddle
  gcongr

theorem bessel_half_pos : (0 : ℝ) < bessel 0.5 :=
  bessel_pos (by norm_num)

theorem weight_kaiser_le_one (length index : Nat) :
    (WindowKind.kaiser.shape : Window ℝ).weight length index ≤ 1 := by
  have hnonneg := radius_nonneg length index
  have hradius := radius_le_one length index
  rw [weight_kaiser, div_le_one bessel_half_pos]
  exact bessel_mono (by positivity) (by linarith) (by norm_num)

theorem weight_kaiser_le_succ (hmiddle : index + 1 ≤ (length - 1) / 2) :
    (WindowKind.kaiser.shape : Window ℝ).weight length index ≤
      (WindowKind.kaiser.shape : Window ℝ).weight length (index + 1) := by
  have hnonneg := radius_nonneg length index
  have hradius := radius_le_succ hmiddle
  have hbound := radius_le_one length (index + 1)
  rw [weight_kaiser, weight_kaiser, div_le_div_iff_of_pos_right bessel_half_pos]
  exact bessel_mono (by positivity) (by linarith) (by linarith)

end Glottis.Window

namespace Glottis.WindowKind

variable {length index : Nat}

/-- A named window is the same from both ends. -/
theorem weight_symm (kind : WindowKind) (hlength : 2 ≤ length) (hindex : index < length) :
    (kind.shape : Window ℝ).weight length (length - 1 - index) =
      (kind.shape : Window ℝ).weight length index := by
  cases kind with
  | hamming | hanning | blackmanHarris => exact Window.weight_cosineSum_symm _ hlength hindex
  | gaussian =>
      rw [shape, Window.weight_gaussian, Window.weight_gaussian, Window.offset_symm hindex, neg_sq]
  | kaiser =>
      rw [Window.weight_kaiser, Window.weight_kaiser, Window.radius, Window.radius,
        Window.offset_symm hindex, neg_sq]

/-- No weight of a named window exceeds one. -/
theorem weight_le_one (kind : WindowKind) (length index : Nat) :
    (kind.shape : Window ℝ).weight length index ≤ 1 := by
  cases kind with
  | hamming => exact Window.weight_two_cosines_le_one (by norm_num) (by norm_num) length index
  | hanning => exact Window.weight_two_cosines_le_one (by norm_num) (by norm_num) length index
  | blackmanHarris => exact Window.weight_blackmanHarris_le_one length index
  | gaussian => exact Window.weight_gaussian_le_one length index
  | kaiser => exact Window.weight_kaiser_le_one length index

/-- A named window rises up to its middle. -/
theorem weight_le_succ (kind : WindowKind) (hmiddle : index + 1 ≤ (length - 1) / 2) :
    (kind.shape : Window ℝ).weight length index ≤
      (kind.shape : Window ℝ).weight length (index + 1) := by
  cases kind with
  | hamming => exact Window.weight_two_cosines_le_succ (by norm_num) hmiddle
  | hanning => exact Window.weight_two_cosines_le_succ (by norm_num) hmiddle
  | blackmanHarris => exact Window.weight_blackmanHarris_le_succ hmiddle
  | gaussian => exact Window.weight_gaussian_le_succ hmiddle
  | kaiser => exact Window.weight_kaiser_le_succ hmiddle

theorem generate_eq_ok (kind : WindowKind) (hlength : 2 ≤ length) :
    (kind.generate length : Except (AnalysisError ℝ) (Signal ℝ)) =
      .ok (.tabulate length (kind.shape.weight length)) := by
  rw [generate, Window.generate, Window.checkLength, require_bind_of (decide_eq_true hlength)]
  rfl

theorem sample_tabulate_weight (kind : WindowKind) (hindex : index < length) :
    Signal.sample (Signal.tabulate length ((kind.shape : Window ℝ).weight length)) index =
      kind.shape.weight length index := by
  rw [Signal.sample_tabulate, if_pos hindex]

/-- A window of at least two samples exists for every kind, has the asked length, is the same from
both ends, lies between zero and one and rises up to its middle; it is stored wherever a vector can
have its length.  A shorter window is refused as a precondition. -/
theorem generated_window_symmetric_bounded_unimodal (kind : WindowKind) (length : Nat) :
    (2 ≤ length → ∃ window : Signal ℝ, kind.generate length = .ok window ∧
      (length ≤ maxLength → kind.shape.generateStored length = .ok window) ∧
      window.size = length ∧
      (∀ index < length, window.sample index = window.sample (length - 1 - index)) ∧
      (∀ index < length, window.sample index ∈ Set.Icc 0 1) ∧
      ∀ index, index + 1 ≤ (length - 1) / 2 → window.sample index ≤ window.sample (index + 1)) ∧
    (length < 2 → ∃ cause : AnalysisError ℝ,
      kind.generate length = .error cause ∧ cause.kind = .precondition) := by
  constructor
  · intro hlength
    refine ⟨_, kind.generate_eq_ok hlength, ?_, Signal.size_tabulate _ _, ?_, ?_, ?_⟩
    · intro hstored
      rw [Window.generateStored, if_neg (not_lt.mpr hstored)]
      exact kind.generate_eq_ok hlength
    · intro index hindex
      rw [kind.sample_tabulate_weight hindex, kind.sample_tabulate_weight (by omega),
        kind.weight_symm hlength hindex]
    · intro index hindex
      rw [kind.sample_tabulate_weight hindex]
      exact ⟨kind.weight_nonneg hindex, kind.weight_le_one length index⟩
    · intro index hmiddle
      rw [kind.sample_tabulate_weight (by omega), kind.sample_tabulate_weight (by omega)]
      exact kind.weight_le_succ hmiddle
  · intro hshort
    refine ⟨.windowTooShort length, ?_, rfl⟩
    rw [generate, Window.generate, Window.checkLength, decide_eq_false (not_le.mpr hshort)]
    rfl

/-- A Blackman-Harris window of six samples rises to its third one, and a single sample is no
Kaiser window. -/
theorem generated_window_symmetric_bounded_unimodal_of_six :
    (∃ window : Signal ℝ, blackmanHarris.generate 6 = .ok window ∧
      window.sample 0 = window.sample 5 ∧ window.sample 1 ≤ window.sample 2 ∧
      window.sample 2 ∈ Set.Icc 0 1) ∧
    ∃ cause : AnalysisError ℝ, kaiser.generate 1 = .error cause ∧ cause.kind = .precondition := by
  obtain ⟨window, hwindow, -, -, hsymm, hrange, hrises⟩ :=
    (generated_window_symmetric_bounded_unimodal blackmanHarris 6).1 (by decide)
  exact ⟨⟨window, hwindow, hsymm 0 (by decide), hrises 1 (by decide), hrange 2 (by decide)⟩,
    (generated_window_symmetric_bounded_unimodal kaiser 1).2 (by decide)⟩

end Glottis.WindowKind
