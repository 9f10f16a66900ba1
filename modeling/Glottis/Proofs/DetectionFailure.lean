import Mathlib
import Glottis.Proofs.Binary64Values
import Glottis.Proofs.IndexRange

/-!
# Failure of detection

Of the checks that a detection makes, the conditions on a configuration and the choice of a
plausible F0 leave two that a recording of three samples or more can fail: the hop has to
reach one sample and the frame two.  All sums of indices stay in range if lengths and spans
are moderate, so what remains is that a frame and the coefficients of a predictor can be
stored.
-/

namespace Glottis

/-! ## The choice of a plausible F0 -/

namespace SedreamsConfig

/-- What the conditions on a configuration say about its order and its range of F0. -/
structure Accepted (config : SedreamsConfig ℝ) : Prop where
  lpcOrder_pos : 1 ≤ config.lpcOrder
  minF0_nonneg : 0 ≤ config.minF0
  minF0_lt_defaultF0 : config.minF0 < config.defaultF0

theorem accepted_of_validate {config : SedreamsConfig ℝ} (hvalid : config.validate = .ok ()) :
    config.Accepted := by
  simp only [validate, require_bind_eq_ok_iff, require_eq_ok_iff, Bool.and_eq_true,
    decide_eq_true_eq] at hvalid
  obtain ⟨-, -, horder, -, -, -, ⟨hmin, -⟩, hdefault, -⟩ := hvalid
  exact ⟨horder, hmin, hdefault⟩

/-- Whatever is estimated, the F0 that is used is positive. -/
theorem Accepted.plausibleF0_pos {config : SedreamsConfig ℝ} (haccepted : config.Accepted)
    (estimate : Option ℝ) : 0 < config.plausibleF0 estimate := by
  have hdefault : 0 < config.defaultF0 :=
    haccepted.minF0_nonneg.trans_lt haccepted.minF0_lt_defaultF0
  cases estimate with
  | none => exact hdefault
  | some f0 =>
      rw [plausibleF0]
      split
      case isTrue hplausible => exact haccepted.minF0_nonneg.trans_lt hplausible.1
      case isFalse => exact hdefault

/-- An estimate that is undefined or infinite is like no estimate, where the range of F0 is
bounded. -/
theorem plausibleF0_of_not_finite {config : SedreamsConfig Float}
    (hmax : config.maxF0.isFinite = true) {estimate : Float}
    (hestimate : estimate.isFinite = false) :
    config.plausibleF0 (some estimate) = config.plausibleF0 none := by
  refine if_neg ?_
  rintro ⟨hlower, hupper⟩
  have hlower : config.minF0.toModel.unpack.lt estimate.toModel.unpack = true :=
    decide_eq_true_iff.mp hlower
  have hupper : estimate.toModel.unpack.le config.maxF0.toModel.unpack = true :=
    decide_eq_true_iff.mp hupper
  have hmax : config.maxF0.toModel.unpack.isFinite = true := hmax
  have hestimate : estimate.toModel.unpack.isFinite = false := hestimate
  generalize config.minF0.toModel.unpack = lower at hlower
  generalize config.maxF0.toModel.unpack = upper at hupper hmax
  generalize estimate.toModel.unpack = value at hlower hupper hestimate
  match value with
  | .zero _ | .finite _ _ _ _ => cases hestimate
  | .notANumber => cases lower <;> cases hlower
  | .infinity .negative =>
      -- nothing is below minus infinity
      match lower with
      | .infinity .negative | .infinity .positive | .notANumber | .zero _
      | .finite .negative _ _ _ | .finite .positive _ _ _ => cases hlower
  | .infinity .positive =>
      -- no finite bound reaches infinity
      match upper with
      | .infinity _ | .notANumber => cases hmax
      | .zero _ | .finite .negative _ _ _ | .finite .positive _ _ _ => cases hupper

end SedreamsConfig

/-! ## Outcomes -/

namespace Residual

/-- The frames of a signal and, unless all of them are silent, the coefficients of their
predictors can be stored. -/
structure Stored (signal : Signal ℝ) (framing : Framing) : Prop where
  frame : framing.frameLength ≤ maxLength
  order : (∃ index, Heard signal framing index) → framing.order + 1 ≤ maxLength

theorem not_leaves_iff_stored {signal : Signal ℝ} {framing : Framing} (hhop : 1 ≤ framing.hop)
    (hframe : 2 ≤ framing.frameLength) (horder : 1 ≤ framing.order)
    (hsum : signal.size + framing.hop ≤ maxIndex) :
    ¬ Leaves signal framing ↔ Stored signal framing := by
  rw [← (ranged_residual hhop hframe horder signal.allFinite_real).exists_eq_ok_iff,
    exists_residual_eq_ok_iff hhop hframe hsum, exists_accumulate_eq_ok_iff horder,
    ← exists_heard_iff hhop]
  exact ⟨fun hstored => ⟨hstored.1, hstored.2⟩, fun hstored => ⟨hstored.1, hstored.2⟩⟩

end Residual

namespace Sedreams

open Residual (Framing Stored)

/-- How a detection on three samples or more ends, by the framing of the residual. -/
inductive Outcome (signal : Signal ℝ) (framing : Framing) :
    Except (AnalysisError ℝ) (List GlottalCycle) → Prop where
  | noHop (hhop : framing.hop = 0) : Outcome signal framing (.error .zeroHop)
  | shortFrame (hhop : 1 ≤ framing.hop) (hframe : framing.frameLength < 2) :
      Outcome signal framing (.error (.windowTooShort framing.frameLength))
  | notStored (hhop : 1 ≤ framing.hop) (hframe : 2 ≤ framing.frameLength)
      (hstored : ¬ Stored signal framing) : Outcome signal framing (.error .indexOverflow)
  | found (hhop : 1 ≤ framing.hop) (hframe : 2 ≤ framing.frameLength)
      (hstored : Stored signal framing) (cycles : List GlottalCycle) :
      Outcome signal framing (.ok cycles)

variable {config : SedreamsConfig ℝ} {signal : Signal ℝ} {sampleRate meanF0 : ℝ}

theorem detect_of_size_lt_three (hrate : 0 < sampleRate) (hf0 : 0 < meanF0)
    (hsize : signal.size < 3) : detect config signal sampleRate meanF0 = .ok [] := by
  rw [detect, require_bind_of ((Scalar.isPositive_real_iff _).mpr hrate),
    require_bind_of ((Scalar.isPositive_real_iff _).mpr hf0), if_pos hsize]
  rfl

/-- The residual checks the hop before the frame, and both before anything is computed. -/
theorem outcome_detect (hrate : 0 < sampleRate) (hf0 : 0 < meanF0) (horder : 1 ≤ config.lpcOrder)
    (hsize : 3 ≤ signal.size)
    (hhopSum : signal.size + (config.framing sampleRate).hop ≤ maxIndex)
    (hclosure : signal.size + spanSamples config.gciSearchSpan sampleRate (1 / meanF0) ≤ maxIndex)
    (hopening : signal.size + spanSamples config.goiSearchSpan sampleRate (1 / meanF0) ≤ maxIndex) :
    Outcome signal (config.framing sampleRate) (detect config signal sampleRate meanF0) := by
  have hrate := (Scalar.isPositive_real_iff _).mpr hrate
  have hf0 := (Scalar.isPositive_real_iff _).mpr hf0
  have hfinite := signal.allFinite_real
  cases Nat.eq_zero_or_pos (config.framing sampleRate).hop with
  | inl hhop =>
      have hfails : detect config signal sampleRate meanF0 = .error .zeroHop := by
        rw [detect, require_bind_of hrate, require_bind_of hf0, if_neg (not_lt.mpr hsize),
          Residual.residual, hhop]
        rfl
      rw [hfails]
      exact .noHop hhop
  | inr hhop =>
      have hhop : 1 ≤ (config.framing sampleRate).hop := hhop
      cases Nat.lt_or_ge (config.framing sampleRate).frameLength 2 with
      | inl hframe =>
          have hfails : detect config signal sampleRate meanF0 =
              .error (.windowTooShort (config.framing sampleRate).frameLength) := by
            rw [detect, require_bind_of hrate, require_bind_of hf0, if_neg (not_lt.mpr hsize),
              Residual.residual, require_bind_of (decide_eq_true hhop), require_bind_of hfinite,
              Window.checkLength, decide_eq_false (not_le.mpr hframe)]
            rfl
          rw [hfails]
          exact .shortFrame hhop hframe
      | inr hframe =>
          have hranged := ranged_detect hrate hf0 hsize hhop hframe horder hfinite
          have hleaves := leaves_iff_residual_leaves hclosure hopening
          have hstored := Residual.not_leaves_iff_stored hhop hframe horder hhopSum
          generalize detect config signal sampleRate meanF0 = outcome at hranged
          cases hranged with
          | inside hinside cycles =>
              exact .found hhop hframe (hstored.mp (hleaves.not.mp hinside)) cycles
          | outside houtside =>
              exact .notStored hhop hframe fun hheld => hstored.mpr hheld (hleaves.mp houtside)

namespace Outcome

variable {framing : Framing} {outcome : Except (AnalysisError ℝ) (List GlottalCycle)}

theorem exists_precondition_iff (houtcome : Outcome signal framing outcome) :
    (∃ cause, outcome = .error cause ∧ cause.kind = .precondition) ↔
      framing.hop = 0 ∨ framing.frameLength < 2 := by
  cases houtcome with
  | noHop hhop => exact iff_of_true ⟨_, rfl, rfl⟩ (.inl hhop)
  | shortFrame _ hframe => exact iff_of_true ⟨_, rfl, rfl⟩ (.inr hframe)
  | notStored hhop hframe hstored =>
      refine iff_of_false ?_ (by omega)
      rintro ⟨cause, hcause, hkind⟩
      cases hcause
      cases hkind
  | found hhop hframe _ cycles =>
      refine iff_of_false ?_ (by omega)
      rintro ⟨cause, hcause, _⟩
      cases hcause

theorem exists_ok_iff (houtcome : Outcome signal framing outcome) :
    (∃ cycles, outcome = .ok cycles) ↔
      1 ≤ framing.hop ∧ 2 ≤ framing.frameLength ∧ Stored signal framing := by
  cases houtcome with
  | noHop hhop => exact iff_of_false (by simp) (by omega)
  | shortFrame _ hframe => exact iff_of_false (by simp) (by omega)
  | notStored _ _ hstored => exact iff_of_false (by simp) fun hheld => hstored hheld.2.2
  | found hhop hframe hstored cycles => exact iff_of_true ⟨cycles, rfl⟩ ⟨hhop, hframe, hstored⟩

/-- Only what cannot be stored ends a detection at once. -/
theorem eq_indexOverflow_iff (houtcome : Outcome signal framing outcome) :
    outcome = .error .indexOverflow ↔
      1 ≤ framing.hop ∧ 2 ≤ framing.frameLength ∧ ¬ Stored signal framing := by
  cases houtcome with
  | noHop hhop => exact iff_of_false (by simp) (by omega)
  | shortFrame _ hframe => exact iff_of_false (by simp) (by omega)
  | notStored hhop hframe hstored => exact iff_of_true rfl ⟨hhop, hframe, hstored⟩
  | found _ _ hstored cycles => exact iff_of_false (by simp) fun houtside => houtside.2.2 hstored

theorem exists_error_iff (houtcome : Outcome signal framing outcome)
    (hstored : Stored signal framing) :
    (∃ cause, outcome = .error cause) ↔ framing.hop = 0 ∨ framing.frameLength < 2 := by
  cases houtcome with
  | noHop hhop => exact iff_of_true ⟨_, rfl⟩ (.inl hhop)
  | shortFrame _ hframe => exact iff_of_true ⟨_, rfl⟩ (.inr hframe)
  | notStored _ _ hlost => exact absurd hstored hlost
  | found hhop hframe _ cycles => exact iff_of_false (by simp) (by omega)

end Outcome

/-! ## The standard configuration -/

/-- Below a hundred samples a second the standard hop rounds to nothing. -/
theorem standard_hop_or_frame_iff (sampleRate : ℝ) :
    ((SedreamsConfig.standard.framing sampleRate).hop = 0 ∨
        (SedreamsConfig.standard.framing sampleRate).frameLength < 2) ↔ sampleRate < 100 := by
  have hhop : (SedreamsConfig.standard.framing sampleRate).hop = 0 ↔ sampleRate < 100 := by
    change Scalar.round (5.0 / 1000.0 * sampleRate) = 0 ↔ _
    rw [← Nat.le_zero, Scalar.round_le_iff (by decide)]
    constructor <;> intro hrate <;> norm_num at hrate ⊢ <;> linarith
  have hframe : (SedreamsConfig.standard.framing sampleRate).frameLength < 2 ↔ sampleRate < 60 := by
    change Scalar.round (25.0 / 1000.0 * sampleRate) < 1 + 1 ↔ _
    rw [Nat.lt_succ_iff, Scalar.round_le_iff (by decide)]
    constructor <;> intro hrate <;> norm_num at hrate ⊢ <;> linarith
  rw [hhop, hframe]
  exact or_iff_left_of_imp fun hrate => hrate.trans (by norm_num)

/-- At low rates the standard hop and spans are short. -/
private theorem short_standard {sampleRate : ℝ} (hrate : sampleRate ≤ 1000) :
    (SedreamsConfig.standard.framing sampleRate).hop < 2 ^ 62 ∧
      spanSamples (SedreamsConfig.standard : SedreamsConfig ℝ).gciSearchSpan sampleRate
        (1 / SedreamsConfig.standard.plausibleF0 none) < 2 ^ 62 ∧
      spanSamples (SedreamsConfig.standard : SedreamsConfig ℝ).goiSearchSpan sampleRate
        (1 / SedreamsConfig.standard.plausibleF0 none) < 2 ^ 62 := by
  have hshort : ∀ value : ℝ, value ≤ 5 → Scalar.round value < 2 ^ 62 := by
    intro value hvalue
    have hround : Scalar.round value ≤ 5 :=
      (Scalar.round_le_iff (by decide)).mpr (by push_cast; linarith)
    exact hround.trans_lt (by decide)
  refine ⟨hshort _ ?_, hshort _ ?_, hshort _ ?_⟩
  · change 5.0 / 1000.0 * sampleRate ≤ 5
    norm_num
    linarith
  · change 0.25 * sampleRate * (1 / 180.0) ≤ 5
    norm_num
    linarith
  · change 0.15 * sampleRate * (1 / 180.0) ≤ 5
    norm_num
    linarith

theorem validate_standard : (SedreamsConfig.standard : SedreamsConfig ℝ).validate = .ok () := by
  simp only [SedreamsConfig.validate, require_bind_eq_ok_iff, require_eq_ok_iff,
    Bool.and_eq_true, decide_eq_true_eq]
  norm_num [SedreamsConfig.standard]

/-! ## All outcomes -/

/-- Two sizes of this bound leave their sum in range. -/
private theorem add_le_maxIndex {size count : Nat} (hsize : size < 2 ^ 62)
    (hcount : count < 2 ^ 62) : size + count ≤ maxIndex := by
  rw [maxIndex]
  omega

/-- Under an accepted configuration a detection fails for want of a sample in the hop or of two
in the frame, and otherwise finds its cycles if the frames and the coefficients can be stored.
On fewer than three samples it finds none, and the standard configuration fails below a hundred
samples a second.  An estimate of F0 changes none of this; one that is not finite is like none. -/
theorem detect_fails_iff (config : SedreamsConfig ℝ) (hvalid : config.validate = .ok ())
    (signal : Signal ℝ) (sampleRate : ℝ) (hrate : 0 < sampleRate) (estimate : Option ℝ)
    (hsize : signal.size < 2 ^ 62) (hhop : (config.framing sampleRate).hop < 2 ^ 62)
    (hclosure : spanSamples config.gciSearchSpan sampleRate
      (1 / config.plausibleF0 estimate) < 2 ^ 62)
    (hopening : spanSamples config.goiSearchSpan sampleRate
      (1 / config.plausibleF0 estimate) < 2 ^ 62) :
    (signal.size < 3 →
        detect config signal sampleRate (config.plausibleF0 estimate) = .ok []) ∧
      (3 ≤ signal.size →
        ((∃ cause, detect config signal sampleRate (config.plausibleF0 estimate) = .error cause ∧
            cause.kind = .precondition) ↔
          (config.framing sampleRate).hop = 0 ∨ (config.framing sampleRate).frameLength < 2) ∧
        ((∃ cycles, detect config signal sampleRate (config.plausibleF0 estimate) = .ok cycles) ↔
          1 ≤ (config.framing sampleRate).hop ∧ 2 ≤ (config.framing sampleRate).frameLength ∧
            Stored signal (config.framing sampleRate)) ∧
        (detect config signal sampleRate (config.plausibleF0 estimate) = .error .indexOverflow ↔
          1 ≤ (config.framing sampleRate).hop ∧ 2 ≤ (config.framing sampleRate).frameLength ∧
            ¬ Stored signal (config.framing sampleRate)) ∧
        (config = .standard → (config.framing sampleRate).frameLength ≤ maxLength →
          ((∃ cause, detect config signal sampleRate (config.plausibleF0 estimate) =
              .error cause) ↔ sampleRate < 100))) ∧
      ∀ (config : SedreamsConfig Float) (estimate : Float), config.maxF0.isFinite = true →
        estimate.isFinite = false →
          config.plausibleF0 (some estimate) = config.plausibleF0 none := by
  have haccepted := SedreamsConfig.accepted_of_validate hvalid
  have hf0 := haccepted.plausibleF0_pos estimate
  refine ⟨detect_of_size_lt_three hrate hf0, fun hthree => ?_,
    fun _ _ hmax hestimate => SedreamsConfig.plausibleF0_of_not_finite hmax hestimate⟩
  have houtcome := outcome_detect hrate hf0 haccepted.lpcOrder_pos hthree
    (add_le_maxIndex hsize hhop) (add_le_maxIndex hsize hclosure) (add_le_maxIndex hsize hopening)
  refine ⟨houtcome.exists_precondition_iff, houtcome.exists_ok_iff, houtcome.eq_indexOverflow_iff,
    fun hstandard hframe => ?_⟩
  have hstored : Stored signal (config.framing sampleRate) := by
    refine ⟨hframe, fun _ => ?_⟩
    rw [hstandard]
    exact (by decide : 24 + 1 ≤ maxLength)
  rw [houtcome.exists_error_iff hstored, hstandard, standard_hop_or_frame_iff]

/-- Three silent samples at a low and at a higher rate. -/
theorem detect_fails_iff_of_silence :
    (∃ cause, detect SedreamsConfig.standard (#[0, 0, 0] : Signal ℝ) 50
        (SedreamsConfig.standard.plausibleF0 none) = .error cause ∧ cause.kind = .precondition) ∧
      ∃ cycles, detect SedreamsConfig.standard (#[0, 0, 0] : Signal ℝ) 1000
        (SedreamsConfig.standard.plausibleF0 none) = .ok cycles := by
  obtain ⟨hhop, hclosure, hopening⟩ := short_standard (by norm_num : (50 : ℝ) ≤ 1000)
  obtain ⟨hhop', hclosure', hopening'⟩ := short_standard (le_refl (1000 : ℝ))
  obtain ⟨_, hlow, _⟩ := detect_fails_iff .standard validate_standard #[0, 0, 0] 50 (by norm_num)
    none (by decide) hhop hclosure hopening
  obtain ⟨_, hhigh, _⟩ := detect_fails_iff .standard validate_standard #[0, 0, 0] 1000
    (by norm_num) none (by decide) hhop' hclosure' hopening'
  have hfive : (SedreamsConfig.standard.framing (1000 : ℝ)).hop = 5 := hop_unfiltered
  have hlength : (SedreamsConfig.standard.framing (1000 : ℝ)).frameLength = 25 :=
    frameLength_unfiltered
  have hstored : Stored (#[0, 0, 0] : Signal ℝ) (SedreamsConfig.standard.framing (1000 : ℝ)) :=
    ⟨by rw [hlength]; decide, fun _ => by decide⟩
  refine ⟨(hlow le_rfl).1.mpr ((standard_hop_or_frame_iff 50).mpr (by norm_num)),
    (hhigh le_rfl).2.1.mpr ⟨?_, ?_, hstored⟩⟩
  · rw [hfive]
    decide
  · rw [hlength]
    decide

noncomputable def longFrame : SedreamsConfig ℝ :=
  { SedreamsConfig.standard with residualFrameMs := (2 * 10 ^ 18 : Nat) }

/-- A frame of two to the power of sixty samples or more cannot be stored, although all sizes
stay below two to the power of sixty-two. -/
theorem not_forall_detect_fails_iff :
    ¬ ∀ (config : SedreamsConfig ℝ) (signal : Signal ℝ) (sampleRate : ℝ) (estimate : Option ℝ),
      config.validate = .ok () → 3 ≤ signal.size → signal.size < 2 ^ 62 → 0 < sampleRate →
      config.lpcOrder < 2 ^ 62 → (config.framing sampleRate).frameLength < 2 ^ 62 →
      (config.framing sampleRate).hop < 2 ^ 62 →
      spanSamples config.gciSearchSpan sampleRate (1 / config.plausibleF0 estimate) < 2 ^ 62 →
      spanSamples config.goiSearchSpan sampleRate (1 / config.plausibleF0 estimate) < 2 ^ 62 →
      ((∃ cause, detect config signal sampleRate (config.plausibleF0 estimate) = .error cause) ↔
        (config.framing sampleRate).hop = 0 ∨ (config.framing sampleRate).frameLength < 2) := by
  intro hall
  obtain ⟨hhop, hclosure, hopening⟩ := short_standard (le_refl (1000 : ℝ))
  have hvalid : longFrame.validate = .ok () := by
    simp only [SedreamsConfig.validate, require_bind_eq_ok_iff, require_eq_ok_iff,
      Bool.and_eq_true, decide_eq_true_eq]
    norm_num [longFrame, SedreamsConfig.standard]
  have hlength : (longFrame.framing 1000).frameLength = 2 * 10 ^ 18 := by
    change Scalar.round (((2 * 10 ^ 18 : Nat) : ℝ) / 1000.0 * 1000) = _
    have hvalue : ((2 * 10 ^ 18 : Nat) : ℝ) / 1000.0 * 1000 = ((2 * 10 ^ 18 : Nat) : ℝ) := by
      norm_num
    rw [hvalue, Scalar.round_natCast (by decide)]
  have hfive : (longFrame.framing 1000).hop = 5 := hop_unfiltered
  have hfails := hall longFrame #[0, 0, 0] 1000 none hvalid (by decide) (by decide) (by norm_num)
    (by decide) (by rw [hlength]; decide) hhop hclosure hopening
  rw [hfive, hlength] at hfails
  have hsize : (#[0, 0, 0] : Signal ℝ).size < 2 ^ 62 := by decide
  have houtcome : Outcome #[0, 0, 0] (longFrame.framing 1000)
      (detect longFrame #[0, 0, 0] 1000 (longFrame.plausibleF0 none)) :=
    outcome_detect (by norm_num) ((SedreamsConfig.accepted_of_validate hvalid).plausibleF0_pos none)
      (by decide) (by decide) (add_le_maxIndex hsize hhop) (add_le_maxIndex hsize hclosure)
      (add_le_maxIndex hsize hopening)
  have hlost : ¬ Stored (#[0, 0, 0] : Signal ℝ) (longFrame.framing 1000) := by
    intro hstored
    have hframe := hstored.frame
    rw [hlength] at hframe
    exact absurd hframe (by decide)
  have hoverflow := houtcome.eq_indexOverflow_iff
  rw [hfive, hlength] at hoverflow
  exact absurd (hfails.mp ⟨_, hoverflow.mpr ⟨by decide, by decide, hlost⟩⟩) (by decide)

end Sedreams

end Glottis
