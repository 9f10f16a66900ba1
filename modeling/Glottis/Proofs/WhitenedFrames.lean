import Mathlib
import Glottis.Proofs.Checks
import Glottis.Proofs.Scaling
import Glottis.Residual

/-!
# Whitened frames

Whichever method fits it, a prediction polynomial starts with one.  A filter that
starts with one passes the first sample of a frame that is not zero unchanged, so a
frame with energy keeps some of it when it is whitened, and the rescaled frame starts
where the frame starts and with the same sign.
-/

namespace Glottis

namespace LinearPrediction

variable {α : Type} [Scalar α]

/-! ## The first coefficient -/

/-- A stage leaves the first coefficient as it is. -/
theorem leading_reflect (polynomial : Signal α) (reached : Nat) (reflection newest : α) :
    (reflect polynomial (reached + 1) reflection newest).sample 0 = polynomial.sample 0 := by
  rw [reflect, Signal.sample_tabulate]
  split
  case isTrue =>
    rw [if_neg (fun hinner => lt_irrefl 0 hinner.1), if_neg (Nat.succ_ne_zero reached).symm]
  case isFalse hsize => rw [Signal.sample_of_size_le _ (not_lt.mp hsize)]

theorem leading_levinsonStages (correlation : Signal α) (remaining reached : Nat)
    (polynomial : Signal α) (gain : α) :
    (levinsonStages correlation remaining reached polynomial gain).polynomial.sample 0 =
      polynomial.sample 0 := by
  induction remaining generalizing reached polynomial gain with
  | zero => rfl
  | succ remaining ih =>
      simp only [levinsonStages]
      split
      · exact leading_reflect _ _ _ _
      · rw [ih, leading_reflect]

theorem leading_flat (order : Nat) :
    (Predictor.flat order : Predictor α).polynomial.sample 0 = 1 := by
  rw [Predictor.flat, Signal.sample_tabulate, if_pos (Nat.succ_pos order), if_pos rfl]

theorem sample_flat (order index : Nat) :
    (Predictor.flat order : Predictor α).polynomial.sample index =
      if index = 0 then 1 else 0 := by
  split
  case isTrue hzero => rw [hzero, leading_flat]
  case isFalse hne => rw [Predictor.flat, Signal.sample_tabulate, if_neg hne, ite_self]

theorem leading_levinson (correlation : Signal α) (order : Nat) :
    (levinson correlation order).polynomial.sample 0 = 1 := by
  simp only [levinson]
  split
  · exact leading_flat order
  · rw [leading_levinsonStages, leading_flat]

theorem leading_burg (segment : Signal α) (order : Nat) :
    (burg segment order).polynomial.sample 0 = 1 := by
  simp only [burg]
  split
  · exact leading_flat order
  · rw [Lattice.polynomial, Signal.sample_tabulate, if_pos (Nat.succ_pos order), if_pos rfl]

/-- An order whose coefficients can be stored gives a polynomial that starts with one. -/
theorem exists_analyze_eq_ok (segment : Signal α) {order : Nat} (method : Method)
    (horder : 1 ≤ order) (hstored : order + 1 ≤ maxLength) :
    ∃ predictor, analyze segment order method = .ok predictor ∧
      predictor.polynomial.size = order + 1 ∧ predictor.polynomial.sample 0 = 1 := by
  cases method with
  | autocorrelation =>
      refine ⟨levinson (.tabulate (order + 1) (autocorrelation segment)) order, ?_,
        size_levinson _ _, leading_levinson _ _⟩
      rw [analyze, require_bind_eq_ok_iff, ofAutocorrelation, require_bind_eq_ok_iff]
      exact ⟨decide_eq_true hstored, decide_eq_true horder, rfl⟩
  | burg =>
      refine ⟨burg segment order, ?_, size_burg _ _, leading_burg _ _⟩
      rw [analyze, require_bind_eq_ok_iff, ofBurg, require_bind_eq_ok_iff]
      exact ⟨decide_eq_true hstored, decide_eq_true horder, rfl⟩

/-- Nothing but the storage of the coefficients stands before the method. -/
theorem analyze_of_stored (segment : Signal α) {order : Nat} (method : Method)
    (hstored : order + 1 ≤ maxLength) :
    analyze segment order method =
      match method with
      | .autocorrelation => ofAutocorrelation segment order
      | .burg => ofBurg segment order := by
  cases method with
  | autocorrelation => rw [analyze, require_bind_of (decide_eq_true hstored)]
  | burg => rw [analyze, require_bind_of (decide_eq_true hstored)]

theorem analyze_of_maxLength_lt (segment : Signal α) {order : Nat} (method : Method)
    (hstored : maxLength < order + 1) :
    analyze segment order method = .error .indexOverflow := by
  rw [analyze.eq_def, decide_eq_false (not_le.mpr hstored)]
  rfl

end LinearPrediction

/-! ## Filters that start with one -/

/-- As long as the signal has been silent, only the first coefficient of a filter
counts. -/
theorem Filter.feedForward_of_silent_before {coefficients signal : Signal ℝ} {index : Nat}
    (hsize : 0 < coefficients.size) (hsilent : ∀ earlier < index, signal.sample earlier = 0) :
    feedForward coefficients signal index = coefficients.sample 0 * signal.sample index := by
  rw [feedForward, sumRange_eq_sum,
    Finset.sum_eq_single_of_mem 0 (Finset.mem_range.mpr (by omega)), Nat.sub_zero]
  intro delay hdelay hne
  rw [Finset.mem_range] at hdelay
  rw [hsilent _ (by omega), mul_zero]

namespace Residual

open LinearPrediction

/-! ## Coefficients that cannot be stored -/

section

variable {α : Type} [Scalar α] {framing : Framing}

/-- Coefficients are lacking for a frame with energy whose predictor cannot be stored. -/
theorem ranged_whiten (segment : Signal α) {order : Nat} (method : Method)
    (horder : 1 ≤ order) :
    Ranged (0 < segment.energy ∧ maxLength < order + 1) (whiten segment order method) := by
  rw [whiten]
  dsimp only
  by_cases henergy : 0 < segment.energy
  · rw [if_pos henergy]
    cases Nat.lt_or_ge maxLength (order + 1) with
    | inl hstored =>
        rw [analyze_of_maxLength_lt segment method hstored]
        exact .outside ⟨henergy, hstored⟩
    | inr hstored =>
        obtain ⟨predictor, hpredictor, -, -⟩ := exists_analyze_eq_ok segment method horder hstored
        have hinside : ¬ (0 < segment.energy ∧ maxLength < order + 1) :=
          fun hleaves => absurd hleaves.2 (not_lt.mpr hstored)
        rw [hpredictor]
        change Ranged _ (if 0 < (Filter.fir predictor.polynomial segment).energy
          then .ok (some _) else .ok none)
        split
        · exact .inside hinside _
        · exact .inside hinside _
  · rw [if_neg henergy]
    exact .inside (fun hleaves => henergy hleaves.1) _

/-- Some frame with energy needs coefficients that cannot be stored. -/
def LacksCoefficients (signal : Signal α) (framing : Framing) (starts : List Nat) : Prop :=
  maxLength < framing.order + 1 ∧ ∃ start ∈ starts, 0 < (frame signal framing start).energy

theorem ranged_accumulate (signal : Signal α) (horder : 1 ≤ framing.order) (starts : List Nat)
    (total : Signal α) :
    Ranged (LacksCoefficients signal framing starts)
      (accumulate signal framing starts total) := by
  induction starts generalizing total with
  | nil =>
      refine .inside (fun hlacks => ?_) total
      obtain ⟨start, hstart, -⟩ := hlacks.2
      exact absurd hstart List.not_mem_nil
  | cons start starts ih =>
      have hfirst := ranged_whiten (frame signal framing start) framing.method horder
      rw [accumulate]
      refine (hfirst.bind fun contribution _ =>
        (?later : Ranged (LacksCoefficients signal framing starts) _)).congr ?_
      case later =>
        cases contribution with
        | none => exact ih total
        | some contribution => exact ih _
      rw [LacksCoefficients, LacksCoefficients, List.exists_mem_cons_iff]
      tauto

end

/-! ## Contributions -/

/-- A contribution agrees with a positive multiple of the frame it is made from, up to
and including the first sample of the frame that is not zero. -/
structure Follows (segment contribution : Signal ℝ) : Prop where
  size_eq : contribution.size = segment.size
  exists_scale : ∃ scale, 0 < scale ∧ ∀ index,
    (∀ earlier < index, segment.sample earlier = 0) →
      contribution.sample index = scale * segment.sample index

/-- Whitening by a polynomial that starts with one leaves the onset of a frame. -/
theorem fir_onset {polynomial segment : Signal ℝ} (hleading : polynomial.sample 0 = 1)
    (hsize : 0 < polynomial.size) {index : Nat}
    (hsilent : ∀ earlier < index, segment.sample earlier = 0) :
    (Filter.fir polynomial segment).sample index = segment.sample index := by
  cases Nat.lt_or_ge index segment.size with
  | inl hindex =>
      rw [Filter.sample_fir _ _ hindex, Filter.feedForward_of_silent_before hsize hsilent,
        hleading, one_mul]
  | inr hindex =>
      rw [Signal.sample_of_size_le segment hindex,
        Signal.sample_of_size_le _ (by rw [Filter.size_fir]; exact hindex)]

theorem energy_fir_pos {polynomial segment : Signal ℝ} (hleading : polynomial.sample 0 = 1)
    (hsize : 0 < polynomial.size) (hsegment : ∃ index, segment.sample index ≠ 0) :
    0 < (Filter.fir polynomial segment).energy := by
  classical
  rw [Signal.energy_pos_iff]
  refine ⟨Nat.find hsegment, ?_⟩
  rw [fir_onset hleading hsize fun earlier hearlier =>
    not_not.mp (Nat.find_min hsegment hearlier)]
  exact Nat.find_spec hsegment

/-- What whitening does with a frame: it passes over a silent frame, and makes a
contribution of any other frame or cannot store its coefficients. -/
inductive Whitened (segment : Signal ℝ) (order : Nat) :
    Except (AnalysisError ℝ) (Option (Signal ℝ)) → Prop where
  | silent (hsegment : ∀ index, segment.sample index = 0) : Whitened segment order (.ok none)
  | audible {contribution : Signal ℝ} (hsegment : ∃ index, segment.sample index ≠ 0)
      (hstored : order + 1 ≤ maxLength) (hfollows : Follows segment contribution) :
      Whitened segment order (.ok (some contribution))
  | notStored (hsegment : ∃ index, segment.sample index ≠ 0)
      (hstored : maxLength < order + 1) : Whitened segment order (.error .indexOverflow)

theorem whitened_whiten (segment : Signal ℝ) {order : Nat} (method : Method)
    (horder : 1 ≤ order) : Whitened segment order (whiten segment order method) := by
  rw [whiten]
  dsimp only
  by_cases hsegment : ∃ index, segment.sample index ≠ 0
  · rw [if_pos (segment.energy_pos_iff.mpr hsegment)]
    cases Nat.lt_or_ge maxLength (order + 1) with
    | inl hstored =>
        rw [analyze_of_maxLength_lt segment method hstored]
        exact .notStored hsegment hstored
    | inr hstored =>
        obtain ⟨predictor, hpredictor, hsize, hleading⟩ :=
          exists_analyze_eq_ok segment method horder hstored
        have hpositive : 0 < predictor.polynomial.size := by omega
        have hleft := energy_fir_pos hleading hpositive hsegment
        have hscale : 0 < √(segment.energy / (Filter.fir predictor.polynomial segment).energy) :=
          Real.sqrt_pos.mpr (div_pos (segment.energy_pos_iff.mpr hsegment) hleft)
        rw [hpredictor]
        change Whitened segment order (if 0 < (Filter.fir predictor.polynomial segment).energy
          then .ok (some ((Filter.fir predictor.polynomial segment).map
            (· * √(segment.energy / (Filter.fir predictor.polynomial segment).energy))))
          else .ok none)
        rw [if_pos hleft]
        refine .audible hsegment hstored ⟨by rw [Array.size_map, Filter.size_fir], _, hscale, ?_⟩
        intro index hsilent
        rw [Signal.sample_map _ _ (zero_mul _), fir_onset hleading hpositive hsilent, mul_comm]
  · rw [if_neg (mt segment.energy_pos_iff.mp hsegment)]
    exact .silent fun index => not_not.mp (not_exists.mp hsegment index)

/-- Only a silent frame contributes nothing. -/
theorem whiten_eq_ok_none_iff (segment : Signal ℝ) {order : Nat} (method : Method)
    (horder : 1 ≤ order) :
    whiten segment order method = .ok none ↔ ∀ index, segment.sample index = 0 := by
  have hwhitened := whitened_whiten segment method horder
  constructor
  · intro hnone
    rw [hnone] at hwhitened
    cases hwhitened with
    | silent hsegment => exact hsegment
  · intro hsilent
    generalize whiten segment order method = outcome at hwhitened
    cases hwhitened with
    | silent => rfl
    | audible hsegment | notStored hsegment =>
        obtain ⟨index, hindex⟩ := hsegment
        exact absurd (hsilent index) hindex

end Residual

end Glottis
