import Mathlib
import Glottis.Proofs.Autocorrelation
import Glottis.Proofs.Lengths
import Glottis.Proofs.WhitenedFrames
import Glottis.Proofs.WindowWeights

/-!
# Onset of the residual

Every contribution to the residual starts where its frame starts to be heard, and has
the sign of the signal there because no window weight is negative.  At the first index
at which some frame is heard the contributions therefore cannot cancel: before it the
residual is zero, at it the residual has the sign of the signal, and its peak is one.
-/

namespace Glottis.Residual

open LinearPrediction

/-! ## Complete frames -/

/-- A complete frame starts at a multiple of the hop and ends within the signal. -/
structure Framing.IsComplete (framing : Framing) (length start : Nat) : Prop where
  aligned : framing.hop ∣ start
  fits : start + framing.frameLength ≤ length

theorem mem_frameStarts_iff {framing : Framing} (hhop : 1 ≤ framing.hop) (length start : Nat) :
    start ∈ frameStarts framing length ↔ framing.IsComplete length start := by
  rw [frameStarts, List.mem_map]
  constructor
  · intro hmem
    obtain ⟨count, hcount, rfl⟩ := hmem
    rw [List.mem_range, Framing.frameCount] at hcount
    split at hcount
    case isTrue => omega
    case isFalse hlength =>
      have hle := (Nat.le_div_iff_mul_le hhop).mp (Nat.lt_succ_iff.mp hcount)
      exact ⟨Nat.dvd_mul_left _ _, by omega⟩
  · intro hcomplete
    obtain ⟨⟨count, rfl⟩, hfits⟩ := hcomplete
    refine ⟨count, ?_, Nat.mul_comm _ _⟩
    rw [List.mem_range, Framing.frameCount, if_neg (by omega), Nat.lt_succ_iff,
      Nat.le_div_iff_mul_le hhop, Nat.mul_comm]
    omega

/-- Indices that are formed after the last complete frame exceed the length of the
signal by at most one hop. -/
theorem Framing.fitsIndex_of_add_le {framing : Framing} {length : Nat}
    (hlength : framing.frameLength ≤ length) (hsum : length + framing.hop ≤ maxIndex) :
    framing.fitsIndex length = true := by
  have hframes := Nat.div_mul_le_self (length - framing.frameLength) framing.hop
  rw [fitsIndex, frameCount, if_neg (by omega), decide_eq_true_iff, Nat.succ_mul]
  omega

/-- Some complete tapered frame is not zero at an index of the signal. -/
def Heard (signal : Signal ℝ) (framing : Framing) (index : Nat) : Prop :=
  ∃ start, framing.IsComplete signal.size start ∧ start ≤ index ∧
    (frame signal framing start).sample (index - start) ≠ 0

theorem size_frame (signal : Signal ℝ) (framing : Framing) (start : Nat) :
    (frame signal framing start).size = framing.frameLength := by
  rw [frame, Signal.size_tabulate]

/-- A tapered frame is the signal times a weight that is not negative. -/
theorem exists_delayed_frame_eq (signal : Signal ℝ) (framing : Framing) (start index : Nat) :
    ∃ weight, 0 ≤ weight ∧
      delayed (frame signal framing start) start index = weight * signal.sample index := by
  rw [delayed, frame, Signal.sample_tabulate]
  split
  case isTrue hstart =>
    split
    case isTrue hindex =>
      refine ⟨_, framing.window.weight_nonneg hindex, ?_⟩
      rw [Nat.add_sub_cancel' hstart, mul_comm]
    case isFalse => exact ⟨0, le_rfl, (zero_mul _).symm⟩
  case isFalse => exact ⟨0, le_rfl, (zero_mul _).symm⟩

/-! ## One contribution -/

variable {segment contribution total : Signal ℝ} {start index : Nat}

theorem sample_overlapAdd (total contribution : Signal ℝ) (start : Nat)
    (hindex : index < total.size) :
    (overlapAdd total contribution start).sample index =
      total.sample index + delayed contribution start index := by
  rw [overlapAdd, Signal.sample_tabulate, if_pos hindex, delayed]
  by_cases hstart : start ≤ index
  · by_cases hsize : index - start < contribution.size
    · rw [if_pos ⟨hstart, hsize⟩, if_pos hstart]
    · rw [if_neg (fun hinside => hsize hinside.2), if_pos hstart,
        Signal.sample_of_size_le _ (not_lt.mp hsize), add_zero]
  · rw [if_neg (fun hinside => hstart hinside.1), if_neg hstart, add_zero]

theorem delayed_eq_zero_of_outside (hsize : contribution.size ≤ segment.size)
    (houtside : start ≤ index → start + segment.size ≤ index) :
    delayed contribution start index = 0 := by
  rw [delayed]
  split
  case isTrue hstart =>
    have hend := houtside hstart
    exact Signal.sample_of_size_le _ (by omega)
  case isFalse => rfl

/-- Where a frame has not been heard before, its contribution is a positive multiple of
the frame. -/
theorem Follows.exists_delayed_eq (hfollows : Follows segment contribution) (start : Nat) :
    ∃ scale, 0 < scale ∧ ∀ index, (∀ earlier < index, delayed segment start earlier = 0) →
      delayed contribution start index = scale * delayed segment start index := by
  obtain ⟨scale, hscale, hagrees⟩ := hfollows.exists_scale
  refine ⟨scale, hscale, fun index hsilent => ?_⟩
  rw [delayed, delayed]
  split
  case isTrue hstart =>
    apply hagrees
    intro earlier hearlier
    have hzero := hsilent (start + earlier) (by omega)
    rwa [delayed, if_pos (Nat.le_add_right _ _), Nat.add_sub_cancel_left] at hzero
  case isFalse => rw [mul_zero]

/-! ## The running sum -/

/-- Nothing has been added before an index, and what has been added at the index has
the sign of the signal. -/
structure Leads (signal total : Signal ℝ) (onset : Nat) : Prop where
  before : ∀ index < onset, total.sample index = 0
  sign : 0 ≤ total.sample onset * signal.sample onset

theorem leads_silence (signal : Signal ℝ) (length onset : Nat) :
    Leads signal (.silence length) onset where
  before := by
    intro index _
    rw [Signal.silence, Signal.sample_tabulate, ite_self]
  sign := by rw [Signal.silence, Signal.sample_tabulate, ite_self, zero_mul]

/-- A frame that is not heard before an index keeps what leads there.  What is added at
the index has the sign of the signal, and is not zero if the frame is heard. -/
theorem Leads.overlapAdd {signal : Signal ℝ} {framing : Framing} {onset : Nat}
    (hleads : Leads signal total onset) (honset : onset < total.size)
    (hsilent : ∀ index < onset, delayed (frame signal framing start) start index = 0)
    (hfollows : Follows (frame signal framing start) contribution) :
    Leads signal (overlapAdd total contribution start) onset ∧
      (0 < total.sample onset * signal.sample onset ∨
          delayed (frame signal framing start) start onset ≠ 0 →
        0 < (overlapAdd total contribution start).sample onset * signal.sample onset) := by
  obtain ⟨scale, hscale, hagrees⟩ := hfollows.exists_delayed_eq start
  obtain ⟨weight, hweight, hframe⟩ := exists_delayed_frame_eq signal framing start onset
  have hsum : (Residual.overlapAdd total contribution start).sample onset *
      signal.sample onset =
        total.sample onset * signal.sample onset +
          scale * weight * signal.sample onset ^ 2 := by
    rw [sample_overlapAdd total contribution start honset, hagrees onset hsilent, hframe]
    ring
  have hsign := hleads.sign
  refine ⟨⟨fun index hindex => ?_, ?_⟩, fun hheard => ?_⟩
  · rw [sample_overlapAdd total contribution start (hindex.trans honset),
      hleads.before index hindex,
      hagrees index fun earlier hearlier => hsilent earlier (hearlier.trans hindex),
      hsilent index hindex, mul_zero, add_zero]
  · rw [hsum]
    positivity
  · rw [hsum]
    cases hheard with
    | inl hpositive => positivity
    | inr hheard =>
        rw [hframe] at hheard
        have hpositive := hweight.lt_of_ne' (left_ne_zero_of_mul hheard)
        have hsquare := sq_pos_of_ne_zero (right_ne_zero_of_mul hheard)
        positivity

variable {signal result : Signal ℝ} {framing : Framing}

/-- What leads at an index leads there after all frames, and is not zero once a frame
has been heard at it. -/
theorem leads_accumulate (horder : 1 ≤ framing.order) {starts : List Nat} {onset : Nat}
    (hresult : accumulate signal framing starts total = .ok result)
    (honset : onset < total.size) (hleads : Leads signal total onset)
    (hsilent : ∀ start ∈ starts, ∀ index < onset,
      delayed (frame signal framing start) start index = 0) :
    Leads signal result onset ∧
      (0 < total.sample onset * signal.sample onset ∨
          (∃ start ∈ starts, delayed (frame signal framing start) start onset ≠ 0) →
        0 < result.sample onset * signal.sample onset) := by
  induction starts generalizing total with
  | nil =>
      rw [accumulate, Except.ok.injEq] at hresult
      subst hresult
      refine ⟨hleads, fun hheard => ?_⟩
      cases hheard with
      | inl hpositive => exact hpositive
      | inr hheard =>
          obtain ⟨start, hstart, _⟩ := hheard
          exact absurd hstart List.not_mem_nil
  | cons start starts ih =>
      have hwhitened := whitened_whiten (frame signal framing start) framing.method horder
      have hlater := fun later hlater => hsilent later (List.mem_cons_of_mem start hlater)
      rw [accumulate] at hresult
      generalize whiten (frame signal framing start) framing.order framing.method = outcome
        at hwhitened hresult
      cases hwhitened with
      | silent hframe =>
          obtain ⟨hend, hpositive⟩ := ih hresult honset hleads hlater
          refine ⟨hend, fun hheard => hpositive (hheard.imp_right fun hheard => ?_)⟩
          obtain ⟨later, hmem, hsample⟩ := hheard
          cases List.mem_cons.mp hmem with
          | inl heq =>
              rw [heq, delayed, hframe, ite_self] at hsample
              exact absurd rfl hsample
          | inr hmem => exact ⟨later, hmem, hsample⟩
      | audible _ _ hfollows =>
          obtain ⟨hnext, hadded⟩ :=
            hleads.overlapAdd honset (hsilent start List.mem_cons_self) hfollows
          obtain ⟨hend, hpositive⟩ := ih hresult (by rwa [size_overlapAdd]) hnext hlater
          refine ⟨hend, fun hheard => hpositive ?_⟩
          cases hheard with
          | inl hheld => exact .inl (hadded (.inl hheld))
          | inr hheard =>
              obtain ⟨later, hmem, hsample⟩ := hheard
              cases List.mem_cons.mp hmem with
              | inl heq => exact .inl (hadded (.inr (heq ▸ hsample)))
              | inr hmem => exact .inr ⟨later, hmem, hsample⟩
      | notStored => cases hresult

/-- Nothing is added where no frame reaches. -/
theorem sample_accumulate_of_uncovered (horder : 1 ≤ framing.order) {starts : List Nat}
    (hresult : accumulate signal framing starts total = .ok result) (hindex : index < total.size)
    (huncovered : ∀ start ∈ starts, start ≤ index → start + framing.frameLength ≤ index) :
    result.sample index = total.sample index := by
  induction starts generalizing total with
  | nil =>
      rw [accumulate, Except.ok.injEq] at hresult
      rw [hresult]
  | cons start starts ih =>
      have hwhitened := whitened_whiten (frame signal framing start) framing.method horder
      have hlater := fun later hlater => huncovered later (List.mem_cons_of_mem start hlater)
      rw [accumulate] at hresult
      generalize whiten (frame signal framing start) framing.order framing.method = outcome
        at hwhitened hresult
      cases hwhitened with
      | silent => exact ih hresult hindex hlater
      | audible _ _ hfollows =>
          have houtside := huncovered start List.mem_cons_self
          rw [← size_frame signal framing start] at houtside
          rw [ih hresult (by rwa [size_overlapAdd]) hlater,
            sample_overlapAdd total _ start hindex,
            delayed_eq_zero_of_outside hfollows.size_eq.le houtside, add_zero]
      | notStored => cases hresult

/-- Silent frames add nothing. -/
theorem accumulate_of_silent (horder : 1 ≤ framing.order) {starts : List Nat}
    (total : Signal ℝ)
    (hsilent : ∀ start ∈ starts, ∀ index, (frame signal framing start).sample index = 0) :
    accumulate signal framing starts total = .ok total := by
  induction starts with
  | nil => rfl
  | cons start starts ih =>
      have hnone := (whiten_eq_ok_none_iff (frame signal framing start) framing.method horder).mpr
        (hsilent start List.mem_cons_self)
      rw [accumulate, hnone]
      exact ih fun later hlater => hsilent later (List.mem_cons_of_mem start hlater)

/-- The frames can be added up if coefficients can be stored for those that are not
silent. -/
theorem exists_accumulate_eq_ok_iff (horder : 1 ≤ framing.order) (starts : List Nat)
    (total : Signal ℝ) :
    (∃ result, accumulate signal framing starts total = .ok result) ↔
      ((∃ start ∈ starts, ∃ index, (frame signal framing start).sample index ≠ 0) →
        framing.order + 1 ≤ maxLength) := by
  rw [(ranged_accumulate signal horder starts total).exists_eq_ok_iff, LacksCoefficients]
  simp only [Signal.energy_pos_iff, not_and', not_lt]

/-! ## The normalized residual -/

theorem exists_heard_iff (hhop : 1 ≤ framing.hop) :
    (∃ index, Heard signal framing index) ↔
      ∃ start ∈ frameStarts framing signal.size, ∃ index,
        (frame signal framing start).sample index ≠ 0 := by
  constructor
  · intro hheard
    obtain ⟨index, start, hcomplete, _, hsample⟩ := hheard
    exact ⟨start, (mem_frameStarts_iff hhop _ _).mpr hcomplete, _, hsample⟩
  · intro hframe
    obtain ⟨start, hstart, index, hsample⟩ := hframe
    refine ⟨start + index, start, (mem_frameStarts_iff hhop _ _).mp hstart,
      Nat.le_add_right _ _, ?_⟩
    rwa [Nat.add_sub_cancel_left]

theorem Heard.lt_size {index : Nat} (hheard : Heard signal framing index) :
    index < signal.size := by
  obtain ⟨start, hcomplete, hstart, hsample⟩ := hheard
  by_contra hsize
  apply hsample
  apply Signal.sample_of_size_le
  have hfits := hcomplete.fits
  rw [size_frame]
  omega

/-- The residual of a signal whose frames have been added up can be returned if the
indices behind the last frame stay in range. -/
theorem exists_residual_eq_ok_iff (hhop : 1 ≤ framing.hop) (hframe : 2 ≤ framing.frameLength)
    (hsum : signal.size + framing.hop ≤ maxIndex) :
    (∃ result, residual signal framing = .ok result) ↔
      framing.frameLength ≤ maxLength ∧
        ∃ total, accumulate signal framing (frameStarts framing signal.size)
          (.silence signal.size) = .ok total := by
  constructor
  · intro hresult
    obtain ⟨result, hresult⟩ := hresult
    obtain ⟨_, _, _, hstored, total, htotal, _⟩ := residual_eq_ok_iff.mp hresult
    exact ⟨hstored, total, htotal⟩
  · intro hparts
    obtain ⟨hstored, total, htotal⟩ := hparts
    refine ⟨total.normalize, residual_eq_ok_iff.mpr
      ⟨hhop, signal.allFinite_real, hframe, hstored, total, htotal, ?_, rfl⟩⟩
    rw [Bool.or_eq_true, List.isEmpty_iff]
    cases Nat.lt_or_ge signal.size framing.frameLength with
    | inl hshort =>
        exact .inl (frameStarts_of_size_lt hshort)
    | inr hlong => exact .inr (Framing.fitsIndex_of_add_le hlong hsum)

/-- If no frame is heard nothing is added up. -/
theorem total_of_unheard {total : Signal ℝ} (hhop : 1 ≤ framing.hop) (horder : 1 ≤ framing.order)
    (htotal : accumulate signal framing (frameStarts framing signal.size)
      (.silence signal.size) = .ok total) (hunheard : ∀ index, ¬ Heard signal framing index) :
    total = .silence signal.size := by
  have hsilent : ∀ start ∈ frameStarts framing signal.size, ∀ index,
      (frame signal framing start).sample index = 0 := by
    intro start hstart index
    by_contra hne
    obtain ⟨heard, hheard⟩ := (exists_heard_iff hhop).mpr ⟨start, hstart, index, hne⟩
    exact hunheard heard hheard
  rw [accumulate_of_silent horder _ hsilent, Except.ok.injEq] at htotal
  exact htotal.symm

/-- At the first index at which a frame is heard the sum has the sign of the signal. -/
theorem total_at_onset {total : Signal ℝ} {onset : Nat} (hhop : 1 ≤ framing.hop)
    (horder : 1 ≤ framing.order)
    (htotal : accumulate signal framing (frameStarts framing signal.size)
      (.silence signal.size) = .ok total)
    (honset : IsLeast {index | Heard signal framing index} onset) :
    (∀ index < onset, total.sample index = 0) ∧ 0 < total.sample onset * signal.sample onset := by
  have hsilent : ∀ start ∈ frameStarts framing signal.size, ∀ index < onset,
      delayed (frame signal framing start) start index = 0 := by
    intro start hstart index hindex
    by_contra hne
    rw [delayed, ite_eq_right_iff, Classical.not_imp] at hne
    exact hindex.not_ge
      (honset.2 ⟨start, (mem_frameStarts_iff hhop _ _).mp hstart, hne.1, hne.2⟩)
  obtain ⟨start, hcomplete, hstart, hheard⟩ := honset.1
  obtain ⟨hleads, hpositive⟩ := leads_accumulate horder htotal
    (by rw [Signal.size_silence]; exact honset.1.lt_size)
    (leads_silence signal signal.size onset) hsilent
  refine ⟨hleads.before,
    hpositive (.inr ⟨start, (mem_frameStarts_iff hhop _ _).mpr hcomplete, ?_⟩)⟩
  rwa [delayed, if_pos hstart]

/-- The residual of a signal exists if the frames and, unless all frames are silent,
the coefficients of their predictors can be stored.  It has the length of the signal and
is zero where no complete frame reaches.  Only a silent frame contributes nothing.  If
no frame is heard the residual is silent; otherwise its peak is one, and its first
sample that is not zero is at the first index at which a frame is heard and has the sign
of the signal there. -/
theorem residual_starts_with_signal (signal : Signal ℝ) (framing : Framing)
    (hhop : 1 ≤ framing.hop) (horder : 1 ≤ framing.order) (hframe : 2 ≤ framing.frameLength)
    (hsize : signal.size < 2 ^ 62) (hhopSize : framing.hop < 2 ^ 62) :
    ((∃ result, residual signal framing = .ok result) ↔
        framing.frameLength ≤ maxLength ∧
          ((∃ index, Heard signal framing index) → framing.order + 1 ≤ maxLength)) ∧
      (∀ start, whiten (frame signal framing start) framing.order framing.method = .ok none ↔
        ∀ index, (frame signal framing start).sample index = 0) ∧
      ∀ result, residual signal framing = .ok result →
        result.size = signal.size ∧
        (∀ index, (∀ start, framing.IsComplete signal.size start → start ≤ index →
            start + framing.frameLength ≤ index) → result.sample index = 0) ∧
        ((∀ index, ¬ Heard signal framing index) → result = .silence signal.size) ∧
        ∀ onset, IsLeast {index | Heard signal framing index} onset →
          result.peak = 1 ∧ (∀ index < onset, result.sample index = 0) ∧
            0 < result.sample onset * signal.sample onset := by
  have hsum : signal.size + framing.hop ≤ maxIndex := by
    rw [maxIndex]
    omega
  refine ⟨?_, fun start => whiten_eq_ok_none_iff _ _ horder, fun result hresult => ?_⟩
  · rw [exists_residual_eq_ok_iff hhop hframe hsum, exists_accumulate_eq_ok_iff horder,
      exists_heard_iff hhop]
  obtain ⟨_, _, _, _, total, htotal, _, hnormalize⟩ := residual_eq_ok_iff.mp hresult
  obtain ⟨factor, hfactor, hscaled⟩ := total.exists_normalize_eq_scaled
  have hsample : ∀ index, result.sample index = factor * total.sample index := by
    intro index
    rw [← hnormalize, hscaled, Signal.sample_scaled]
  have hresultSize := size_of_residual_eq_ok hresult
  refine ⟨hresultSize, fun index huncovered => ?_, fun hunheard => ?_, fun onset honset => ?_⟩
  · cases Nat.lt_or_ge index signal.size with
    | inl hindex =>
        rw [hsample, sample_accumulate_of_uncovered horder htotal
          (by rwa [Signal.size_silence])
          fun start hstart => huncovered start ((mem_frameStarts_iff hhop _ _).mp hstart),
          Signal.silence, Signal.sample_tabulate, ite_self, mul_zero]
    | inr hindex => exact Signal.sample_of_size_le _ (by rwa [hresultSize])
  · rw [← hnormalize, total_of_unheard hhop horder htotal hunheard, Signal.silence_normalize]
  · obtain ⟨hbefore, hproduct⟩ := total_at_onset hhop horder htotal honset
    have hpeak : 0 < total.peak :=
      (abs_pos.mpr (left_ne_zero_of_mul hproduct.ne')).trans_le (total.abs_sample_le_peak onset)
    refine ⟨by rw [← hnormalize, Signal.peak_normalize hpeak], fun index hindex => ?_, ?_⟩
    · rw [hsample, hbefore index hindex, mul_zero]
    · rw [hsample, mul_assoc]
      exact mul_pos hfactor hproduct

private theorem sample_frame_hanning_three (signal : Signal ℝ) {index : Nat}
    (hindex : index < 3) :
    (frame signal ⟨3, 1, 1, .autocorrelation, .hanning⟩ 0).sample index =
      signal.sample index * (0.5 - 0.5 * Real.cos (Real.pi * index)) := by
  have hphase : 2 * Real.pi * index / (3 - 1 : Nat) = Real.pi * index := by
    norm_num
    ring
  rw [frame, Signal.sample_tabulate, if_pos hindex, Nat.zero_add, WindowKind.shape,
    Window.weight_two_cosines, hphase]

/-- Behind the zero edge of a Hanning window the residual starts at the second sample,
with its sign. -/
theorem residual_starts_with_signal_of_masked_edge :
    ∃ result : Signal ℝ,
      residual #[5, -2, 3] ⟨3, 1, 1, .autocorrelation, .hanning⟩ = .ok result ∧
        result.peak = 1 ∧ result.sample 0 = 0 ∧ result.sample 1 < 0 := by
  obtain ⟨hexists, _, hresidual⟩ := residual_starts_with_signal #[5, -2, 3]
    ⟨3, 1, 1, .autocorrelation, .hanning⟩ (by decide) (by decide) (by decide) (by decide)
    (by decide)
  obtain ⟨result, hresult⟩ := hexists.mpr ⟨by decide, fun _ => by decide⟩
  have hsecond : Signal.sample #[5, -2, 3] 1 = (-2 : ℝ) := rfl
  have honset : IsLeast
      {index | Heard #[5, -2, 3] ⟨3, 1, 1, .autocorrelation, .hanning⟩ index} 1 := by
    constructor
    · refine ⟨0, ⟨one_dvd 0, by decide⟩, by decide, ?_⟩
      rw [Nat.sub_zero, sample_frame_hanning_three _ (by decide), hsecond]
      norm_num
    · intro index hheard
      obtain ⟨start, hcomplete, hstart, hsample⟩ := hheard
      by_contra hindex
      obtain rfl : index = 0 := by omega
      obtain rfl : start = 0 := by omega
      rw [Nat.sub_zero, sample_frame_hanning_three _ (by decide)] at hsample
      norm_num at hsample
  obtain ⟨hpeak, hbefore, hsign⟩ := (hresidual result hresult).2.2.2 1 honset
  rw [hsecond] at hsign
  exact ⟨result, hresult, hpeak, hbefore 0 (by decide), by linarith⟩

/-- A window of two to the power of sixty samples cannot be stored, although all sizes
stay below two to the power of sixty-two. -/
theorem not_forall_residual_eq_ok :
    ¬ ∀ (signal : Signal ℝ) (framing : Framing), 1 ≤ framing.hop → 1 ≤ framing.order →
      2 ≤ framing.frameLength → signal.size < 2 ^ 62 → framing.frameLength < 2 ^ 62 →
      framing.hop < 2 ^ 62 → framing.order < 2 ^ 62 →
      ∃ result, residual signal framing = .ok result := by
  intro hall
  obtain ⟨result, hresult⟩ := hall #[] ⟨2 ^ 60, 1, 1, .autocorrelation, .hanning⟩
    (by decide) (by decide) (by decide) (by decide) (by decide) (by decide) (by decide)
  obtain ⟨_, _, _, hstored, _⟩ := residual_eq_ok_iff.mp hresult
  exact absurd hstored (by decide)

end Glottis.Residual
