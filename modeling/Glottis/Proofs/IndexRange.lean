import Mathlib
import Glottis.InverseFilter
import Glottis.Proofs.Checks
import Glottis.Proofs.Lengths
import Glottis.Proofs.ResidualOnset
import Glottis.Proofs.SedreamsTraces
import Glottis.Proofs.ShortRecordings
import Glottis.Proofs.TurningPoints
import Glottis.Proofs.WhitenedFrames
import Glottis.Sedreams

/-!
# Index range of the analyses

The conditions on a configuration bound its lengths, spans and orders from below only.
A sum of indices leaves the 64-bit range exactly where a frame, the coefficients of a
predictor, the end of the last frame or the end of a search window cannot be stored, so
this is what a configuration has to be kept from beyond its own conditions.
-/

namespace Glottis

variable {α : Type} [Scalar α]

namespace Residual

variable {framing : Framing}

inductive Leaves (signal : Signal α) (framing : Framing) : Prop where
  | frame (hframe : maxLength < framing.frameLength)
  | order (hlacks : LacksCoefficients signal framing (frameStarts framing signal.size))
  | lastFrame (hstarts : frameStarts framing signal.size ≠ [])
      (hindex : framing.fitsIndex signal.size = false)

theorem ranged_residual {signal : Signal α} (hhop : 1 ≤ framing.hop)
    (hframe : 2 ≤ framing.frameLength) (horder : 1 ≤ framing.order)
    (hfinite : signal.allFinite = true) :
    Ranged (Leaves signal framing) (residual signal framing) := by
  rw [residual, require_bind_of (decide_eq_true hhop), require_bind_of hfinite,
    Window.checkLength, require_bind_of (decide_eq_true hframe)]
  have hlast (total : Signal α) :
      Ranged (((frameStarts framing signal.size).isEmpty || framing.fitsIndex signal.size) = false)
        (do
          require ((frameStarts framing signal.size).isEmpty || framing.fitsIndex signal.size)
            .indexOverflow
          return total.normalize : Except (AnalysisError α) (Signal α)) :=
    (Ranged.check.bind fun _ _ => .inside not_false total.normalize).congr (by tauto)
  refine (Ranged.check.bind fun _ _ =>
    (ranged_accumulate signal horder _ _).bind fun total _ => hlast total).congr ?_
  rw [decide_eq_false_iff_not, not_le, Bool.or_eq_false_iff, List.isEmpty_eq_false_iff]
  constructor
  · rintro (hframe | ⟨-, hlacks | ⟨-, hstarts, hindex⟩⟩)
    · exact .frame hframe
    · exact .order hlacks
    · exact .lastFrame hstarts hindex
  · intro hleaves
    cases hleaves with
    | frame hframe => exact .inl hframe
    | order hlacks => tauto
    | lastFrame hstarts hindex => tauto

end Residual

namespace Sedreams

variable {config : SedreamsConfig α} {signal : Signal α} {sampleRate meanF0 : α}

/-- A search window that starts at one of some indices ends beyond the index range. -/
def LeavesWindow (span : Nat) (starts : List Nat) : Prop :=
  ∃ start ∈ starts, maxIndex < start + span

theorem ranged_instants (residual : Signal α) (span : Nat) (threshold : α) (starts : List Nat) :
    Ranged (LeavesWindow span starts) (instants residual span threshold starts) := by
  rw [instants]
  refine (Ranged.check.bind fun _ _ => .inside not_false _).congr ?_
  rw [LeavesWindow, and_false, or_false, List.all_eq_false]
  simp only [decide_eq_true_eq, not_le]

inductive Leaves (config : SedreamsConfig α) (signal : Signal α) (sampleRate meanF0 : α) :
    Prop where
  | residual (hresidual : Residual.Leaves signal (config.framing sampleRate))
  | closure {meanBased : Signal α}
      (hmeanBased : MeanBased.meanBased signal sampleRate (1 / meanF0) config = .ok meanBased)
      (hwindow : LeavesWindow (spanSamples config.gciSearchSpan sampleRate (1 / meanF0))
        (Extremum.find meanBased .minimum))
  | opening {meanBased : Signal α}
      (hmeanBased : MeanBased.meanBased signal sampleRate (1 / meanF0) config = .ok meanBased)
      (hwindow : LeavesWindow (spanSamples config.goiSearchSpan sampleRate (1 / meanF0))
        (Extremum.find meanBased .maximum))

theorem ranged_detect (hrate : Scalar.isPositive sampleRate = true)
    (hf0 : Scalar.isPositive meanF0 = true) (hsize : 3 ≤ signal.size)
    (hhop : 1 ≤ (config.framing sampleRate).hop)
    (hframe : 2 ≤ (config.framing sampleRate).frameLength) (horder : 1 ≤ config.lpcOrder)
    (hfinite : signal.allFinite = true) :
    Ranged (Leaves config signal sampleRate meanF0) (detect config signal sampleRate meanF0) := by
  obtain ⟨meanBased, hmeanBased⟩ :=
    MeanBased.exists_meanBased_eq_ok hsize sampleRate (1 / meanF0) config
  have hresidual := Residual.ranged_residual hhop hframe horder hfinite
  rw [detect, require_bind_of hrate, require_bind_of hf0, if_neg (not_lt.mpr hsize)]
  dsimp only
  rw [hmeanBased]
  refine (hresidual.bind fun raw _ =>
    (ranged_instants (cleanResidual raw) _ _ _).bind fun closures _ =>
      (ranged_instants (cleanResidual raw) _ _ _).bind fun openings _ =>
        .inside not_false (pairInstants openings (sortedDistinct closures))).congr ?_
  constructor
  · rintro (hleaves | ⟨-, hclosure | ⟨-, hopening | ⟨-, hfalse⟩⟩⟩)
    · exact .residual hleaves
    · exact .closure hmeanBased hclosure
    · exact .opening hmeanBased hopening
    · exact hfalse.elim
  · intro hleaves
    cases hleaves with
    | residual hresidual => exact .inl hresidual
    | closure hother hclosure =>
        rw [Except.ok.inj (hother.symm.trans hmeanBased)] at hclosure
        tauto
    | opening hother hopening =>
        rw [Except.ok.inj (hother.symm.trans hmeanBased)] at hopening
        tauto

/-- A detection leaves the index range only on at least three samples, with a hop and a
frame that can be used; otherwise it returns nothing or reports the hop or the frame. -/
theorem detect_eq_indexOverflow_iff (hrate : Scalar.isPositive sampleRate = true)
    (hf0 : Scalar.isPositive meanF0 = true) (horder : 1 ≤ config.lpcOrder)
    (hfinite : signal.allFinite = true) :
    detect config signal sampleRate meanF0 = .error .indexOverflow ↔
      3 ≤ signal.size ∧ 1 ≤ (config.framing sampleRate).hop ∧
        2 ≤ (config.framing sampleRate).frameLength ∧
        Leaves config signal sampleRate meanF0 := by
  constructor
  · intro herror
    have hsize : 3 ≤ signal.size := by
      by_contra hshort
      rw [detect, require_bind_of hrate, require_bind_of hf0, if_pos (not_le.mp hshort)] at herror
      cases herror
    have hparts := herror
    rw [detect, require_bind_of hrate, require_bind_of hf0, if_neg (not_lt.mpr hsize)] at hparts
    have hhop : 1 ≤ (config.framing sampleRate).hop := by
      by_contra hhop
      rw [Residual.residual, decide_eq_false hhop] at hparts
      cases hparts
    have hframe : 2 ≤ (config.framing sampleRate).frameLength := by
      by_contra hframe
      rw [Residual.residual, require_bind_of (decide_eq_true hhop), require_bind_of hfinite,
        Window.checkLength, decide_eq_false hframe] at hparts
      cases hparts
    exact ⟨hsize, hhop, hframe,
      (ranged_detect hrate hf0 hsize hhop hframe horder hfinite).eq_error_iff.mp herror⟩
  · rintro ⟨hsize, hhop, hframe, hleaves⟩
    exact (ranged_detect hrate hf0 hsize hhop hframe horder hfinite).eq_error_iff.mpr hleaves

/-- A search window that is no wider than the room behind the signal stays in range. -/
theorem not_leavesWindow_find {meanBased : Signal α} {span : Nat}
    (hmeanBased : MeanBased.meanBased signal sampleRate (1 / meanF0) config = .ok meanBased)
    (hspan : signal.size + span ≤ maxIndex) (extremum : Extremum) :
    ¬ LeavesWindow span (Extremum.find meanBased extremum) := by
  rintro ⟨start, hstart, hleaves⟩
  have hlast := Extremum.succ_lt_size_of_mem_find hstart
  rw [MeanBased.size_of_meanBased_eq_ok hmeanBased] at hlast
  omega

/-- With search windows that stay in range a detection leaves it where its residual does. -/
theorem leaves_iff_residual_leaves
    (hclosure : signal.size + spanSamples config.gciSearchSpan sampleRate (1 / meanF0) ≤ maxIndex)
    (hopening : signal.size + spanSamples config.goiSearchSpan sampleRate (1 / meanF0) ≤ maxIndex) :
    Leaves config signal sampleRate meanF0 ↔
      Residual.Leaves signal (config.framing sampleRate) := by
  constructor
  · intro hleaves
    cases hleaves with
    | residual hresidual => exact hresidual
    | closure hmeanBased hleaves =>
        exact absurd hleaves (not_leavesWindow_find hmeanBased hclosure .minimum)
    | opening hmeanBased hleaves =>
        exact absurd hleaves (not_leavesWindow_find hmeanBased hopening .maximum)
  · exact .residual

end Sedreams

namespace InverseFilter

variable {config : InverseFilterConfig α} {segment : Signal α} {sampleRate : α}

/-- What makes the orders of an inverse filter, or its indices on a segment, leave their
range. -/
def Leaves (config : InverseFilterConfig α) (segment : Signal α) (sampleRate : α) : Prop :=
  maxIndex < config.vocalTractAt sampleRate ∨ maxIndex < config.glottisAt sampleRate ∨
    2 ≤ segment.size ∧
      (maxLength < segment.size + (2 * config.vocalTractAt sampleRate + 1) ∨
        maxLength < config.glottisAt sampleRate + 1)

theorem one_le_vocalTractAt (horder : config.vocalTractOrder ≠ some 0) (sampleRate : α) :
    1 ≤ config.vocalTractAt sampleRate := by
  rw [InverseFilterConfig.vocalTractAt]
  cases horders : config.vocalTractOrder with
  | none => exact Nat.le_add_left 1 _
  | some order =>
      rw [horders] at horder
      exact Nat.one_le_iff_ne_zero.mpr fun hzero => horder (congrArg some hzero)

theorem one_le_glottisAt (horder : config.glottisOrder ≠ some 0) (sampleRate : α) :
    1 ≤ config.glottisAt sampleRate := by
  rw [InverseFilterConfig.glottisAt]
  cases horders : config.glottisOrder with
  | none => exact Nat.le_max_right _ 1
  | some order =>
      rw [horders] at horder
      exact Nat.one_le_iff_ne_zero.mpr fun hzero => horder (congrArg some hzero)

theorem ranged_orders (config : InverseFilterConfig α) (sampleRate : α) :
    Ranged (maxIndex < config.vocalTractAt sampleRate ∨ maxIndex < config.glottisAt sampleRate)
      (config.orders sampleRate) := by
  rw [InverseFilterConfig.orders]
  refine (Ranged.check.bind fun _ _ => Ranged.check.bind fun _ _ => .inside not_false _).congr ?_
  rw [decide_eq_false_iff_not, decide_eq_false_iff_not, not_le, not_le]
  tauto

theorem orders_eq {vocalTract glottis : Nat}
    (horders : config.orders sampleRate = .ok (vocalTract, glottis)) :
    vocalTract = config.vocalTractAt sampleRate ∧ glottis = config.glottisAt sampleRate := by
  rw [InverseFilterConfig.orders, require_bind_eq_ok_iff, require_bind_eq_ok_iff, pure_eq_ok_iff,
    Prod.mk.injEq] at horders
  exact ⟨horders.2.2.1.symm, horders.2.2.2.symm⟩

theorem ranged_indexedInverseFilter {vocalTract glottis : Nat} {lipRadiation : α}
    (hvalid : validate segment ⟨vocalTract, glottis, lipRadiation⟩ = .ok ()) :
    Ranged (maxLength < segment.size + (2 * vocalTract + 1) ∨ maxLength < glottis + 1)
      (indexedInverseFilter segment ⟨vocalTract, glottis, lipRadiation⟩) := by
  rw [indexedInverseFilter, hvalid]
  refine (Ranged.check.bind fun _ _ => .inside not_false
    (source segment ⟨vocalTract, glottis, lipRadiation⟩)).congr ?_
  rw [fitsIndex, Bool.and_eq_false_iff, decide_eq_false_iff_not, decide_eq_false_iff_not, not_le,
    not_le, rampLength, and_false, or_false]

theorem ranged_ofConfig (hvalid : config.validate = .ok ())
    (hrate : Scalar.isPositive sampleRate = true) (hfinite : segment.allFinite = true)
    (hsize : 2 ≤ segment.size) :
    Ranged (Leaves config segment sampleRate) (ofConfig segment sampleRate config) := by
  rw [InverseFilterConfig.validate, require_bind_eq_ok_iff, require_eq_ok_iff, Bool.and_eq_true,
    Bool.and_eq_true, bne_iff_ne, bne_iff_ne] at hvalid
  obtain ⟨⟨hlips, -⟩, hvocalTract, hglottis⟩ := hvalid
  have hsegment (vocalTract glottis : Nat)
      (horders : config.orders sampleRate = .ok (vocalTract, glottis)) :
      Ranged (maxLength < segment.size + (2 * config.vocalTractAt sampleRate + 1) ∨
          maxLength < config.glottisAt sampleRate + 1)
        (indexedInverseFilter segment ⟨vocalTract, glottis, config.lipRadiation⟩) := by
    obtain ⟨rfl, rfl⟩ := orders_eq horders
    apply ranged_indexedInverseFilter
    rw [validate, require_bind_of (decide_eq_true hsize),
      require_bind_of (decide_eq_true (one_le_vocalTractAt hvocalTract sampleRate)),
      require_bind_of (decide_eq_true (one_le_glottisAt hglottis sampleRate)),
      require_bind_of hlips, hfinite]
    rfl
  rw [ofConfig, require_bind_of hrate]
  refine ((ranged_orders config sampleRate).bind fun orders horders =>
    hsegment orders.1 orders.2 horders).congr ?_
  rw [Leaves]
  tauto

/-- An inverse filter with accepted constants leaves the index range where an order or the
extended segment does; a segment of fewer than two samples is reported. -/
theorem ofConfig_eq_indexOverflow_iff (hvalid : config.validate = .ok ())
    (hrate : Scalar.isPositive sampleRate = true) (hfinite : segment.allFinite = true) :
    ofConfig segment sampleRate config = .error .indexOverflow ↔
      Leaves config segment sampleRate := by
  by_cases hsize : 2 ≤ segment.size
  · exact (ranged_ofConfig hvalid hrate hfinite hsize).eq_error_iff
  · have horders := ranged_orders config sampleRate
    rw [ofConfig, require_bind_of hrate, Leaves, ← or_assoc,
      or_iff_left (fun hsegment => hsize hsegment.1)]
    generalize config.orders sampleRate = outcome at horders
    cases horders with
    | outside houtside => exact iff_of_true rfl houtside
    | inside hinside orders =>
        have hshort : indexedInverseFilter segment
            ⟨orders.1, orders.2, config.lipRadiation⟩ = .error .segmentTooShort := by
          rw [indexedInverseFilter, validate, decide_eq_false hsize]
          rfl
        refine iff_of_false (fun herror => ?_) hinside
        cases hshort.symm.trans herror

end InverseFilter

theorem Config.validate_eq_ok {config : Config α} (hvalid : config.validate = .ok ()) :
    1 ≤ config.sedreams.lpcOrder ∧ config.inverseFilter.validate = .ok () := by
  rw [Config.validate, bind_eq_ok_iff] at hvalid
  obtain ⟨_, hsedreams, hvalid⟩ := hvalid
  rw [bind_eq_ok_iff] at hvalid
  obtain ⟨_, _, hinverseFilter⟩ := hvalid
  rw [SedreamsConfig.validate, require_bind_eq_ok_iff, require_bind_eq_ok_iff,
    require_bind_eq_ok_iff] at hsedreams
  exact ⟨of_decide_eq_true hsedreams.2.2.1, hinverseFilter⟩

/-- Under an accepted configuration the analyses of a finite signal leave the index range
exactly where a frame, the coefficients of a predictor, the end of the last frame, the end
of a search window, an order or the extended segment is too large, none of which the
conditions on the configuration rule out. -/
theorem accepted_config_leaves_index_range_iff {config : Config α} {signal : Signal α}
    {sampleRate meanF0 : α} (hvalid : config.validate = .ok ())
    (hrate : Scalar.isPositive sampleRate = true) (hf0 : Scalar.isPositive meanF0 = true)
    (hfinite : signal.allFinite = true) :
    (Sedreams.detect config.sedreams signal sampleRate meanF0 = .error .indexOverflow ↔
      3 ≤ signal.size ∧ 1 ≤ (config.sedreams.framing sampleRate).hop ∧
        2 ≤ (config.sedreams.framing sampleRate).frameLength ∧
        Sedreams.Leaves config.sedreams signal sampleRate meanF0) ∧
    (InverseFilter.ofConfig signal sampleRate config.inverseFilter = .error .indexOverflow ↔
      InverseFilter.Leaves config.inverseFilter signal sampleRate) := by
  obtain ⟨horder, hinverseFilter⟩ := Config.validate_eq_ok hvalid
  exact ⟨Sedreams.detect_eq_indexOverflow_iff hrate hf0 horder hfinite,
    InverseFilter.ofConfig_eq_indexOverflow_iff hinverseFilter hrate hfinite⟩

/-! ## A span that is too wide -/

/-- The standard constants without high-pass filtering and with openings searched far
behind the end of any signal. -/
noncomputable def wideSpan : Config ℝ :=
  { Config.standard with
    sedreams := { Sedreams.unfiltered with goiSearchSpan := (10 ^ 200 : Nat) } }

theorem validate_wideSpan : wideSpan.validate = .ok () := by
  have hsedreams : wideSpan.sedreams.validate = .ok () := by
    simp only [SedreamsConfig.validate, require_bind_eq_ok_iff, require_eq_ok_iff,
      Bool.and_eq_true, decide_eq_true_eq]
    norm_num [wideSpan, Sedreams.unfiltered, SedreamsConfig.standard]
  have hinverseFilter : wideSpan.inverseFilter.validate = .ok () := by
    simp only [InverseFilterConfig.validate, require_bind_eq_ok_iff, require_eq_ok_iff,
      Bool.and_eq_true, decide_eq_true_eq, Scalar.magnitude_real]
    refine ⟨⟨rfl, ?_⟩, rfl, rfl⟩
    norm_num [wideSpan, Config.standard, InverseFilterConfig.standard]
  simp only [Config.validate, bind_eq_ok_iff]
  exact ⟨(), hsedreams, (), rfl, hinverseFilter⟩

/-- The window behind the rise of the two dips leaves the index range. -/
theorem leaves_wideSpan : Sedreams.Leaves wideSpan.sedreams Sedreams.twoDips 1000 50 := by
  have hspan : Sedreams.spanSamples wideSpan.sedreams.goiSearchSpan 1000 (1 / 50) = maxIndex := by
    have hpower : maxIndex ≤ 10 ^ 200 :=
      calc
        maxIndex ≤ 10 ^ 20 := by decide
        _ ≤ 10 ^ 200 := Nat.pow_le_pow_right (by decide) (by decide)
    apply Scalar.round_of_maxIndex_le
    change (maxIndex : ℝ) ≤ (10 ^ 200 : Nat) * 1000 * (1 / 50)
    generalize (10 ^ 200 : Nat) = span at hpower ⊢
    have hspan : (maxIndex : ℝ) ≤ span := Nat.cast_le.mpr hpower
    have hindex : (0 : ℝ) ≤ maxIndex := Nat.cast_nonneg maxIndex
    linarith
  refine .opening (Sedreams.meanBased_twoDips rfl 1000 (1 / 50)) ⟨2, ?_, ?_⟩
  · rw [Sedreams.find_normalize_average_twoDips.2]
    exact List.mem_singleton_self 2
  · rw [hspan]
    decide

theorem outside_wideSpan :
    3 ≤ Sedreams.twoDips.size ∧ 1 ≤ (wideSpan.sedreams.framing 1000).hop ∧
      2 ≤ (wideSpan.sedreams.framing 1000).frameLength ∧
      Sedreams.Leaves wideSpan.sedreams Sedreams.twoDips 1000 50 := by
  have hhop : (wideSpan.sedreams.framing 1000).hop = 5 := Sedreams.hop_unfiltered
  have hframe : (wideSpan.sedreams.framing 1000).frameLength = 25 :=
    Sedreams.frameLength_unfiltered
  rw [hhop, hframe]
  exact ⟨by decide, by decide, by decide, leaves_wideSpan⟩

/-- The orders of the standard inverse filter are small at a low rate. -/
theorem inside_wideSpan :
    ¬ InverseFilter.Leaves wideSpan.inverseFilter Sedreams.twoDips 1000 := by
  have hvocalTract : wideSpan.inverseFilter.vocalTractAt 1000 ≤ 6 := by
    have hround : Scalar.round ((1000 : ℝ) / 2000.0) ≤ 1 := Scalar.round_le_one (by norm_num)
    change 2 * Scalar.round ((1000 : ℝ) / 2000.0) + 4 ≤ 6
    omega
  have hglottis : wideSpan.inverseFilter.glottisAt 1000 ≤ 2 := by
    have hround : Scalar.round ((1000 : ℝ) / 4000.0) ≤ 1 := Scalar.round_le_one (by norm_num)
    change max (2 * Scalar.round ((1000 : ℝ) / 4000.0)) 1 ≤ 2
    omega
  have hsize : Sedreams.twoDips.size = 5 := rfl
  rw [InverseFilter.Leaves, hsize, maxIndex, maxLength]
  omega

/-- Under a span that is accepted but too wide the search for openings leaves the range,
while the inverse filter stays in it. -/
theorem accepted_config_leaves_index_range_of_wideSpan :
    wideSpan.validate = .ok () ∧
      Sedreams.detect wideSpan.sedreams Sedreams.twoDips 1000 50 = .error .indexOverflow ∧
      InverseFilter.ofConfig Sedreams.twoDips 1000 wideSpan.inverseFilter ≠
        .error .indexOverflow := by
  obtain ⟨hdetect, hinverseFilter⟩ := accepted_config_leaves_index_range_iff validate_wideSpan
    ((Scalar.isPositive_real_iff 1000).mpr (by norm_num))
    ((Scalar.isPositive_real_iff 50).mpr (by norm_num)) Sedreams.twoDips.allFinite_real
  exact ⟨validate_wideSpan, hdetect.mpr outside_wideSpan, hinverseFilter.not.mpr inside_wideSpan⟩

/-- Not every accepted configuration keeps a detection in the index range. -/
theorem not_forall_accepted_config_in_index_range :
    ¬ ∀ (config : Config ℝ) (signal : Signal ℝ) (sampleRate meanF0 : ℝ),
      config.validate = .ok () → 0 < sampleRate → 0 < meanF0 →
      Sedreams.detect config.sedreams signal sampleRate meanF0 ≠ .error .indexOverflow := by
  intro hrange
  refine hrange wideSpan Sedreams.twoDips 1000 50 validate_wideSpan (by norm_num) (by norm_num) ?_
  rw [Sedreams.detect_eq_indexOverflow_iff ((Scalar.isPositive_real_iff 1000).mpr (by norm_num))
    ((Scalar.isPositive_real_iff 50).mpr (by norm_num)) (by decide) Sedreams.twoDips.allFinite_real]
  exact outside_wideSpan

end Glottis
