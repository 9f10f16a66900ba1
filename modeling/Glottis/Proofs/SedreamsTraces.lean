import Mathlib
import Glottis.Proofs.Lengths
import Glottis.Sedreams

/-!
# The traces of a recording

Instants are searched in two signals that are derived from a recording: the cleaned
residual and the mean-based signal.  Detection succeeds if both exist and every
search window ends at a valid index, and it pairs the instants that the turning
points of the mean-based signal lead to.
-/

namespace Glottis.Sedreams

variable {α : Type} [Scalar α]

/-- The two signals in which instants are searched: the cleaned residual and the
mean-based signal of a recording. -/
structure Traces (config : SedreamsConfig α) (signal : Signal α) (sampleRate meanF0 : α)
    (residual meanBased : Signal α) : Prop where
  residual_eq : ∃ raw, Residual.residual signal (config.framing sampleRate) = .ok raw ∧
    cleanResidual raw = residual
  meanBased_eq : MeanBased.meanBased signal sampleRate (1 / meanF0) config = .ok meanBased

/-- The instants of a polarity, in the order of their turning points. -/
def instantList (sampleRate meanF0 : α) (residual meanBased : Signal α)
    (extremum : Extremum) (span threshold : α) : List Nat :=
  (Extremum.find meanBased extremum).map fun start =>
    strongestAbove residual start (spanSamples span sampleRate (1 / meanF0)) threshold

theorem Traces.size_residual {config : SedreamsConfig α} {signal : Signal α}
    {sampleRate meanF0 : α} {residual meanBased : Signal α}
    (htraces : Traces config signal sampleRate meanF0 residual meanBased) :
    residual.size = signal.size := by
  obtain ⟨raw, hraw, hclean⟩ := htraces.residual_eq
  rw [← hclean, cleanResidual, Array.size_map, Residual.size_of_residual_eq_ok hraw]

theorem Traces.size_meanBased {config : SedreamsConfig α} {signal : Signal α}
    {sampleRate meanF0 : α} {residual meanBased : Signal α}
    (htraces : Traces config signal sampleRate meanF0 residual meanBased) :
    meanBased.size = signal.size :=
  MeanBased.size_of_meanBased_eq_ok htraces.meanBased_eq

/-- A signal determines the two traces that are searched. -/
theorem Traces.unique {config : SedreamsConfig α} {signal : Signal α} {sampleRate meanF0 : α}
    {residual meanBased residual' meanBased' : Signal α}
    (htraces : Traces config signal sampleRate meanF0 residual meanBased)
    (htraces' : Traces config signal sampleRate meanF0 residual' meanBased') :
    residual = residual' ∧ meanBased = meanBased' := by
  obtain ⟨raw, hraw, hclean⟩ := htraces.residual_eq
  obtain ⟨raw', hraw', hclean'⟩ := htraces'.residual_eq
  rw [hraw, Except.ok.injEq] at hraw'
  have hmeanBased := htraces.meanBased_eq.symm.trans htraces'.meanBased_eq
  rw [Except.ok.injEq] at hmeanBased
  exact ⟨by rw [← hclean, ← hclean', hraw'], hmeanBased⟩

theorem instants_eq_ok {residual : Signal α} {span : Nat} {threshold : α} {starts found : List Nat}
    (hfound : instants residual span threshold starts = .ok found) :
    found = starts.map fun start => strongestAbove residual start span threshold := by
  rw [instants, require_bind_eq_ok_iff, pure_eq_ok_iff] at hfound
  exact hfound.2.symm

/-- What a successful detection has computed: nothing for a signal of fewer than
three samples, otherwise the pairing of the instants found in its two traces. -/
theorem exists_instants_of_detect_eq_ok {config : SedreamsConfig α} {signal : Signal α}
    {sampleRate meanF0 : α} {cycles : List GlottalCycle}
    (hcycles : detect config signal sampleRate meanF0 = .ok cycles) :
    (signal.size < 3 ∧ cycles = []) ∨
      ∃ residual meanBased closures openings,
        Traces config signal sampleRate meanF0 residual meanBased ∧
        instants residual (spanSamples config.gciSearchSpan sampleRate (1 / meanF0))
          config.gciThreshold (Extremum.find meanBased .minimum) = .ok closures ∧
        instants residual (spanSamples config.goiSearchSpan sampleRate (1 / meanF0))
          config.goiThreshold (Extremum.find meanBased .maximum) = .ok openings ∧
        cycles = pairInstants openings (sortedDistinct closures) := by
  rw [detect, require_bind_eq_ok_iff, require_bind_eq_ok_iff] at hcycles
  obtain ⟨_, _, hcycles⟩ := hcycles
  by_cases hsize : signal.size < 3
  · rw [if_pos hsize, pure_eq_ok_iff] at hcycles
    exact .inl ⟨hsize, hcycles.symm⟩
  · rw [if_neg hsize] at hcycles
    dsimp only at hcycles
    rw [bind_eq_ok_iff] at hcycles
    obtain ⟨raw, hraw, hcycles⟩ := hcycles
    rw [bind_eq_ok_iff] at hcycles
    obtain ⟨meanBased, hmeanBased, hcycles⟩ := hcycles
    rw [bind_eq_ok_iff] at hcycles
    obtain ⟨closures, hclosures, hcycles⟩ := hcycles
    rw [bind_eq_ok_iff] at hcycles
    obtain ⟨openings, hopenings, hcycles⟩ := hcycles
    rw [pure_eq_ok_iff] at hcycles
    exact .inr ⟨cleanResidual raw, meanBased, closures, openings,
      ⟨⟨raw, hraw, rfl⟩, hmeanBased⟩, hclosures, hopenings, hcycles.symm⟩

theorem detect_eq_ok {config : SedreamsConfig α} {signal : Signal α} {sampleRate meanF0 : α}
    {cycles : List GlottalCycle}
    (hcycles : detect config signal sampleRate meanF0 = .ok cycles) :
    (signal.size < 3 ∧ cycles = []) ∨
      ∃ residual meanBased, Traces config signal sampleRate meanF0 residual meanBased ∧
        cycles = pairInstants
          (instantList sampleRate meanF0 residual meanBased .maximum
            config.goiSearchSpan config.goiThreshold)
          (sortedDistinct (instantList sampleRate meanF0 residual meanBased .minimum
            config.gciSearchSpan config.gciThreshold)) := by
  rcases exists_instants_of_detect_eq_ok hcycles with
    hshort | ⟨residual, meanBased, closures, openings, htraces, hclosures, hopenings, hpaired⟩
  · exact .inl hshort
  · refine .inr ⟨residual, meanBased, htraces, ?_⟩
    rw [hpaired, instants_eq_ok hclosures, instants_eq_ok hopenings]
    rfl

/-- Detection pairs the instants found in the two traces of a signal. -/
theorem detect_of_traces {config : SedreamsConfig α} {signal : Signal α} {sampleRate meanF0 : α}
    {residual meanBased : Signal α} {closures openings : List Nat}
    (hrate : Scalar.isPositive sampleRate = true) (hf0 : Scalar.isPositive meanF0 = true)
    (htraces : Traces config signal sampleRate meanF0 residual meanBased)
    (hclosures : instants residual (spanSamples config.gciSearchSpan sampleRate (1 / meanF0))
      config.gciThreshold (Extremum.find meanBased .minimum) = .ok closures)
    (hopenings : instants residual (spanSamples config.goiSearchSpan sampleRate (1 / meanF0))
      config.goiThreshold (Extremum.find meanBased .maximum) = .ok openings) :
    detect config signal sampleRate meanF0 =
      .ok (pairInstants openings (sortedDistinct closures)) := by
  have hsize := MeanBased.three_le_size_of_meanBased_eq_ok htraces.meanBased_eq
  obtain ⟨raw, hraw, hclean⟩ := htraces.residual_eq
  rw [detect, require_bind_eq_ok_iff, require_bind_eq_ok_iff, if_neg (not_lt.mpr hsize)]
  refine ⟨hrate, hf0, ?_⟩
  dsimp only
  rw [hraw, htraces.meanBased_eq]
  change (instants (cleanResidual raw) _ _ _ >>= fun closures =>
    instants (cleanResidual raw) _ _ _ >>= fun openings => _) = _
  rw [hclean, hclosures, hopenings]
  rfl

end Glottis.Sedreams
