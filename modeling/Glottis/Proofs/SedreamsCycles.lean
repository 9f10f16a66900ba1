import Mathlib
import Glottis.Proofs.InstantPairing
import Glottis.Proofs.ShortRecordings
import Glottis.Proofs.ThresholdSearch
import Glottis.Proofs.TurningPoints

/-!
# Cycles from the residual and the mean-based signal

The detector reports exactly the neighbouring closures with an opening strictly
between them, each with the earliest such opening.  The closures are sorted before
they are paired, the openings are not: that the first opening found is the
earliest one follows from the order of the turning points, because a later turning
point never leads to an earlier instant.
-/

namespace Glottis.Sedreams

variable {α : Type} [Scalar α]

/-- The instants that the turning points of a polarity lead to. -/
def instantSet (config : SedreamsConfig α) (signal : Signal α) (sampleRate meanF0 : α)
    (extremum : Extremum) (span threshold : α) : Set Nat :=
  {index | ∃ residual meanBased, Traces config signal sampleRate meanF0 residual meanBased ∧
    ∃ start ∈ Extremum.find meanBased extremum,
      strongestAbove residual start (spanSamples span sampleRate (1 / meanF0)) threshold =
        index}

/-- The closures of a signal come from the minima of its mean-based signal. -/
def closureSet (config : SedreamsConfig α) (signal : Signal α) (sampleRate meanF0 : α) :
    Set Nat :=
  instantSet config signal sampleRate meanF0 .minimum config.gciSearchSpan config.gciThreshold

/-- The openings of a signal come from the maxima of its mean-based signal. -/
def openingSet (config : SedreamsConfig α) (signal : Signal α) (sampleRate meanF0 : α) :
    Set Nat :=
  instantSet config signal sampleRate meanF0 .maximum config.goiSearchSpan config.goiThreshold

theorem mem_instantSet_iff {config : SedreamsConfig α} {signal : Signal α}
    {sampleRate meanF0 : α} {residual meanBased : Signal α}
    (htraces : Traces config signal sampleRate meanF0 residual meanBased)
    (extremum : Extremum) (span threshold : α) (index : Nat) :
    index ∈ instantSet config signal sampleRate meanF0 extremum span threshold ↔
      index ∈ instantList sampleRate meanF0 residual meanBased extremum span
        threshold := by
  rw [instantList, List.mem_map]
  constructor
  · rintro ⟨residual', meanBased', htraces', hstart⟩
    obtain ⟨rfl, rfl⟩ := htraces.unique htraces'
    exact hstart
  · intro hstart
    exact ⟨residual, meanBased, htraces, hstart⟩

variable [LawfulComparison α]

theorem pairwise_instantList {config : SedreamsConfig α} {signal : Signal α}
    {sampleRate meanF0 : α} {residual meanBased : Signal α}
    (htraces : Traces config signal sampleRate meanF0 residual meanBased)
    (extremum : Extremum) (span threshold : α) :
    (instantList sampleRate meanF0 residual meanBased extremum span
      threshold).Pairwise (· ≤ ·) := by
  rw [instantList, List.pairwise_map]
  refine (Extremum.pairwise_find meanBased extremum).imp_of_mem ?_
  intro first second _ hsecond hlt
  have hsize := Extremum.succ_lt_size_of_mem_find hsecond
  rw [htraces.size_meanBased, ← htraces.size_residual] at hsize
  exact strongestAbove_mono residual _ threshold hlt.le (Nat.lt_of_succ_lt hsize)

theorem lt_size_of_mem_instantList {config : SedreamsConfig α} {signal : Signal α}
    {sampleRate meanF0 : α} {residual meanBased : Signal α}
    (htraces : Traces config signal sampleRate meanF0 residual meanBased)
    {extremum : Extremum} {span threshold : α} {index : Nat}
    (hindex : index ∈ instantList sampleRate meanF0 residual meanBased extremum span
      threshold) : index < signal.size := by
  rw [instantList, List.mem_map] at hindex
  obtain ⟨start, hstart, rfl⟩ := hindex
  have hsize := Extremum.succ_lt_size_of_mem_find hstart
  rw [htraces.size_meanBased, ← htraces.size_residual] at hsize
  rw [← htraces.size_residual]
  exact strongestAbove_lt_size residual _ threshold (Nat.lt_of_succ_lt hsize)

/-- Every reported cycle is well-formed and lies in the signal, cycles are disjoint
and ascending, and a cycle is reported exactly if its ends are neighbouring
closures and its opening is the earliest opening strictly between them. -/
theorem detect_wellFormed_and_complete (config : SedreamsConfig α) (signal : Signal α)
    (sampleRate meanF0 : α) {cycles : List GlottalCycle}
    (hcycles : detect config signal sampleRate meanF0 = .ok cycles) :
    (∀ cycle ∈ cycles, cycle.closure < cycle.opening ∧ cycle.opening < cycle.nextClosure ∧
      cycle.nextClosure < signal.size) ∧
    (cycles.Pairwise fun earlier later => earlier.nextClosure ≤ later.closure) ∧
    ∀ cycle : GlottalCycle, cycle ∈ cycles ↔
      Neighbouring (closureSet config signal sampleRate meanF0)
        cycle.closure cycle.nextClosure ∧
      IsLeast (openingSet config signal sampleRate meanF0 ∩
        Set.Ioo cycle.closure cycle.nextClosure) cycle.opening := by
  rcases detect_eq_ok hcycles with ⟨hsize, rfl⟩ | ⟨residual, meanBased, htraces, rfl⟩
  · refine ⟨by simp, List.Pairwise.nil, fun cycle => ?_⟩
    constructor
    · intro hcycle
      exact absurd hcycle List.not_mem_nil
    · rintro ⟨⟨⟨_, _, htraces, _⟩, _⟩, _⟩
      have := MeanBased.three_le_size_of_meanBased_eq_ok htraces.meanBased_eq
      omega
  · have hsorted := pairwise_sortedDistinct (instantList sampleRate meanF0 residual
      meanBased .minimum config.gciSearchSpan config.gciThreshold)
    have hclosures : closureSet config signal sampleRate meanF0 =
        {index | index ∈ sortedDistinct (instantList sampleRate meanF0 residual
          meanBased .minimum config.gciSearchSpan config.gciThreshold)} := by
      ext index
      rw [closureSet, mem_instantSet_iff htraces, Set.mem_ofPred_eq, mem_sortedDistinct]
    have hopenings : openingSet config signal sampleRate meanF0 =
        {index | index ∈ instantList sampleRate meanF0 residual meanBased .maximum
          config.goiSearchSpan config.goiThreshold} := by
      ext index
      rw [openingSet, mem_instantSet_iff htraces, Set.mem_ofPred_eq]
    have hmem : ∀ cycle : GlottalCycle, _ := fun cycle =>
      (mem_pairInstants_iff (instantList sampleRate meanF0 residual meanBased .maximum
        config.goiSearchSpan config.goiThreshold) hsorted cycle).trans
      (and_congr_right fun _ => openingBetween?_eq_some_iff
        (pairwise_instantList htraces .maximum config.goiSearchSpan config.goiThreshold)
        cycle.closure cycle.nextClosure cycle.opening)
    rw [hclosures, hopenings]
    refine ⟨fun cycle hcycle => ?_, pairwise_pairInstants _ hsorted, hmem⟩
    obtain ⟨⟨_, hnext, _⟩, ⟨_, hbetween⟩, _⟩ := (hmem cycle).mp hcycle
    exact ⟨hbetween.1, hbetween.2,
      lt_size_of_mem_instantList htraces ((mem_sortedDistinct _ _).mp hnext)⟩

theorem detect_wellFormed_and_complete_twoDips :
    detect unfiltered twoDips 1000 50 = .ok [⟨1, 2, 3⟩] ∧
      Neighbouring (closureSet unfiltered twoDips 1000 50) 1 3 ∧
      IsLeast (openingSet unfiltered twoDips 1000 50 ∩ Set.Ioo 1 3) 2 :=
  ⟨detect_twoDips, ((detect_wellFormed_and_complete unfiltered twoDips 1000 50
    detect_twoDips).2.2 ⟨1, 2, 3⟩).mp List.mem_cons_self⟩

end Glottis.Sedreams
