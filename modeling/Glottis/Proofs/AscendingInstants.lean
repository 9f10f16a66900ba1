import Mathlib
import Glottis.Proofs.SedreamsCycles
import Glottis.Proofs.TrackedSearch

/-!
# Instants in ascending order

A search returns the first of the largest samples above the threshold in its window,
or the start of the window where there is none.  Because a later window of the same
span never leads to an earlier instant, ascending turning points lead to ascending
instants.  So the closures of a detection are in order before they are sorted, and
the openings, which nothing sorts, are in order as well.
-/

namespace Glottis.Sedreams

variable {α : Type} [Scalar α]

/-! ## What a search returns -/

/-- The indices from `start` to `start + span`, clipped to the signal. -/
def window (signal : Signal α) (start span : Nat) : Set Nat :=
  Set.Icc start (min (start + span) (signal.size - 1))

/-- The indices of a window whose samples exceed the threshold. -/
def exceeding (signal : Signal α) (start span : Nat) (threshold : α) : Set Nat :=
  {index ∈ window signal start span | threshold < signal.sample index}

/-- The indices of the largest of the samples of a window that exceed the threshold. -/
def largest (signal : Signal α) (start span : Nat) (threshold : α) : Set Nat :=
  {index ∈ exceeding signal start span threshold |
    ∀ other ∈ exceeding signal start span threshold,
      ¬ signal.sample index < signal.sample other}

theorem IsStrongest.isLeast_largest {signal : Signal α} {start span best : Nat} {threshold : α}
    (hbest : IsStrongest signal threshold start (windowEnd signal start span + 1) best) :
    IsLeast (largest signal start span threshold) best := by
  have hmem : best ∈ exceeding signal start span threshold :=
    ⟨⟨hbest.start_le, Nat.lt_succ_iff.mp hbest.lt_stop⟩, hbest.above⟩
  constructor
  · refine ⟨hmem, ?_⟩
    rintro other ⟨⟨hstart, hend⟩, habove⟩
    exact hbest.not_lt other hstart (Nat.lt_succ_iff.mpr hend) habove
  · rintro index ⟨⟨⟨hstart, _⟩, habove⟩, hlargest⟩
    by_contra hlt
    exact hlargest best hmem (hbest.earlier_lt index hstart (not_le.mp hlt) habove)

theorem NoneAbove.not_mem_exceeding {signal : Signal α} {start span : Nat} {threshold : α}
    (hnone : NoneAbove signal threshold start (windowEnd signal start span + 1)) (index : Nat) :
    index ∉ exceeding signal start span threshold := by
  rintro ⟨⟨hstart, hend⟩, habove⟩
  exact hnone index hstart (Nat.lt_succ_iff.mpr hend) habove

/-- A search whose window ends in the index range returns. -/
theorem instants_singleton (residual : Signal α) {start span : Nat} (threshold : α)
    (hspan : start + span ≤ maxIndex) :
    instants residual span threshold [start] =
      .ok [strongestAbove residual start span threshold] := by
  rw [instants, require_bind_eq_ok_iff, pure_eq_ok_iff]
  refine ⟨?_, rfl⟩
  rw [List.all_cons, List.all_nil, Bool.and_true]
  exact decide_eq_true hspan

section Search

variable [LawfulComparison α] (signal : Signal α) {start : Nat} (span : Nat) (threshold : α)

theorem isLeast_largest_strongestAbove (hstart : start < signal.size)
    (hexceeding : (exceeding signal start span threshold).Nonempty) :
    IsLeast (largest signal start span threshold)
      (strongestAbove signal start span threshold) := by
  cases strongestAbove_spec signal span threshold hstart with
  | inl hstrongest => exact hstrongest.isLeast_largest
  | inr hnone =>
      obtain ⟨index, hindex⟩ := hexceeding
      exact absurd hindex (hnone.1.not_mem_exceeding index)

theorem strongestAbove_eq_start (hstart : start < signal.size)
    (hempty : exceeding signal start span threshold = ∅) :
    strongestAbove signal start span threshold = start := by
  cases strongestAbove_spec signal span threshold hstart with
  | inl hstrongest =>
      have hmem := hstrongest.isLeast_largest.1.1
      rw [hempty] at hmem
      exact absurd hmem (Set.notMem_empty _)
  | inr hnone => exact hnone.2

end Search

/-! ## The lists of a detection -/

/-- The instants of a polarity as a detection finds them, in the order of the turning
points of the mean-based signal. -/
def FindsInstants (config : SedreamsConfig α) (signal : Signal α) (sampleRate meanF0 : α)
    (extremum : Extremum) (span threshold : α) (found : List Nat) : Prop :=
  ∃ residual meanBased, Traces config signal sampleRate meanF0 residual meanBased ∧
    instants residual (spanSamples span sampleRate (1 / meanF0)) threshold
      (Extremum.find meanBased extremum) = .ok found

def FindsClosures (config : SedreamsConfig α) (signal : Signal α) (sampleRate meanF0 : α)
    (closures : List Nat) : Prop :=
  FindsInstants config signal sampleRate meanF0 .minimum config.gciSearchSpan
    config.gciThreshold closures

def FindsOpenings (config : SedreamsConfig α) (signal : Signal α) (sampleRate meanF0 : α)
    (openings : List Nat) : Prop :=
  FindsInstants config signal sampleRate meanF0 .maximum config.goiSearchSpan
    config.goiThreshold openings

variable [LawfulComparison α]

theorem FindsInstants.pairwise {config : SedreamsConfig α} {signal : Signal α}
    {sampleRate meanF0 : α} {extremum : Extremum} {span threshold : α} {found : List Nat}
    (hfound : FindsInstants config signal sampleRate meanF0 extremum span threshold found) :
    found.Pairwise (· ≤ ·) := by
  obtain ⟨residual, meanBased, htraces, hinstants⟩ := hfound
  rw [instants_eq_ok hinstants]
  exact pairwise_instantList htraces extremum span threshold

theorem FindsInstants.mergeSort_eq_self {config : SedreamsConfig α} {signal : Signal α}
    {sampleRate meanF0 : α} {extremum : Extremum} {span threshold : α} {found : List Nat}
    (hfound : FindsInstants config signal sampleRate meanF0 extremum span threshold found) :
    found.mergeSort (· ≤ ·) = found :=
  List.mergeSort_of_pairwise (hfound.pairwise.imp fun hle => decide_eq_true hle)

/-- A successful detection pairs the openings with the closures as they were found,
without repetitions. -/
theorem exists_finds_of_detect_eq_ok {config : SedreamsConfig α} {signal : Signal α}
    {sampleRate meanF0 : α} {cycles : List GlottalCycle}
    (hcycles : detect config signal sampleRate meanF0 = .ok cycles) :
    (signal.size < 3 ∧ cycles = []) ∨
      ∃ closures openings, FindsClosures config signal sampleRate meanF0 closures ∧
        FindsOpenings config signal sampleRate meanF0 openings ∧
        cycles = pairInstants openings closures.eraseReps := by
  rcases exists_instants_of_detect_eq_ok hcycles with
    hshort | ⟨residual, meanBased, closures, openings, htraces, hclosures, hopenings, hpaired⟩
  · exact .inl hshort
  · have hfinds : FindsClosures config signal sampleRate meanF0 closures :=
      ⟨residual, meanBased, htraces, hclosures⟩
    refine .inr ⟨closures, openings, hfinds, ⟨residual, meanBased, htraces, hopenings⟩, ?_⟩
    rw [hpaired, sortedDistinct, hfinds.mergeSort_eq_self]

/-- A search whose window ends in the index range returns; the index lies in the window,
is the first of the largest samples above the threshold where there is one and the start
where there is none, and is the one that a search with the best value beside it returns.
A later start never leads to an earlier index.  So the closures of every detection are
ascending before they are sorted, sorting them changes nothing, the openings are
ascending, and the detection pairs both lists as they were found. -/
theorem strongestAbove_exact_and_ascending :
    (∀ (residual : Signal α) (span : Nat) (threshold : α),
      (∀ start < residual.size,
        (start + span ≤ maxIndex → instants residual span threshold [start] =
          .ok [strongestAbove residual start span threshold]) ∧
        strongestAbove residual start span threshold ∈ window residual start span ∧
        ((exceeding residual start span threshold).Nonempty →
          IsLeast (largest residual start span threshold)
            (strongestAbove residual start span threshold)) ∧
        (exceeding residual start span threshold = ∅ →
          strongestAbove residual start span threshold = start) ∧
        ∀ initial, (∀ value, threshold < value → initial < value) →
          trackedSearch initial residual start span threshold =
            strongestAbove residual start span threshold) ∧
      ∀ first second, first ≤ second → second < residual.size →
        strongestAbove residual first span threshold ≤
          strongestAbove residual second span threshold) ∧
    ∀ (config : SedreamsConfig α) (signal : Signal α) (sampleRate meanF0 : α),
      (∀ closures, FindsClosures config signal sampleRate meanF0 closures →
        closures.Pairwise (· ≤ ·) ∧ closures.mergeSort (· ≤ ·) = closures) ∧
      (∀ openings, FindsOpenings config signal sampleRate meanF0 openings →
        openings.Pairwise (· ≤ ·)) ∧
      ∀ cycles, detect config signal sampleRate meanF0 = .ok cycles →
        (signal.size < 3 ∧ cycles = []) ∨
          ∃ closures openings, FindsClosures config signal sampleRate meanF0 closures ∧
            FindsOpenings config signal sampleRate meanF0 openings ∧
            cycles = pairInstants openings closures.eraseReps := by
  constructor
  · intro residual span threshold
    constructor
    · intro start hstart
      exact ⟨instants_singleton residual threshold,
        strongestAbove_mem_window residual span threshold hstart,
        isLeast_largest_strongestAbove residual span threshold hstart,
        strongestAbove_eq_start residual span threshold hstart,
        fun initial hinitial => trackedSearch_eq hinitial residual start span⟩
    · intro first second hle hsecond
      exact strongestAbove_mono residual span threshold hle hsecond
  · intro config signal sampleRate meanF0
    refine ⟨fun closures hclosures => ?_, fun openings hopenings => ?_, fun cycles hcycles => ?_⟩
    · exact ⟨hclosures.pairwise, hclosures.mergeSort_eq_self⟩
    · exact hopenings.pairwise
    · exact exists_finds_of_detect_eq_ok hcycles

def plateau : Signal Float := #[0.0, 0.9, 0.9, 0.5]

/-- A clipped window with two largest samples, a window below the threshold, two
overlapping windows, and a detection of one cycle. -/
theorem strongestAbove_exact_and_ascending_of_plateau :
    IsLeast (largest plateau 1 100 0.4) 1 ∧ trackedSearch Binary64.lowest plateau 1 100 0.4 = 1 ∧
      strongestAbove plateau 3 10 0.95 = 3 ∧
      strongestAbove plateau 0 2 0.4 ≤ strongestAbove plateau 2 2 0.4 ∧
      ∃ closures openings, FindsClosures unfiltered twoDips 1000 50 closures ∧
        FindsOpenings unfiltered twoDips 1000 50 openings ∧
        closures.Pairwise (· ≤ ·) ∧ openings.Pairwise (· ≤ ·) ∧
        pairInstants openings closures.eraseReps = [⟨1, 2, 3⟩] := by
  obtain ⟨hclipped, _⟩ := strongestAbove_exact_and_ascending.1 plateau 100 0.4
  obtain ⟨_, _, hleast, _, htracked⟩ := hclipped 1 (by decide)
  have hfirst : strongestAbove plateau 1 100 0.4 = 1 := by decide +kernel
  rw [hfirst] at hleast htracked
  obtain ⟨hquiet, _⟩ := strongestAbove_exact_and_ascending.1 plateau 10 0.95
  obtain ⟨_, _, _, hstart, _⟩ := hquiet 3 (by decide)
  have hempty : exceeding plateau 3 10 0.95 = ∅ := by
    apply Set.eq_empty_of_forall_notMem
    rintro index ⟨⟨hlow, hhigh⟩, habove⟩
    obtain rfl : index = 3 := le_antisymm hhigh hlow
    exact absurd habove (by decide +kernel)
  obtain ⟨_, hascending⟩ := strongestAbove_exact_and_ascending.1 plateau 2 0.4
  obtain ⟨hclosures, hopenings, hdetect⟩ :=
    strongestAbove_exact_and_ascending.2 unfiltered twoDips 1000 50
  refine ⟨hleast ⟨1, ⟨by decide, by decide⟩, by decide +kernel⟩,
    htracked _ fun _ => Binary64.lowest_lt_of_lt (by decide +kernel),
    hstart hempty, hascending 0 2 (by decide) (by decide), ?_⟩
  rcases hdetect _ detect_twoDips with hshort | ⟨closures, openings, hfinds, hfinds', hpaired⟩
  · cases hshort.2
  · exact ⟨closures, openings, hfinds, hfinds', (hclosures _ hfinds).1, hopenings _ hfinds',
      hpaired.symm⟩

end Glottis.Sedreams
