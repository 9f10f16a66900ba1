import Mathlib
import Glottis.Proofs.InstantPairing
import Glottis.Proofs.TurningPoints

/-!
# Alternating extrema

In a signal without level steps the slope has a direction at every index, and the extrema are
the indices where the direction changes.  So the direction is the same from one extremum to the
next: the signal is strictly monotone there, and the next extremum is of the other polarity.
-/

namespace Glottis.Extremum

open Sedreams (Neighbouring)

/-! ## The direction of a signal -/

def HasNoLevelStep (signal : Signal ℝ) : Prop :=
  ∀ index, index + 1 < signal.size → signal.sample index ≠ signal.sample (index + 1)

/-- From an index to the next the signal goes towards an extremum of a polarity. -/
def Approaches (signal : Signal ℝ) (index : Nat) : Extremum → Prop
  | maximum => signal.sample index < signal.sample (index + 1)
  | minimum => signal.sample (index + 1) < signal.sample index

theorem opposite_opposite (extremum : Extremum) : extremum.opposite.opposite = extremum := by
  cases extremum <;> rfl

theorem eq_or_eq_opposite (left right : Extremum) : right = left ∨ right = left.opposite := by
  cases left <;> cases right <;> decide

variable {signal : Signal ℝ}

section Directions

variable (hlevel : HasNoLevelStep signal)

include hlevel

theorem approaches_opposite_iff {index : Nat} (hindex : index + 1 < signal.size)
    (extremum : Extremum) :
    Approaches signal index extremum.opposite ↔ ¬Approaches signal index extremum := by
  cases extremum with
  | maximum => exact (not_lt_iff_eq_or_lt.trans (or_iff_right (hlevel index hindex))).symm
  | minimum => exact (not_lt_iff_eq_or_lt.trans (or_iff_right (hlevel index hindex).symm)).symm

/-- Behind the first index an extremum is where the direction changes. -/
theorem succ_mem_find_iff (extremum : Extremum) (index : Nat) :
    index + 1 ∈ find signal extremum ↔ index + 2 < signal.size ∧
      Approaches signal index extremum ∧ Approaches signal (index + 1) extremum.opposite := by
  cases extremum with
  | maximum =>
      rw [succ_mem_find_maximum_iff]
      apply and_congr_right
      intro hsize
      constructor
      · rintro ⟨hrise, hfall, _⟩
        exact ⟨hrise.lt_of_ne (hlevel index (Nat.lt_of_succ_lt hsize)),
          hfall.lt_of_ne (hlevel (index + 1) hsize).symm⟩
      · rintro ⟨hrise, hfall⟩
        exact ⟨hrise.le, hfall.le, .inl hrise⟩
  | minimum =>
      rw [succ_mem_find_minimum_iff]
      apply and_congr_right
      intro hsize
      constructor
      · rintro ⟨hfall, hrise, _⟩
        exact ⟨hfall.lt_of_ne (hlevel index (Nat.lt_of_succ_lt hsize)).symm,
          hrise.lt_of_ne (hlevel (index + 1) hsize)⟩
      · rintro ⟨hfall, hrise⟩
        exact ⟨hfall.le, hrise.le, .inl hfall⟩

/-- The first index is an extremum only of a signal that starts level. -/
theorem zero_not_mem_find (extremum : Extremum) : 0 ∉ find signal extremum := by
  intro hzero
  have hstart : 3 ≤ signal.size ∧ signal.sample 1 = signal.sample 0 := by
    cases extremum with
    | maximum =>
        obtain ⟨hsize, hsame, _⟩ := (zero_mem_find_maximum_iff signal).mp hzero
        exact ⟨hsize, hsame⟩
    | minimum =>
        obtain ⟨hsize, hsame, _⟩ := (zero_mem_find_minimum_iff signal).mp hzero
        exact ⟨hsize, hsame⟩
  exact hlevel 0 (Nat.lt_of_succ_lt hstart.1) hstart.2.symm

/-- The signal goes towards an extremum before it, and away from it behind it. -/
theorem approaches_of_mem_find {extremum : Extremum} {index : Nat}
    (hindex : index ∈ find signal extremum) :
    ∃ before, index = before + 1 ∧ index + 1 < signal.size ∧
      Approaches signal before extremum ∧ Approaches signal index extremum.opposite := by
  cases index with
  | zero => exact absurd hindex (zero_not_mem_find hlevel extremum)
  | succ before => exact ⟨before, rfl, (succ_mem_find_iff hlevel extremum before).mp hindex⟩

/-! ## Between extrema -/

/-- Where the direction has changed, it has changed at an extremum. -/
theorem exists_mem_find_of_turned {extremum : Extremum} {first last : Nat} (hle : first ≤ last)
    (hlast : last + 1 < signal.size) (hbefore : Approaches signal first extremum)
    (hbehind : Approaches signal last extremum.opposite) :
    ∃ index ∈ find signal extremum, first < index ∧ index ≤ last := by
  -- The end moves back until the direction has not turned yet: it turns at the index behind.
  induction last, hle using Nat.le_induction with
  | base => exact absurd hbefore ((approaches_opposite_iff hlevel hlast extremum).mp hbehind)
  | succ last hle ih =>
      by_cases hturn : Approaches signal last extremum
      · exact ⟨last + 1, (succ_mem_find_iff hlevel extremum last).mpr ⟨hlast, hturn, hbehind⟩,
          Nat.lt_succ_of_le hle, le_rfl⟩
      · have hsize := Nat.lt_of_succ_lt hlast
        obtain ⟨index, hindex, hlower, hupper⟩ :=
          ih hsize ((approaches_opposite_iff hlevel hsize extremum).mpr hturn)
        exact ⟨index, hindex, hlower, Nat.le_succ_of_le hupper⟩

/-- Between two extrema of one polarity there is one of the other. -/
theorem exists_opposite_between {extremum : Extremum} {first second : Nat} (hlt : first < second)
    (hfirst : first ∈ find signal extremum) (hsecond : second ∈ find signal extremum) :
    ∃ index ∈ find signal extremum.opposite, first < index ∧ index < second := by
  obtain ⟨_, _, _, _, hbehind⟩ := approaches_of_mem_find hlevel hfirst
  obtain ⟨before, rfl, hsize, hbefore, _⟩ := approaches_of_mem_find hlevel hsecond
  rw [← opposite_opposite extremum] at hbefore
  obtain ⟨index, hindex, hlower, hupper⟩ := exists_mem_find_of_turned hlevel
    (Nat.le_of_lt_succ hlt) (Nat.lt_of_succ_lt hsize) hbehind hbefore
  exact ⟨index, hindex, hlower, Nat.lt_succ_of_le hupper⟩

/-- Between neighbouring extrema of one polarity there is exactly one of the other: two of them
would have one of the first polarity between them. -/
theorem existsUnique_opposite_between {extremum : Extremum} {first second : Nat}
    (hneighbours : Neighbouring {index | index ∈ find signal extremum} first second) :
    ∃! index, index ∈ find signal extremum.opposite ∧ first < index ∧ index < second := by
  have hnone : ∀ left ∈ find signal extremum.opposite, ∀ right ∈ find signal extremum.opposite,
      first < left → right < second → ¬left < right := by
    intro left hleft right hright hlower hupper hless
    obtain ⟨index, hindex, habove, hbelow⟩ := exists_opposite_between hlevel hless hleft hright
    rw [opposite_opposite] at hindex
    exact hneighbours.not_mem (hlower.trans habove) (hbelow.trans hupper) hindex
  obtain ⟨index, hindex, hlower, hupper⟩ := exists_opposite_between hlevel hneighbours.lt
    hneighbours.1 hneighbours.2.1
  refine ⟨index, ⟨hindex, hlower, hupper⟩, ?_⟩
  rintro other ⟨hother, hotherLower, hotherUpper⟩
  exact le_antisymm (not_lt.mp (hnone index hindex other hother hlower hotherUpper))
    (not_lt.mp (hnone other hother index hindex hotherLower hupper))

/-- A step behind an index that is no extremum goes on in the same direction. -/
theorem approaches_succ {extremum : Extremum} {index : Nat} (hindex : index + 2 < signal.size)
    (hnone : index + 1 ∉ find signal extremum) (happroaches : Approaches signal index extremum) :
    Approaches signal (index + 1) extremum := by
  by_contra hturned
  exact hnone ((succ_mem_find_iff hlevel extremum index).mpr
    ⟨hindex, happroaches, (approaches_opposite_iff hlevel hindex extremum).mpr hturned⟩)

/-- The direction stays the same up to the next extremum. -/
theorem approaches_of_no_extremum {extremum : Extremum} {first last : Nat}
    (hlast : last < signal.size)
    (hnone : ∀ index, first < index → index < last → index ∉ find signal extremum)
    (hfirst : Approaches signal first extremum) {index : Nat} (hlower : first ≤ index)
    (hupper : index < last) : Approaches signal index extremum := by
  induction index, hlower using Nat.le_induction with
  | base => exact hfirst
  | succ index hlower ih =>
      exact approaches_succ hlevel (Nat.lt_of_le_of_lt hupper hlast)
        (hnone _ (Nat.lt_succ_of_le hlower) hupper) (ih (Nat.lt_of_succ_lt hupper))

/-- The signal is strictly monotone where it has no extremum. -/
theorem strictly_monotone_of_no_extremum {first last : Nat} (hlt : first < last)
    (hlast : last < signal.size)
    (hnone : ∀ index, first < index → index < last → ∀ extremum, index ∉ find signal extremum) :
    StrictMonoOn signal.sample (Set.Icc first last) ∨
      StrictAntiOn signal.sample (Set.Icc first last) := by
  have hdirection : ∀ extremum, Approaches signal first extremum →
      ∀ index ∈ Set.Icc first last, index + 1 ∈ Set.Icc first last →
        Approaches signal index extremum := by
    intro extremum hfirst index hindex hnext
    exact approaches_of_no_extremum hlevel hlast
      (fun place hlower hupper => hnone place hlower hupper extremum) hfirst hindex.1 hnext.2
  cases (hlevel first (Nat.lt_of_le_of_lt hlt hlast)).lt_or_gt with
  | inl hrise =>
      left
      apply strictMonoOn_of_lt_add_one Set.ordConnected_Icc
      intro index _ hindex hnext
      exact hdirection .maximum hrise index hindex hnext
  | inr hfall =>
      right
      apply strictAntiOn_of_add_one_lt Set.ordConnected_Icc
      intro index _ hindex hnext
      exact hdirection .minimum hfall index hindex hnext

end Directions

/-! ## The merged list -/

noncomputable def merged (signal : Signal ℝ) : List Nat :=
  (find signal .maximum).merge (find signal .minimum)

theorem mem_merged_iff {index : Nat} :
    index ∈ merged signal ↔ ∃ extremum, index ∈ find signal extremum := by
  rw [merged, List.mem_merge]
  constructor
  · intro hindex
    cases hindex with
    | inl hmaximum => exact ⟨.maximum, hmaximum⟩
    | inr hminimum => exact ⟨.minimum, hminimum⟩
  · rintro ⟨extremum, hindex⟩
    cases extremum with
    | maximum => exact .inl hindex
    | minimum => exact .inr hindex

theorem merged_perm (signal : Signal ℝ) :
    (merged signal).Perm (find signal .maximum ++ find signal .minimum) :=
  List.merge_perm_append _

theorem pairwise_merged (signal : Signal ℝ) : (merged signal).Pairwise (· < ·) :=
  Sedreams.pairwise_merge (pairwise_find signal .maximum) (pairwise_find signal .minimum)
    fun _ hmaximum => not_mem_find_opposite hmaximum

noncomputable def isMaximum (signal : Signal ℝ) (index : Nat) : Bool :=
  decide (index ∈ find signal .maximum)

theorem isMaximum_of_mem_maximum {index : Nat} (hindex : index ∈ find signal .maximum) :
    isMaximum signal index = true :=
  decide_eq_true hindex

theorem isMaximum_of_mem_minimum {index : Nat} (hindex : index ∈ find signal .minimum) :
    isMaximum signal index = false :=
  decide_eq_false (not_mem_find_opposite hindex)

/-- The merged list has a mark for each maximum and one for each minimum. -/
theorem count_isMaximum (signal : Signal ℝ) :
    ((merged signal).map (isMaximum signal)).count true = (find signal .maximum).length ∧
      ((merged signal).map (isMaximum signal)).count false = (find signal .minimum).length := by
  have hmaxima : (find signal .maximum).map (isMaximum signal) =
      List.replicate (find signal .maximum).length true :=
    List.map_eq_replicate_iff.mpr fun _ => isMaximum_of_mem_maximum
  have hminima : (find signal .minimum).map (isMaximum signal) =
      List.replicate (find signal .minimum).length false :=
    List.map_eq_replicate_iff.mpr fun _ => isMaximum_of_mem_minimum
  have hmarks := (merged_perm signal).map (isMaximum signal)
  rw [List.map_append, hmaxima, hminima] at hmarks
  rw [hmarks.count_eq, hmarks.count_eq]
  simp [List.count_replicate]

section Merged

variable (hlevel : HasNoLevelStep signal)

include hlevel

/-- The polarity changes from each extremum to the next. -/
theorem isChain_merged :
    (merged signal).IsChain fun first second =>
      ∃ extremum, first ∈ find signal extremum ∧ second ∈ find signal extremum.opposite := by
  apply (Sedreams.isChain_neighbouring (pairwise_merged signal)).imp
  intro first second hneighbours
  obtain ⟨extremum, hfirst⟩ := mem_merged_iff.mp hneighbours.1
  obtain ⟨other, hsecond⟩ := mem_merged_iff.mp hneighbours.2.1
  cases eq_or_eq_opposite extremum other with
  | inl hsame =>
      rw [hsame] at hsecond
      obtain ⟨index, hindex, hlower, hupper⟩ := exists_opposite_between hlevel
        hneighbours.lt hfirst hsecond
      exact absurd (mem_merged_iff.mpr ⟨_, hindex⟩) (hneighbours.not_mem hlower hupper)
  | inr hopposite =>
      rw [hopposite] at hsecond
      exact ⟨extremum, hfirst, hsecond⟩

theorem isChain_isMaximum : ((merged signal).map (isMaximum signal)).IsChain (· ≠ ·) := by
  rw [List.isChain_map]
  apply (isChain_merged hlevel).imp
  rintro first second ⟨extremum, hfirst, hsecond⟩
  cases extremum with
  | maximum =>
      rw [isMaximum_of_mem_maximum hfirst, isMaximum_of_mem_minimum hsecond]
      exact Bool.false_ne_true.symm
  | minimum =>
      rw [isMaximum_of_mem_minimum hfirst, isMaximum_of_mem_maximum hsecond]
      exact Bool.false_ne_true

/-- The marks alternate, so their numbers differ by at most one. -/
theorem length_find_le :
    (find signal .maximum).length ≤ (find signal .minimum).length + 1 ∧
      (find signal .minimum).length ≤ (find signal .maximum).length + 1 := by
  obtain ⟨hmaxima, hminima⟩ := count_isMaximum signal
  rw [← hmaxima, ← hminima]
  exact ⟨(isChain_isMaximum hlevel).count_true_le_count_false_add_one,
    (isChain_isMaximum hlevel).count_false_le_count_true_add_one⟩

/-- The signal is strictly monotone from its start to the first extremum, from each extremum to
the next and from the last one to its end. -/
theorem isChain_strictly_monotone (hsize : 2 ≤ signal.size) :
    (0 :: (merged signal ++ [signal.size - 1])).IsChain fun first second =>
      StrictMonoOn signal.sample (Set.Icc first second) ∨
        StrictAntiOn signal.sample (Set.Icc first second) := by
  have hinside : ∀ index ∈ merged signal, 0 < index ∧ index < signal.size - 1 := by
    intro index hindex
    obtain ⟨extremum, hindex⟩ := mem_merged_iff.mp hindex
    obtain ⟨before, rfl, hnext, _⟩ := approaches_of_mem_find hlevel hindex
    exact ⟨Nat.succ_pos before, Nat.lt_sub_of_add_lt hnext⟩
  have hlast : 0 < signal.size - 1 := Nat.sub_pos_of_lt hsize
  have hsorted : (0 :: (merged signal ++ [signal.size - 1])).Pairwise (· < ·) := by
    rw [List.pairwise_cons, List.pairwise_append]
    refine ⟨?_, pairwise_merged signal, List.pairwise_singleton _ _, ?_⟩
    · rw [List.forall_mem_append, List.forall_mem_singleton]
      exact ⟨fun index hindex => (hinside index hindex).1, hlast⟩
    · intro index hindex
      rw [List.forall_mem_singleton]
      exact (hinside index hindex).2
  apply (Sedreams.isChain_neighbouring hsorted).imp
  intro first second hneighbours
  have hbounded : ∀ index ∈ 0 :: (merged signal ++ [signal.size - 1]), index ≤ signal.size - 1 := by
    rw [List.forall_mem_cons, List.forall_mem_append, List.forall_mem_singleton]
    exact ⟨Nat.zero_le _, fun index hindex => (hinside index hindex).2.le, le_rfl⟩
  have hsecond : second < signal.size :=
    Nat.lt_of_le_sub_one (Nat.zero_lt_of_lt hsize) (hbounded second hneighbours.2.1)
  apply strictly_monotone_of_no_extremum hlevel hneighbours.lt hsecond
  intro index hlower hupper extremum hindex
  apply hneighbours.not_mem hlower hupper
  exact List.mem_cons_of_mem _ (List.mem_append_left _ (mem_merged_iff.mpr ⟨extremum, hindex⟩))

end Merged

/-- In a signal of at least three samples without level steps, exactly one minimum lies between
two neighbouring maxima, and exactly one maximum between two neighbouring minima.  In the merged
list each extremum is followed by one of the other polarity, the numbers of the maxima and the
minima differ by at most one, and the signal is strictly monotone between one extremum and the
next, before the first one and behind the last one. -/
theorem maxima_and_minima_alternate (signal : Signal ℝ) (hsize : 3 ≤ signal.size)
    (hlevel : ∀ index, index + 1 < signal.size →
      signal.sample index ≠ signal.sample (index + 1)) :
    let maxima := find signal .maximum
    let minima := find signal .minimum
    let merged := maxima.merge minima
    (∀ first second, Neighbouring {index | index ∈ maxima} first second →
      ∃! index, index ∈ minima ∧ first < index ∧ index < second) ∧
      (∀ first second, Neighbouring {index | index ∈ minima} first second →
        ∃! index, index ∈ maxima ∧ first < index ∧ index < second) ∧
      merged.Pairwise (· < ·) ∧
      (merged.IsChain fun first second =>
        (first ∈ maxima ∧ second ∈ minima) ∨ (first ∈ minima ∧ second ∈ maxima)) ∧
      (maxima.length ≤ minima.length + 1 ∧ minima.length ≤ maxima.length + 1) ∧
      (0 :: (merged ++ [signal.size - 1])).IsChain fun first second =>
        StrictMonoOn signal.sample (Set.Icc first second) ∨
          StrictAntiOn signal.sample (Set.Icc first second) := by
  intro maxima minima merged
  refine ⟨fun first second => existsUnique_opposite_between hlevel,
    fun first second => existsUnique_opposite_between hlevel, pairwise_merged signal, ?_,
    length_find_le hlevel, isChain_strictly_monotone hlevel (Nat.le_of_succ_le hsize)⟩
  apply (isChain_merged hlevel).imp
  rintro first second ⟨extremum, hfirst, hsecond⟩
  cases extremum with
  | maximum => exact .inl ⟨hfirst, hsecond⟩
  | minimum => exact .inr ⟨hfirst, hsecond⟩

theorem maxima_and_minima_alternate_of_zigzag :
    Neighbouring {index | index ∈ find (#[0, 2, 1, 3, 0] : Signal ℝ) .maximum} 1 3 ∧
      (∃! index, index ∈ find (#[0, 2, 1, 3, 0] : Signal ℝ) .minimum ∧ 1 < index ∧ index < 3) ∧
      (find (#[0, 2, 1, 3, 0] : Signal ℝ) .maximum).length ≤
        (find (#[0, 2, 1, 3, 0] : Signal ℝ) .minimum).length + 1 := by
  have hlevel : ∀ index, index + 1 < (#[0, 2, 1, 3, 0] : Signal ℝ).size →
      Signal.sample (#[0, 2, 1, 3, 0] : Signal ℝ) index ≠
        Signal.sample (#[0, 2, 1, 3, 0] : Signal ℝ) (index + 1) := by
    intro index hindex
    have hinside : index < 4 := Nat.lt_of_succ_lt_succ hindex
    interval_cases index <;> norm_num [Signal.sample]
  have hmaximum : ∀ index, index ∈ find (#[0, 2, 1, 3, 0] : Signal ℝ) .maximum ↔
      index = 1 ∨ index = 3 := by
    intro index
    constructor
    · intro hindex
      obtain ⟨before, rfl, hinside, hrise, hfall⟩ := approaches_of_mem_find hlevel hindex
      have hbefore : before < 3 := Nat.lt_of_succ_lt_succ (Nat.lt_of_succ_lt_succ hinside)
      interval_cases before
      · exact .inl rfl
      · norm_num [Approaches, Signal.sample] at hrise
      · exact .inr rfl
    · rintro (rfl | rfl)
      · rw [succ_mem_find_maximum_iff]
        norm_num [Signal.sample]
      · rw [succ_mem_find_maximum_iff]
        norm_num [Signal.sample]
  have hneighbours : Neighbouring {index | index ∈ find (#[0, 2, 1, 3, 0] : Signal ℝ) .maximum}
      1 3 := by
    refine ⟨(hmaximum 1).mpr (.inl rfl), (hmaximum 3).mpr (.inr rfl), by decide, ?_⟩
    intro index hindex
    exact ((hmaximum index).mp hindex).imp Eq.le Eq.ge
  obtain ⟨hbetween, _, _, _, hlengths, _⟩ :=
    maxima_and_minima_alternate (#[0, 2, 1, 3, 0] : Signal ℝ) (by decide) hlevel
  exact ⟨hneighbours, hbetween 1 3 hneighbours, hlengths.1⟩

end Glottis.Extremum
