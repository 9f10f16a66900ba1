import Mathlib
import Glottis.Proofs.AppendedSamples
import Glottis.Proofs.BinChanges
import Glottis.Proofs.MultiProductCycles

/-!
# The place of an opening

The search for an opening starts a fifth of the cycle behind the closure, but the offset of
the maximum is added to the closure itself.  The product is level within a cycle, so the
maximum is reached at the first sample behind a closure from which the product rises.  A
cycle of fewer than five samples is searched from the closure on, and the opening is that
sample.  A longer one is searched from the level stretch on, where the offset is zero: the
opening falls on the closure, and the product is below the stretch there.
-/

namespace Glottis.MultiProduct

/-- The first largest sample of a window is at one offset only. -/
theorem IsFirstMaximum.unique {signal : Signal ℝ} {first count left right : Nat}
    (hleft : IsFirstMaximum signal first count left)
    (hright : IsFirstMaximum signal first count right) : left = right := by
  rcases Nat.lt_trichotomy left right with hlt | hequal | hlt
  · exact absurd (hright.earlier_lt left hlt) (not_lt.mpr (hleft.le_best right hright.lt_count))
  · exact hequal
  · exact absurd (hleft.earlier_lt right hlt) (not_lt.mpr (hright.le_best left hleft.lt_count))

/-! ## The product within a cycle -/

/-- No closure lies between the two closures of a cycle. -/
theorem not_mem_of_mem_cycles {α : Type} [Scalar α] {product : Signal α} {closures : List Nat}
    (hsorted : closures.Pairwise (· < ·)) {found : GlottalCycle}
    (hfound : found ∈ cycles product closures) {index : Nat} (hlower : found.closure < index)
    (hupper : index < found.nextClosure) : index ∉ closures := by
  induction closures with
  | nil => exact List.not_mem_nil
  | cons closure closures ih =>
      cases closures with
      | nil => exact absurd hfound List.not_mem_nil
      | cons nextClosure closures =>
          have hrest : ∀ later ∈ nextClosure :: closures, nextClosure ≤ later := by
            intro later hlater
            cases List.mem_cons.mp hlater with
            | inl hequal => exact hequal.ge
            | inr hlater => exact (List.rel_of_pairwise_cons hsorted.of_cons hlater).le
          rw [List.mem_cons, not_or]
          rw [cycles, List.mem_cons] at hfound
          cases hfound with
          | inl hfound =>
              rw [hfound] at hlower hupper
              exact ⟨hlower.ne', fun hmem => absurd hupper (not_lt.mpr (hrest index hmem))⟩
          | inr hfound =>
              obtain ⟨first, hfirst, _, _, _, hpair⟩ := exists_of_mem_cycles hsorted.of_cons hfound
              have hbefore : closure < found.closure := by
                rw [hpair]
                exact List.rel_of_pairwise_cons hsorted hfirst
              exact ⟨(hbefore.trans hlower).ne', ih hsorted.of_cons hfound⟩

/-- A closure is no larger than the sample behind it. -/
theorem sample_le_succ_of_mem_closures {product : Signal ℝ} {index : Nat}
    (hclosure : index ∈ closures product) :
    product.sample index ≤ product.sample (index + 1) := by
  cases index with
  | zero => exact ((zero_mem_closures_iff product).mp hclosure).2.1.ge
  | succ index => exact ((succ_mem_closures_iff product index).mp hclosure).2.2.1

/-- A paired product changes at closures only. -/
theorem IsPaired.sample_succ_eq {product : Signal ℝ} (hpaired : IsPaired product) {index : Nat}
    (hsize : index + 1 < product.size) (hhere : index ∉ closures product)
    (hnext : index + 1 ∉ closures product) :
    product.sample (index + 1) = product.sample index := by
  have heven := hpaired.even
  obtain ⟨place, rfl | rfl⟩ := index.even_or_odd'
  · exact hpaired.sample_eq place (by omega)
  · -- The next sample opens a bin: a rise to it is a closure here, a fall to it one there.
    have hlevel := hpaired.sample_eq place (by omega)
    rw [hpaired.odd_mem_closures_iff, not_and, not_lt] at hhere
    rw [show 2 * place + 1 + 1 = 2 * (place + 1) by omega, hpaired.even_mem_closures_iff,
      not_and, not_lt] at hnext
    rw [hlevel]
    exact le_antisymm (hhere (by omega)) (hnext (by omega))

/-- Between two indices a product keeps the level that it has behind the first one, and it
is not above that level at either of them. -/
structure IsLevelBetween (product : Signal ℝ) (closure nextClosure : Nat) : Prop where
  lt : closure < nextClosure
  eq_level : ∀ index, closure < index → index < nextClosure →
    product.sample index = product.sample (closure + 1)
  le_level : ∀ index, closure ≤ index → index ≤ nextClosure →
    product.sample index ≤ product.sample (closure + 1)

/-- A paired product is level between closures that follow one another. -/
theorem IsPaired.isLevelBetween {product : Signal ℝ} (hpaired : IsPaired product)
    {closure nextClosure : Nat} (hlt : closure < nextClosure)
    (hclosure : closure ∈ closures product) (hnext : nextClosure ∈ closures product)
    (hnone : ∀ index, closure < index → index < nextClosure → index ∉ closures product) :
    IsLevelBetween product closure nextClosure := by
  have hsize : nextClosure + 1 < product.size := by
    have hlast := Extremum.succ_lt_size_of_mem_find hnext
    rwa [Array.size_map] at hlast
  have hlevel : ∀ index, closure < index → index < nextClosure →
      product.sample index = product.sample (closure + 1) := by
    intro index hlower hupper
    induction index, hlower using Nat.le_induction with
    | base => rfl
    | succ index hlower ih =>
        have hhere := hnone index hlower (by omega)
        rw [hpaired.sample_succ_eq (by omega) hhere (hnone (index + 1) (by omega) hupper)]
        exact ih (by omega)
  refine ⟨hlt, hlevel, fun index hlower hupper => ?_⟩
  rcases hlower.eq_or_lt with rfl | hlower
  · exact sample_le_succ_of_mem_closures hclosure
  rcases hupper.eq_or_lt with rfl | hupper
  · obtain ⟨previous, rfl⟩ : ∃ previous, index = previous + 1 := ⟨index - 1, by omega⟩
    rcases (Nat.le_of_lt_succ hlower).eq_or_lt with rfl | hbefore
    · exact le_rfl
    · exact (sample_closure_le hnext).trans (hlevel previous hbefore (Nat.lt_succ_self _)).le
  · exact (hlevel index hlower hupper).le

/-! ## The search in a cycle -/

namespace IsLevelBetween

variable {product : Signal ℝ} {closure nextClosure : Nat}

/-- The search finds its maximum at once, except in a short cycle in which the product rises
behind the closure. -/
theorem isFirstMaximum (hlevel : IsLevelBetween product closure nextClosure) {start : Nat}
    (hstart : start = closure + (nextClosure - closure) / 5) :
    IsFirstMaximum product start (nextClosure + 1 - start)
      (if product.sample closure < product.sample (closure + 1) ∧ nextClosure - closure < 5
        then 1 else 0) := by
  have hlt := hlevel.lt
  split
  case isTrue hshort =>
    -- A fifth of the cycle is less than one sample, so the search starts at the closure.
    obtain rfl : start = closure := by omega
    refine ⟨by omega, fun offset hoffset => ?_, fun offset hoffset => ?_⟩
    · rw [Nat.lt_one_iff.mp hoffset]
      exact hshort.1
    · exact hlevel.le_level _ (by omega) (by omega)
  case isFalse hlong =>
    have hreached : product.sample start = product.sample (closure + 1) := by
      by_cases hinside : closure < start
      · exact hlevel.eq_level start hinside (by omega)
      · obtain rfl : start = closure := by omega
        refine le_antisymm (hlevel.le_level _ le_rfl hlt.le) (not_lt.mp fun hrise => ?_)
        exact hlong ⟨hrise, by omega⟩
    refine ⟨by omega, fun offset hoffset => absurd hoffset (Nat.not_lt_zero _), ?_⟩
    intro offset hoffset
    rw [Nat.add_zero, hreached]
    exact hlevel.le_level _ (by omega) (by omega)

/-- The opening is the closure, or the sample behind it in a short cycle in which the product
rises there. -/
theorem opening_eq (hlevel : IsLevelBetween product closure nextClosure)
    (hindex : nextClosure ≤ maxIndex) :
    (cycle product closure nextClosure).opening =
      if product.sample closure < product.sample (closure + 1) ∧ nextClosure - closure < 5
        then closure + 1 else closure := by
  have hstart := searchStart_eq hlevel.lt.le hindex
  have hfirst := isFirstMaximum_offsetOfMaximum product
    (searchStart_mem_cycle hlevel.lt hindex).2.le
  rw [cycle, hfirst.unique (hlevel.isFirstMaximum hstart)]
  split
  · rfl
  · rfl

/-- The opening is as high as every searched sample unless the product rises behind the
closure of a cycle of five samples or more. -/
theorem forall_searched_le_opening_iff (hlevel : IsLevelBetween product closure nextClosure)
    (hindex : nextClosure ≤ maxIndex) :
    (∀ index, searchStart ℝ closure nextClosure ≤ index → index ≤ nextClosure →
        product.sample index ≤
          product.sample (cycle product closure nextClosure).opening) ↔
      ¬(product.sample closure < product.sample (closure + 1) ∧ 5 ≤ nextClosure - closure) := by
  have hlt := hlevel.lt
  rw [hlevel.opening_eq hindex, searchStart_eq hlt.le hindex]
  constructor
  · rintro hmaximum ⟨hrise, hlong⟩
    have hsearched := hmaximum _ le_rfl (by omega)
    rw [if_neg (by omega), hlevel.eq_level _ (by omega) (by omega)] at hsearched
    exact absurd hrise (not_lt.mpr hsearched)
  · intro hnot index hlower hupper
    have hbelow := hlevel.le_level index (by omega) hupper
    split
    case isTrue => exact hbelow
    case isFalse hlong =>
      refine hbelow.trans (not_lt.mp fun hrise => ?_)
      by_cases hshort : nextClosure - closure < 5
      · exact hlong ⟨hrise, hshort⟩
      · exact hnot ⟨hrise, by omega⟩

end IsLevelBetween

/-! ## The openings of a detector -/

/-- A cycle of neighbouring closures ends at a closure and is level within. -/
theorem isLevelBetween_of_mem_cycles {product : Signal ℝ} (hpaired : IsPaired product)
    {found : GlottalCycle} (hfound : found ∈ cycles product (closures product)) :
    IsLevelBetween product found.closure found.nextClosure ∧
      found.nextClosure ∈ closures product ∧
      found = cycle product found.closure found.nextClosure := by
  have hsorted : (closures product).Pairwise (· < ·) := Extremum.pairwise_find _ _
  have hnone := fun index => @not_mem_of_mem_cycles ℝ _ product _ hsorted found hfound index
  obtain ⟨closure, hclosure, nextClosure, hnext, hlt, rfl⟩ := exists_of_mem_cycles hsorted hfound
  exact ⟨hpaired.isLevelBetween hlt hclosure hnext hnone, hnext, rfl⟩

theorem le_maxIndex_of_mem_closures {signal : Signal ℝ} {levels index : Nat}
    (hsize : signal.size ≤ maxIndex)
    (hclosure : index ∈ closures (multiScaleProduct signal levels)) :
    index ≤ maxIndex := by
  have hlast := Extremum.succ_lt_size_of_mem_find hclosure
  rw [Array.size_map, size_multiScaleProduct] at hlast
  have hused := usedLength_le levels signal.size
  omega

/-- An opening is as far behind its closure as the first maximum of the searched part is
behind the start of that part.  This is the closure itself, or the sample behind it in a
cycle of fewer than five samples with a rise there.  The product is largest at the opening
unless it rises behind the closure of a cycle of five samples or more. -/
theorem detected_opening_isMaximum_iff {detector : Detector} {signal : Signal ℝ}
    {sampleRate : ℝ} {found : List GlottalCycle} (hsize : signal.size ≤ maxIndex)
    (hfound : detector.detect signal sampleRate = .ok found) :
    ∀ cycle ∈ found,
      IsFirstMaximum (multiScaleProduct signal detector.levels)
        (searchStart ℝ cycle.closure cycle.nextClosure)
        (cycle.nextClosure + 1 - searchStart ℝ cycle.closure cycle.nextClosure)
        (cycle.opening - cycle.closure) ∧
      cycle.opening =
        (if (multiScaleProduct signal detector.levels).sample cycle.closure <
              (multiScaleProduct signal detector.levels).sample (cycle.closure + 1) ∧
            cycle.nextClosure - cycle.closure < 5
          then cycle.closure + 1 else cycle.closure) ∧
      ((∀ index, searchStart ℝ cycle.closure cycle.nextClosure ≤ index →
          index ≤ cycle.nextClosure →
            (multiScaleProduct signal detector.levels).sample index ≤
              (multiScaleProduct signal detector.levels).sample cycle.opening) ↔
        ¬((multiScaleProduct signal detector.levels).sample cycle.closure <
              (multiScaleProduct signal detector.levels).sample (cycle.closure + 1) ∧
            5 ≤ cycle.nextClosure - cycle.closure)) := by
  rw [Detector.detect, require_bind_eq_ok_iff, require_bind_eq_ok_iff, pure_eq_ok_iff] at hfound
  obtain ⟨-, -, rfl⟩ := hfound
  intro found hfound
  obtain ⟨hlevel, hnext, hequal⟩ :=
    isLevelBetween_of_mem_cycles (isPaired_multiScaleProduct signal detector.levels) hfound
  have hindex := le_maxIndex_of_mem_closures hsize hnext
  have hopening := congrArg GlottalCycle.opening hequal
  have hoffset : found.opening - found.closure =
      offsetOfMaximum (multiScaleProduct signal detector.levels)
        (searchStart ℝ found.closure found.nextClosure) found.nextClosure := by
    rw [hopening]
    exact Nat.add_sub_cancel_left found.closure _
  refine ⟨?_, hopening.trans (hlevel.opening_eq hindex), ?_⟩
  · rw [hoffset]
    exact isFirstMaximum_offsetOfMaximum _ (searchStart_mem_cycle hlevel.lt hindex).2.le
  · rw [hopening]
    exact hlevel.forall_searched_le_opening_iff hindex

/-! ### The opening of a level stretch -/

theorem closures_plateau : closures (multiScaleProduct plateau 2) = [3, 10] := by
  have hsize : 4 ≤ (multiScaleProduct plateau 2).size := by
    rw [size_multiScaleProduct_plateau]
    decide
  rw [(isPaired_multiScaleProduct plateau 2).closures_eq_sort hsize, sort_changeInstants_plateau]

/-- The opening of the stretch is put on the sample before it. -/
theorem detect_plateau :
    (⟨2, by decide⟩ : Detector).detect plateau 16000 = .ok [⟨3, 3, 10⟩] := by
  have hcycle : cycle (multiScaleProduct plateau 2) 3 10 ∈
      cycles (multiScaleProduct plateau 2) (closures (multiScaleProduct plateau 2)) := by
    rw [closures_plateau]
    exact List.mem_cons_self
  have hlevel : IsLevelBetween (multiScaleProduct plateau 2) 3 10 :=
    (isLevelBetween_of_mem_cycles (isPaired_multiScaleProduct plateau 2) hcycle).1
  have hopening : (cycle (multiScaleProduct plateau 2) 3 10).opening = 3 := by
    rw [hlevel.opening_eq (by decide), if_neg]
    exact fun hshort => absurd hshort.2 (by decide)
  rw [Detector.detect_eq _ ((Scalar.isPositive_real_iff 16000).mpr (by norm_num))
    plateau.allFinite_real, closures_plateau]
  change Except.ok [GlottalCycle.mk 3 (cycle (multiScaleProduct plateau 2) 3 10).opening 10] = _
  rw [hopening]

theorem size_plateau_le_maxIndex : plateau.size ≤ maxIndex := by
  rw [plateau, Signal.size_tabulate]
  decide

theorem sample_lt_in_plateau :
    (multiScaleProduct plateau 2).sample 3 < (multiScaleProduct plateau 2).sample 4 := by
  rw [sample_multiScaleProduct_plateau (by decide), sample_multiScaleProduct_plateau (by decide),
    if_neg (by decide), if_pos (by decide)]
  exact one_pos

/-- The stretch is higher than the opening found for it. -/
theorem detected_opening_isMaximum_iff_of_plateau :
    plateau.size ≤ maxIndex ∧
      (⟨2, by decide⟩ : Detector).detect plateau 16000 = .ok [⟨3, 3, 10⟩] ∧
      IsFirstMaximum (multiScaleProduct plateau 2) 4 7 0 ∧
      ¬∀ index, 4 ≤ index → index ≤ 10 →
        (multiScaleProduct plateau 2).sample index ≤ (multiScaleProduct plateau 2).sample 3 := by
  obtain ⟨hfirst, -, hmaximum⟩ := detected_opening_isMaximum_iff size_plateau_le_maxIndex
    detect_plateau ⟨3, 3, 10⟩ List.mem_cons_self
  have hstart : searchStart ℝ 3 10 = 4 := searchStart_eq (by decide) (by decide)
  rw [hstart] at hfirst hmaximum
  exact ⟨size_plateau_le_maxIndex, detect_plateau, hfirst,
    fun hlargest => hmaximum.mp hlargest ⟨sample_lt_in_plateau, by decide⟩⟩

theorem not_forall_opening_isMaximum :
    ¬∀ (detector : Detector) (signal : Signal ℝ) (sampleRate : ℝ) (found : List GlottalCycle),
      signal.size ≤ maxIndex → detector.detect signal sampleRate = .ok found →
        ∀ cycle ∈ found, ∀ index, searchStart ℝ cycle.closure cycle.nextClosure ≤ index →
          index ≤ cycle.nextClosure →
            (multiScaleProduct signal detector.levels).sample index ≤
              (multiScaleProduct signal detector.levels).sample cycle.opening := by
  intro hmaximum
  have hstart : searchStart ℝ 3 10 = 4 := searchStart_eq (by decide) (by decide)
  have hle := hmaximum ⟨2, by decide⟩ plateau 16000 _ size_plateau_le_maxIndex detect_plateau
    ⟨3, 3, 10⟩ List.mem_cons_self 4 hstart.le (by decide)
  exact absurd sample_lt_in_plateau (not_lt.mpr hle)

end Glottis.MultiProduct
