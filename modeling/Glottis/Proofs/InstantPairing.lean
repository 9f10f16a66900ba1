import Mathlib
import Glottis.Sedreams

/-!
# Pairing of closures and openings

Closures are sorted and freed of repetitions before they are paired; neighbouring
ones make a cycle where an opening lies strictly between them.  In an ascending
list of openings the first one found is the earliest.
-/

namespace Glottis.Sedreams

/-- An ascending list starts with its least element. -/
private theorem head_le_of_mem {head : Nat} {rest : List Nat}
    (hsorted : (head :: rest).Pairwise (· ≤ ·)) {index : Nat} (hindex : index ∈ head :: rest) :
    head ≤ index := by
  cases List.mem_cons.mp hindex with
  | inl heq => rw [heq]
  | inr hrest => exact List.rel_of_pairwise_cons hsorted hrest

private theorem eraseReps_loop (value : Nat) (values kept : List Nat) :
    List.eraseRepsBy.loop (· == ·) value values kept =
      kept.reverse ++ (value :: values).eraseReps := by
  induction values generalizing value kept with
  | nil => simp [List.eraseReps, List.eraseRepsBy, List.eraseRepsBy.loop]
  | cons next values ih =>
      simp only [List.eraseReps, List.eraseRepsBy, List.eraseRepsBy.loop]
      cases value == next with
      | true =>
          rw [ih value kept, ih value [], List.reverse_nil, List.nil_append]
      | false =>
          rw [ih next (value :: kept), ih next [value], List.reverse_cons,
            List.append_assoc, List.reverse_singleton]

private theorem eraseReps_cons_cons (value next : Nat) (values : List Nat) :
    (value :: next :: values).eraseReps =
      if value = next then (next :: values).eraseReps
      else value :: (next :: values).eraseReps := by
  by_cases heq : value = next
  · subst heq
    simp [List.eraseReps, List.eraseRepsBy, List.eraseRepsBy.loop]
  · have hloop := eraseReps_loop next values [value]
    simp only [List.eraseReps, List.eraseRepsBy, List.eraseRepsBy.loop,
      beq_eq_false_iff_ne.mpr heq, if_neg heq] at hloop ⊢
    rw [hloop, List.reverse_singleton, List.singleton_append]

private theorem mem_eraseReps (index : Nat) (values : List Nat) :
    index ∈ values.eraseReps ↔ index ∈ values := by
  induction values with
  | nil => rfl
  | cons value values ih =>
      cases values with
      | nil => rfl
      | cons next values =>
          rw [eraseReps_cons_cons]
          split
          case isTrue heq =>
            subst heq
            rw [ih]
            simp
          case isFalse => rw [List.mem_cons, List.mem_cons, ih]

private theorem pairwise_eraseReps {values : List Nat} (hvalues : values.Pairwise (· ≤ ·)) :
    values.eraseReps.Pairwise (· < ·) := by
  induction values with
  | nil => exact List.Pairwise.nil
  | cons value values ih =>
      cases values with
      | nil => exact List.pairwise_singleton _ _
      | cons next values =>
          have htail := ih hvalues.of_cons
          rw [eraseReps_cons_cons]
          split
          case isTrue => exact htail
          case isFalse hne =>
            refine List.pairwise_cons.mpr ⟨fun index hindex => ?_, htail⟩
            have hnext := List.rel_of_pairwise_cons hvalues List.mem_cons_self
            have hle := head_le_of_mem hvalues.of_cons ((mem_eraseReps _ _).mp hindex)
            exact (Nat.lt_of_le_of_ne hnext hne).trans_le hle

theorem mem_sortedDistinct (index : Nat) (indices : List Nat) :
    index ∈ sortedDistinct indices ↔ index ∈ indices := by
  rw [sortedDistinct, mem_eraseReps, List.mem_mergeSort]

theorem pairwise_sortedDistinct (indices : List Nat) :
    (sortedDistinct indices).Pairwise (· < ·) := by
  apply pairwise_eraseReps
  have hsorted := @List.pairwise_mergeSort Nat (fun left right => decide (left ≤ right))
    (by simp only [decide_eq_true_eq]; omega)
    (by simp only [Bool.or_eq_true, decide_eq_true_eq]; omega) indices
  simpa only [decide_eq_true_eq] using hsorted

theorem sortedDistinct_eq_self {indices : List Nat} (hsorted : indices.Pairwise (· < ·)) :
    sortedDistinct indices = indices := by
  apply (pairwise_sortedDistinct indices).eq_of_mem_iff hsorted
  intro index
  exact mem_sortedDistinct index indices

/-- Two elements of a set of indices with no element between them. -/
def Neighbouring (indices : Set Nat) (first second : Nat) : Prop :=
  first ∈ indices ∧ second ∈ indices ∧ first < second ∧
    ∀ index ∈ indices, index ≤ first ∨ second ≤ index

/-- The neighbours in an ascending list are its first two elements, and the
neighbours in the rest. -/
theorem neighbouring_cons_cons {closure nextClosure : Nat} {closures : List Nat}
    (hsorted : (closure :: nextClosure :: closures).Pairwise (· < ·)) (first second : Nat) :
    Neighbouring {index | index ∈ closure :: nextClosure :: closures} first second ↔
      (first = closure ∧ second = nextClosure) ∨
        Neighbouring {index | index ∈ nextClosure :: closures} first second := by
  have hhead : ∀ index ∈ nextClosure :: closures, closure < index ∧ nextClosure ≤ index := by
    intro index hindex
    exact ⟨List.rel_of_pairwise_cons hsorted hindex,
      head_le_of_mem (hsorted.of_cons.imp le_of_lt) hindex⟩
  have hnext : nextClosure ∈ nextClosure :: closures := List.mem_cons_self
  constructor
  · rintro ⟨hfirst, hsecond, hlt, hbetween⟩
    have hsecondMem : second ∈ nextClosure :: closures := by
      apply List.mem_of_ne_of_mem _ hsecond
      have hle := head_le_of_mem (hsorted.imp le_of_lt) hfirst
      exact (hle.trans_lt hlt).ne'
    rcases List.mem_cons.mp hfirst with rfl | hfirst
    · have hle := hbetween nextClosure (List.mem_cons_of_mem _ hnext)
      have hgap := (hhead nextClosure hnext).1
      have hmin := (hhead second hsecondMem).2
      exact .inl ⟨rfl, by omega⟩
    · exact .inr ⟨hfirst, hsecondMem, hlt, fun index hindex =>
        hbetween index (List.mem_cons_of_mem _ hindex)⟩
  · rintro (⟨rfl, rfl⟩ | ⟨hfirst, hsecond, hlt, hbetween⟩)
    · refine ⟨List.mem_cons_self, List.mem_cons_of_mem _ hnext, (hhead _ hnext).1, ?_⟩
      intro index hindex
      rcases List.mem_cons.mp hindex with rfl | hindex
      · exact .inl le_rfl
      · exact .inr (hhead index hindex).2
    · refine ⟨List.mem_cons_of_mem _ hfirst, List.mem_cons_of_mem _ hsecond, hlt, ?_⟩
      intro index hindex
      rcases List.mem_cons.mp hindex with rfl | hindex
      · exact .inl (hhead first hfirst).1.le
      · exact hbetween index hindex

theorem Neighbouring.lt {indices : Set Nat} {first second : Nat}
    (hneighbours : Neighbouring indices first second) : first < second :=
  hneighbours.2.2.1

theorem Neighbouring.not_mem {indices : Set Nat} {first second index : Nat}
    (hneighbours : Neighbouring indices first second) (hlower : first < index)
    (hupper : index < second) : index ∉ indices := by
  intro hindex
  cases hneighbours.2.2.2 index hindex with
  | inl hearly => exact absurd hlower (not_lt.mpr hearly)
  | inr hlate => exact absurd hupper (not_lt.mpr hlate)

/-- Each element of an ascending list and the next are neighbours in it. -/
theorem isChain_neighbouring {indices : List Nat} (hsorted : indices.Pairwise (· < ·)) :
    indices.IsChain (Neighbouring {index | index ∈ indices}) := by
  induction indices with
  | nil => exact .nil
  | cons first indices ih =>
      cases indices with
      | nil => exact .singleton first
      | cons second indices =>
          have hneighbouring := neighbouring_cons_cons hsorted
          apply List.IsChain.cons_cons ((hneighbouring first second).mpr (.inl ⟨rfl, rfl⟩))
          apply (ih hsorted.of_cons).imp
          intro left right hrest
          exact (hneighbouring left right).mpr (.inr hrest)

/-- Two ascending lists without a common element merge into an ascending list. -/
theorem pairwise_merge {left right : List Nat} (hleft : left.Pairwise (· < ·))
    (hright : right.Pairwise (· < ·)) (hdisjoint : left.Disjoint right) :
    (left.merge right).Pairwise (· < ·) := by
  have hnodup : (left.merge right).Nodup := by
    rw [(List.merge_perm_append _).nodup_iff, List.nodup_append']
    exact ⟨hleft.nodup, hright.nodup, hdisjoint⟩
  have hsorted := @List.pairwise_merge Nat (fun first second => decide (first ≤ second))
    (by simp only [decide_eq_true_eq]; omega)
    (by simp only [Bool.or_eq_true, decide_eq_true_eq]; omega) left right
    (hleft.imp fun hlt => decide_eq_true hlt.le) (hright.imp fun hlt => decide_eq_true hlt.le)
  apply (hsorted.and hnodup).imp
  intro first second hboth
  exact (of_decide_eq_true hboth.1).lt_of_ne hboth.2

/-- In an ascending list of openings the first one between two closures is the
least one. -/
theorem openingBetween?_eq_some_iff {openings : List Nat}
    (hsorted : openings.Pairwise (· ≤ ·)) (closure nextClosure opening : Nat) :
    openingBetween? openings closure nextClosure = some opening ↔
      IsLeast ({index | index ∈ openings} ∩ Set.Ioo closure nextClosure) opening := by
  induction openings with
  | nil =>
      constructor
      · intro hfound
        exact absurd hfound (by simp [openingBetween?])
      · rintro ⟨⟨hmem, _⟩, _⟩
        exact absurd hmem List.not_mem_nil
  | cons head openings ih =>
      have ih := ih hsorted.of_cons
      rw [openingBetween?] at ih ⊢
      by_cases hhead : closure < head ∧ head < nextClosure
      · rw [List.find?_cons_of_pos (by simpa using hhead), Option.some.injEq]
        have hleast : IsLeast ({index | index ∈ head :: openings} ∩
            Set.Ioo closure nextClosure) head := by
          refine ⟨⟨List.mem_cons_self, hhead⟩, ?_⟩
          intro index hindex
          exact head_le_of_mem hsorted hindex.1
        constructor
        · rintro rfl
          exact hleast
        · intro hopening
          exact hleast.unique hopening
      · rw [List.find?_cons_of_neg (by simpa using hhead), ih]
        have hsame : {index | index ∈ head :: openings} ∩ Set.Ioo closure nextClosure =
            {index | index ∈ openings} ∩ Set.Ioo closure nextClosure := by
          ext index
          constructor
          · rintro ⟨hindex, hbetween⟩
            rcases List.mem_cons.mp hindex with rfl | hindex
            · exact absurd hbetween hhead
            · exact ⟨hindex, hbetween⟩
          · rintro ⟨hindex, hbetween⟩
            exact ⟨List.mem_cons_of_mem _ hindex, hbetween⟩
        rw [hsame]

/-- Pairing ascending closures reports the neighbouring closures between which an
opening lies, with the opening that the search finds. -/
theorem mem_pairInstants_iff (openings : List Nat) {closures : List Nat}
    (hsorted : closures.Pairwise (· < ·)) (cycle : GlottalCycle) :
    cycle ∈ pairInstants openings closures ↔
      Neighbouring {index | index ∈ closures} cycle.closure cycle.nextClosure ∧
        openingBetween? openings cycle.closure cycle.nextClosure = some cycle.opening := by
  induction closures with
  | nil =>
      constructor
      · intro hcycle
        exact absurd hcycle List.not_mem_nil
      · rintro ⟨⟨hmem, _⟩, _⟩
        exact absurd hmem List.not_mem_nil
  | cons closure closures ih =>
      cases closures with
      | nil =>
          constructor
          · intro hcycle
            exact absurd hcycle List.not_mem_nil
          · rintro ⟨⟨hfirst, hsecond, hlt, _⟩, _⟩
            have hfirst := List.mem_singleton.mp hfirst
            have hsecond := List.mem_singleton.mp hsecond
            omega
      | cons nextClosure closures =>
          rw [neighbouring_cons_cons hsorted, or_and_right, ← ih hsorted.of_cons, pairInstants]
          obtain ⟨first, opening, second⟩ := cycle
          cases hopening : openingBetween? openings closure nextClosure with
          | none =>
              dsimp only
              constructor
              · exact .inr
              · rintro (⟨⟨rfl, rfl⟩, hsome⟩ | hlater)
                · exact absurd (hopening.symm.trans hsome) (by simp)
                · exact hlater
          | some found =>
              dsimp only
              rw [List.mem_cons, GlottalCycle.mk.injEq]
              constructor
              · rintro (⟨rfl, rfl, rfl⟩ | hlater)
                · exact .inl ⟨⟨rfl, rfl⟩, hopening⟩
                · exact .inr hlater
              · rintro (⟨⟨rfl, rfl⟩, hsome⟩ | hlater)
                · rw [hopening, Option.some.injEq] at hsome
                  exact .inl ⟨rfl, hsome.symm, rfl⟩
                · exact .inr hlater

/-- Each cycle ends no later than the next one starts. -/
theorem pairwise_pairInstants (openings : List Nat) {closures : List Nat}
    (hsorted : closures.Pairwise (· < ·)) :
    (pairInstants openings closures).Pairwise fun earlier later =>
      earlier.nextClosure ≤ later.closure := by
  induction closures with
  | nil => exact List.Pairwise.nil
  | cons closure closures ih =>
      cases closures with
      | nil => exact List.Pairwise.nil
      | cons nextClosure closures =>
          have hlater := ih hsorted.of_cons
          rw [pairInstants]
          cases openingBetween? openings closure nextClosure with
          | none => exact hlater
          | some opening =>
              refine List.pairwise_cons.mpr ⟨fun cycle hcycle => ?_, hlater⟩
              have hmem := ((mem_pairInstants_iff openings hsorted.of_cons cycle).mp hcycle).1.1
              exact head_le_of_mem (hsorted.of_cons.imp le_of_lt) hmem

end Glottis.Sedreams
