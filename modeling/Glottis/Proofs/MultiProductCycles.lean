import Mathlib
import Glottis.MultiProduct
import Glottis.Proofs.Checks
import Glottis.Proofs.TurningPoints

/-!
# Cycles from the multi-scale product

The cycles of neighbouring closures form a chain without gaps, and in exact
arithmetic every opening lies in its cycle and strictly before the end of it.  An
opening is a closure plus an offset that was taken from another index, the start of
the searched part.  It stays in the cycle because that start is not before the
closure, and it misses the end because a closure is a minimum of the product, so an
earlier sample of the searched part is at least as large.
-/

namespace Glottis.MultiProduct

/-! ## The chain of cycles -/

section Chain

variable {α : Type} [Scalar α]

theorem length_cycles (product : Signal α) (closures : List Nat) :
    (cycles product closures).length = closures.length - 1 := by
  induction closures with
  | nil => rfl
  | cons closure closures ih =>
      cases closures with
      | nil => rfl
      | cons nextClosure closures =>
          rw [cycles, List.length_cons, ih]
          rfl

/-- Each cycle ends where the next one starts. -/
theorem isChain_cycles (product : Signal α) (closures : List Nat) :
    (cycles product closures).IsChain fun earlier later =>
      earlier.nextClosure = later.closure := by
  induction closures with
  | nil => exact .nil
  | cons closure closures ih =>
      cases closures with
      | nil => exact .nil
      | cons nextClosure closures =>
          cases closures with
          | nil => exact .singleton _
          | cons thirdClosure closures => exact .cons_cons rfl ih

/-- A cycle lies between two closures, the first of which comes before the second. -/
theorem exists_of_mem_cycles {product : Signal α} {closures : List Nat}
    (hsorted : closures.Pairwise (· < ·)) {found : GlottalCycle}
    (hfound : found ∈ cycles product closures) :
    ∃ closure ∈ closures, ∃ nextClosure ∈ closures, closure < nextClosure ∧
      found = cycle product closure nextClosure := by
  induction closures with
  | nil => exact absurd hfound List.not_mem_nil
  | cons closure closures ih =>
      cases closures with
      | nil => exact absurd hfound List.not_mem_nil
      | cons nextClosure closures =>
          rw [cycles, List.mem_cons] at hfound
          cases hfound with
          | inl hfound =>
              exact ⟨closure, List.mem_cons_self, nextClosure,
                List.mem_cons_of_mem _ List.mem_cons_self,
                List.rel_of_pairwise_cons hsorted List.mem_cons_self, hfound⟩
          | inr hfound =>
              obtain ⟨first, hfirst, second, hsecond, hpair⟩ := ih hsorted.of_cons hfound
              exact ⟨first, List.mem_cons_of_mem _ hfirst, second,
                List.mem_cons_of_mem _ hsecond, hpair⟩

/-- The cycles start at ascending closures. -/
theorem pairwise_closure_cycles {product : Signal α} {closures : List Nat}
    (hsorted : closures.Pairwise (· < ·)) :
    (cycles product closures).Pairwise fun earlier later => earlier.closure < later.closure := by
  induction closures with
  | nil => exact .nil
  | cons closure closures ih =>
      cases closures with
      | nil => exact .nil
      | cons nextClosure closures =>
          rw [cycles]
          apply List.pairwise_cons.mpr
          refine ⟨fun later hlater => ?_, ih hsorted.of_cons⟩
          obtain ⟨first, hfirst, _, _, _, hpair⟩ := exists_of_mem_cycles hsorted.of_cons hlater
          rw [hpair]
          exact List.rel_of_pairwise_cons hsorted hfirst

end Chain

/-! ## The place of the opening -/

def largerOffset {α : Type} [Scalar α] (signal : Signal α) (first offset best : Nat) : Nat :=
  if signal.sample (first + best) < signal.sample (first + offset) then offset else best

/-- Among the offsets below `count`, `best` is the first of those with the largest
sample. -/
structure IsFirstMaximum (signal : Signal ℝ) (first count best : Nat) : Prop where
  lt_count : best < count
  earlier_lt : ∀ offset < best, signal.sample (first + offset) < signal.sample (first + best)
  le_best : ∀ offset < count, signal.sample (first + offset) ≤ signal.sample (first + best)

/-- One more offset takes the place of the first maximum if it is larger. -/
theorem IsFirstMaximum.step {signal : Signal ℝ} {first count best : Nat}
    (hbest : IsFirstMaximum signal first count best) :
    IsFirstMaximum signal first (count + 1) (largerOffset signal first count best) := by
  rw [largerOffset]
  split
  case isTrue hlarger =>
    have hbelow : ∀ offset < count,
        signal.sample (first + offset) < signal.sample (first + count) :=
      fun offset hoffset => (hbest.le_best offset hoffset).trans_lt hlarger
    refine ⟨Nat.lt_succ_self count, hbelow, Nat.forall_lt_succ_right.mpr ⟨?_, le_rfl⟩⟩
    intro offset hoffset
    exact (hbelow offset hoffset).le
  case isFalse hsmaller =>
    exact ⟨Nat.lt_succ_of_lt hbest.lt_count, hbest.earlier_lt,
      Nat.forall_lt_succ_right.mpr ⟨hbest.le_best, not_lt.mp hsmaller⟩⟩

/-- The search for the maximum of a window that is not empty finds the first one. -/
theorem isFirstMaximum_offsetOfMaximum (signal : Signal ℝ) {first last : Nat}
    (hle : first ≤ last) :
    IsFirstMaximum signal first (last + 1 - first) (offsetOfMaximum signal first last) := by
  have hfold : ∀ count, IsFirstMaximum signal first (count + 1)
      ((count + 1).fold (fun offset _ best => largerOffset signal first offset best) 0) := by
    intro count
    induction count with
    | zero =>
        have hstay : largerOffset signal first 0 0 = 0 := ite_self 0
        rw [Nat.fold_succ, Nat.fold_zero, hstay]
        refine ⟨Nat.one_pos, fun offset hoffset => absurd hoffset (Nat.not_lt_zero _), ?_⟩
        intro offset hoffset
        rw [Nat.lt_one_iff.mp hoffset]
    | succ count ih =>
        rw [Nat.fold_succ]
        exact ih.step
  have hcount : last + 1 - first = last - first + 1 := by omega
  rw [hcount, offsetOfMaximum, hcount]
  exact hfold (last - first)

/-- The search starts a fifth of the cycle behind its closure. -/
theorem searchStart_eq {closure nextClosure : Nat} (hle : closure ≤ nextClosure)
    (hindex : nextClosure ≤ maxIndex) :
    searchStart ℝ closure nextClosure = closure + (nextClosure - closure) / 5 := by
  have hplace : 0.8 * (closure : ℝ) + 0.2 * (nextClosure : ℝ) =
      ((nextClosure - closure : Nat) : ℝ) / (5 : Nat) + closure := by
    rw [Nat.cast_sub hle]
    norm_num
    ring
  rw [searchStart, Scalar.truncate_real, hplace, Nat.floor_add_natCast (by positivity),
    Nat.floor_div_eq_div, Nat.add_comm, min_eq_left (by omega)]

/-- The searched part of a cycle starts within the cycle and before its end. -/
theorem searchStart_mem_cycle {closure nextClosure : Nat} (hlt : closure < nextClosure)
    (hindex : nextClosure ≤ maxIndex) :
    closure ≤ searchStart ℝ closure nextClosure ∧
      searchStart ℝ closure nextClosure < nextClosure := by
  rw [searchStart_eq hlt.le hindex]
  omega

theorem usedLength_le (levels length : Nat) : usedLength levels length ≤ length :=
  Nat.div_mul_le_self length (blockLength levels)

/-- The closures of a product are its minima. -/
theorem closures_eq_find_minimum (product : Signal ℝ) :
    closures product = Extremum.find product .minimum :=
  (Extremum.find_minimum_eq product).symm

/-- A closure behind the first index is neither above its neighbours nor level with both. -/
theorem succ_mem_closures_iff (product : Signal ℝ) (index : Nat) :
    index + 1 ∈ closures product ↔ index + 2 < product.size ∧
      product.sample (index + 1) ≤ product.sample index ∧
      product.sample (index + 1) ≤ product.sample (index + 2) ∧
      (product.sample (index + 1) < product.sample index ∨
        product.sample (index + 1) < product.sample (index + 2)) := by
  rw [closures_eq_find_minimum, Extremum.succ_mem_find_minimum_iff]

/-- The first index is a closure only of a product that starts level and then rises. -/
theorem zero_mem_closures_iff (product : Signal ℝ) :
    0 ∈ closures product ↔ 3 ≤ product.size ∧
      product.sample 1 = product.sample 0 ∧ product.sample 1 < product.sample 2 := by
  rw [closures_eq_find_minimum, Extremum.zero_mem_find_minimum_iff]

/-- A closure is no larger than the sample before it. -/
theorem sample_closure_le {product : Signal ℝ} {index : Nat}
    (hclosure : index + 1 ∈ closures product) :
    product.sample (index + 1) ≤ product.sample index :=
  ((succ_mem_closures_iff product index).mp hclosure).2.1

/-- The opening of a cycle between two closures is not before the first and strictly
before the second.  Its offset is at most the distance from the start of the
searched part to the sample before the second closure. -/
theorem cycle_wellFormed {product : Signal ℝ} {closure nextClosure : Nat}
    (hclosure : nextClosure ∈ closures product) (hlt : closure < nextClosure)
    (hindex : nextClosure ≤ maxIndex) :
    closure ≤ (cycle product closure nextClosure).opening ∧
      (cycle product closure nextClosure).opening < nextClosure := by
  obtain ⟨hstart, hend⟩ := searchStart_mem_cycle hlt hindex
  have hfirst := isFirstMaximum_offsetOfMaximum product hend.le
  generalize hfrom : searchStart ℝ closure nextClosure = start at hstart hend hfirst
  generalize hoffset : offsetOfMaximum product start nextClosure = offset at hfirst
  have hopening : (cycle product closure nextClosure).opening = closure + offset := by
    rw [cycle, hfrom, hoffset]
  obtain ⟨previous, rfl⟩ : ∃ previous, nextClosure = previous + 1 :=
    ⟨nextClosure - 1, by omega⟩
  have hbefore : offset ≤ previous - start := by
    by_contra hlate
    have hlast : start + offset = previous + 1 := by
      have := hfirst.lt_count
      omega
    have hless := hfirst.earlier_lt (previous - start) (by omega)
    rw [hlast, Nat.add_sub_cancel' (Nat.lt_succ_iff.mp hend)] at hless
    exact absurd hless (not_lt.mpr (sample_closure_le hclosure))
  rw [hopening]
  constructor
  · exact Nat.le_add_right closure offset
  · omega

/-- Detection succeeds on every signal whose samples an index can count, which is
every signal that can be stored.  Each opening lies in its cycle and strictly
before the end of it, the searched part of each cycle is not empty and lies in the
product, the cycles are chained without gap or overlap, and there is one cycle for
each pair of neighbouring closures. -/
theorem detect_wellFormed_and_chained (detector : Detector) (signal : Signal ℝ)
    (sampleRate : ℝ) (hrate : 0 < sampleRate) (hsize : signal.size ≤ maxIndex) :
    ∃ found, detector.detect signal sampleRate = .ok found ∧
      (∀ cycle ∈ found, cycle.closure ≤ cycle.opening ∧ cycle.opening < cycle.nextClosure ∧
        cycle.nextClosure < usedLength detector.levels signal.size ∧
        cycle.closure ≤ searchStart ℝ cycle.closure cycle.nextClosure ∧
        searchStart ℝ cycle.closure cycle.nextClosure ≤ cycle.nextClosure) ∧
      (found.IsChain fun earlier later => earlier.nextClosure = later.closure) ∧
      (found.Pairwise fun earlier later => earlier.closure < later.closure) ∧
      found.length = (closures (multiScaleProduct signal detector.levels)).length - 1 := by
  generalize hproduct : multiScaleProduct signal detector.levels = product
  have hsorted : (closures product).Pairwise (· < ·) := Extremum.pairwise_find _ _
  refine ⟨cycles product (closures product), ?_, fun found hfound => ?_, isChain_cycles _ _,
    pairwise_closure_cycles hsorted, length_cycles _ _⟩
  · rw [Detector.detect, require_bind_eq_ok_iff, require_bind_eq_ok_iff, pure_eq_ok_iff, hproduct]
    exact ⟨(Scalar.isPositive_real_iff sampleRate).mpr hrate, signal.allFinite_real, rfl⟩
  · obtain ⟨closure, _, nextClosure, hnext, hlt, rfl⟩ := exists_of_mem_cycles hsorted hfound
    have hlast : nextClosure + 1 < usedLength detector.levels signal.size := by
      have := Extremum.succ_lt_size_of_mem_find hnext
      rwa [Array.size_map, ← hproduct, size_multiScaleProduct] at this
    have hused := usedLength_le detector.levels signal.size
    have hindex : nextClosure ≤ maxIndex := by omega
    obtain ⟨hstart, hend⟩ := searchStart_mem_cycle hlt hindex
    obtain ⟨hopening, hopeningLt⟩ := cycle_wellFormed hnext hlt hindex
    exact ⟨hopening, hopeningLt, Nat.lt_of_succ_lt hlast, hstart, hend.le⟩

theorem detect_wellFormed_and_chained_ramp :
    ∃ found, Detector.standard.detect (Signal.tabulate 128 fun index => (index : ℝ)) 16000 =
        .ok found ∧
      ∀ cycle ∈ found, cycle.opening < cycle.nextClosure ∧ cycle.nextClosure < 128 := by
  have hsize : (Signal.tabulate 128 fun index => (index : ℝ)).size = 128 :=
    Signal.size_tabulate _ _
  obtain ⟨found, hfound, hcycles, _⟩ := detect_wellFormed_and_chained Detector.standard
    (Signal.tabulate 128 fun index => (index : ℝ)) 16000 (by norm_num) (by rw [hsize]; decide)
  refine ⟨found, hfound, fun cycle hcycle => ?_⟩
  obtain ⟨_, hopening, hnext, _⟩ := hcycles cycle hcycle
  rw [hsize] at hnext
  exact ⟨hopening, hnext⟩

end Glottis.MultiProduct
