import Mathlib
import Glottis.Extremum
import Glottis.Proofs.ExactArithmetic
import Glottis.Proofs.InstantPairing

/-!
# Zero crossings

A pass through the pairs of neighbouring samples notes each crossing in one of two lists, by
the sign of the sample behind it alone.  So every crossing is in exactly one list, also where
a sample is zero.  In a signal without zeros the crossings are the changes between the two
sides of zero: a rising one leads to the upper side, a falling one away from it, and the
numbers of both tell apart the sides on which the signal starts and ends.
-/

namespace Glottis.ZeroCrossing

/-! ## The two lists -/

section Lists

variable {α : Type} [Scalar α]

theorem mem_rising_iff (signal : Signal α) (index : Nat) :
    index ∈ rising signal ↔ index + 1 < signal.size ∧
      signal.sample index * signal.sample (index + 1) ≤ 0 ∧ 0 ≤ signal.sample (index + 1) := by
  rw [rising, List.mem_filter, List.mem_range, crosses, Bool.and_eq_true, decide_eq_true_iff,
    decide_eq_true_iff, Nat.lt_sub_iff_add_lt]

theorem mem_falling_iff (signal : Signal α) (index : Nat) :
    index ∈ falling signal ↔ index + 1 < signal.size ∧
      signal.sample index * signal.sample (index + 1) ≤ 0 ∧ ¬0 ≤ signal.sample (index + 1) := by
  rw [falling, List.mem_filter, List.mem_range, crosses, Bool.and_eq_true, decide_eq_true_iff,
    Bool.not_eq_true', decide_eq_false_iff_not, Nat.lt_sub_iff_add_lt]

theorem pairwise_rising (signal : Signal α) : (rising signal).Pairwise (· < ·) :=
  List.pairwise_lt_range.filter _

theorem pairwise_falling (signal : Signal α) : (falling signal).Pairwise (· < ·) :=
  List.pairwise_lt_range.filter _

theorem disjoint_rising_falling (signal : Signal α) :
    (rising signal).Disjoint (falling signal) := by
  intro index hrising hfalling
  exact ((mem_falling_iff signal index).mp hfalling).2.2
    ((mem_rising_iff signal index).mp hrising).2.2

/-- Each crossing is in one of the lists. -/
theorem mem_rising_or_mem_falling_iff (signal : Signal α) (index : Nat) :
    index ∈ rising signal ∨ index ∈ falling signal ↔ index + 1 < signal.size ∧
      signal.sample index * signal.sample (index + 1) ≤ 0 := by
  rw [mem_rising_iff, mem_falling_iff, ← and_or_left, ← and_or_left]
  exact and_congr_right' (and_iff_left (em _))

/-- The crossings that a pass has found. -/
structure Found where
  rising : List Nat
  falling : List Nat

namespace Found

def step (signal : Signal α) (found : Found) (index : Nat) : Found :=
  if signal.sample index * signal.sample (index + 1) ≤ 0 then
    if 0 ≤ signal.sample (index + 1) then { found with rising := found.rising ++ [index] }
    else { found with falling := found.falling ++ [index] }
  else found

def run (signal : Signal α) (pairs : Nat) : Found :=
  pairs.fold (fun index _ found => step signal found index) ⟨[], []⟩

theorem run_succ (signal : Signal α) (pairs : Nat) :
    run signal (pairs + 1) = step signal (run signal pairs) pairs := by
  simp [run]

/-- A pass over all pairs fills the two lists. -/
theorem run_eq (signal : Signal α) :
    run signal (signal.size - 1) = ⟨ZeroCrossing.rising signal, ZeroCrossing.falling signal⟩ := by
  rw [ZeroCrossing.rising, ZeroCrossing.falling]
  generalize signal.size - 1 = pairs
  induction pairs with
  | zero => rfl
  | succ pairs ih =>
      rw [run_succ, ih, List.range_succ, List.filter_append, List.filter_append, step]
      by_cases hcrosses : signal.sample pairs * signal.sample (pairs + 1) ≤ 0
      · by_cases hupper : 0 ≤ signal.sample (pairs + 1)
        · simp [crosses, hcrosses, hupper]
        · simp [crosses, hcrosses, hupper]
      · simp [crosses, hcrosses]

end Found

end Lists

/-! ## The sides of zero -/

variable {signal : Signal ℝ}

def HasNoZero (signal : Signal ℝ) : Prop := ∀ index < signal.size, signal.sample index ≠ 0

noncomputable def side (value : ℝ) : ℤ := if 0 < value then 1 else 0

/-- How many more crossings of a pass rise than fall. -/
def Found.balance (found : Found) : ℤ := (found.rising.length : ℤ) - found.falling.length

section Sides

variable (hzero : HasNoZero signal)

include hzero

theorem nonneg_iff {index : Nat} (hindex : index < signal.size) :
    0 ≤ signal.sample index ↔ 0 < signal.sample index :=
  ⟨fun hnonneg => hnonneg.lt_of_ne (hzero index hindex).symm, le_of_lt⟩

/-- Without zeros a crossing changes the side. -/
theorem crosses_iff {index : Nat} (hindex : index + 1 < signal.size) :
    signal.sample index * signal.sample (index + 1) ≤ 0 ↔
      (0 < signal.sample index ↔ ¬0 < signal.sample (index + 1)) := by
  rw [mul_nonpos_iff, nonneg_iff hzero (Nat.lt_of_succ_lt hindex), nonneg_iff hzero hindex,
    ← not_lt, ← not_lt]
  tauto

/-- Looking at a pair moves the balance from the side of its first sample to that of its
second one. -/
theorem balance_step (found : Found) {index : Nat} (hindex : index + 1 < signal.size) :
    (found.step signal index).balance =
      found.balance + side (signal.sample (index + 1)) - side (signal.sample index) := by
  have hcrosses := crosses_iff hzero hindex
  have hrises := nonneg_iff hzero hindex
  by_cases hstart : 0 < signal.sample index <;>
    by_cases hend : 0 < signal.sample (index + 1) <;>
    simp [Found.step, Found.balance, side, hcrosses, hrises, hstart, hend] <;>
    ring

/-- The balance of a pass tells the side that it has reached from the one where it started. -/
theorem balance_run {pairs : Nat} (hpairs : pairs < signal.size) :
    (Found.run signal pairs).balance = side (signal.sample pairs) - side (signal.sample 0) := by
  induction pairs with
  | zero =>
      rw [sub_self]
      rfl
  | succ pairs ih =>
      rw [Found.run_succ, balance_step hzero _ hpairs, ih (Nat.lt_of_succ_lt hpairs)]
      ring

/-! ## Alternation -/

/-- The side stays the same from one crossing to the next. -/
theorem pos_iff_of_no_crossing {first last : Nat} (hle : first ≤ last) (hlast : last < signal.size)
    (hnone : ∀ index, first ≤ index → index < last →
      ¬signal.sample index * signal.sample (index + 1) ≤ 0) :
    0 < signal.sample first ↔ 0 < signal.sample last := by
  induction last, hle using Nat.le_induction with
  | base => exact Iff.rfl
  | succ last hle ih =>
      have hsame := mt (crosses_iff hzero hlast).mpr (hnone last hle (Nat.lt_succ_self last))
      rw [ih (Nat.lt_of_succ_lt hlast) fun index hlower hupper =>
        hnone index hlower (Nat.lt_succ_of_lt hupper)]
      tauto

/-- A rising crossing is followed by a falling one and a falling one by a rising one. -/
theorem isChain_merge :
    ((rising signal).merge (falling signal)).IsChain fun first second =>
      (first ∈ rising signal ∧ second ∈ falling signal) ∨
        (first ∈ falling signal ∧ second ∈ rising signal) := by
  have hsorted := Sedreams.pairwise_merge (pairwise_rising signal) (pairwise_falling signal)
    (disjoint_rising_falling signal)
  have hmem (index : Nat) : index ∈ (rising signal).merge (falling signal) ↔
      index + 1 < signal.size ∧ signal.sample index * signal.sample (index + 1) ≤ 0 := by
    rw [List.mem_merge, mem_rising_or_mem_falling_iff]
  apply (Sedreams.isChain_neighbouring hsorted).imp
  intro first second hneighbours
  obtain ⟨hfirst, hfirstCrosses⟩ := (hmem first).mp hneighbours.1
  obtain ⟨hsecond, hsecondCrosses⟩ := (hmem second).mp hneighbours.2.1
  have hbetween : 0 < signal.sample (first + 1) ↔ 0 < signal.sample second := by
    apply pos_iff_of_no_crossing hzero hneighbours.lt (Nat.lt_of_succ_lt hsecond)
    intro index hlower hupper hcrosses
    exact hneighbours.not_mem hlower hupper
      ((hmem index).mpr ⟨(Nat.succ_lt_succ hupper).trans hsecond, hcrosses⟩)
  have hchange := (crosses_iff hzero hsecond).mp hsecondCrosses
  rw [mem_rising_iff, mem_falling_iff, mem_falling_iff, mem_rising_iff, nonneg_iff hzero hfirst,
    nonneg_iff hzero hsecond]
  tauto

end Sides

/-- One pass fills two ascending lists that have no index in common and that together hold the
indices of all crossings; the sample behind a crossing is at least zero if it rises and below
zero if it falls.  In a signal without zeros rising and falling crossings take turns, and there
is one rising crossing more if the signal goes from below zero to above it, one less if it goes
the other way, and else the same number. -/
theorem crossings_alternate_and_count (signal : Signal ℝ) :
    let rises := rising signal
    let falls := falling signal
    Found.run signal (signal.size - 1) = ⟨rises, falls⟩ ∧
      rises.Pairwise (· < ·) ∧ falls.Pairwise (· < ·) ∧ rises.Disjoint falls ∧
      (∀ index, index ∈ rises ∨ index ∈ falls ↔ index + 1 < signal.size ∧
        signal.sample index * signal.sample (index + 1) ≤ 0) ∧
      (∀ index ∈ rises, 0 ≤ signal.sample (index + 1)) ∧
      (∀ index ∈ falls, signal.sample (index + 1) < 0) ∧
      (0 < signal.size → (∀ index < signal.size, signal.sample index ≠ 0) →
        (rises.merge falls).Pairwise (· < ·) ∧
        ((rises.merge falls).IsChain fun first second =>
          (first ∈ rises ∧ second ∈ falls) ∨ (first ∈ falls ∧ second ∈ rises)) ∧
        (rises.length : ℤ) - falls.length =
          (if 0 < signal.sample (signal.size - 1) then 1 else 0) -
            (if 0 < signal.sample 0 then 1 else 0)) := by
  intro rises falls
  refine ⟨Found.run_eq signal, pairwise_rising signal, pairwise_falling signal,
    disjoint_rising_falling signal, mem_rising_or_mem_falling_iff signal, ?_, ?_, ?_⟩
  · intro index hindex
    exact ((mem_rising_iff signal index).mp hindex).2.2
  · intro index hindex
    exact not_le.mp ((mem_falling_iff signal index).mp hindex).2.2
  · intro hsize hzero
    refine ⟨Sedreams.pairwise_merge (pairwise_rising signal) (pairwise_falling signal)
      (disjoint_rising_falling signal), isChain_merge hzero, ?_⟩
    have hbalance := balance_run hzero (Nat.sub_one_lt hsize.ne')
    rwa [Found.run_eq] at hbalance

/-- A signal that starts above zero, crosses it three times and ends below. -/
theorem crossings_alternate_and_count_of_three_crossings :
    (∀ index < (#[1, -1, -0.5, 0.5, 2, -3] : Signal ℝ).size,
        Signal.sample (#[1, -1, -0.5, 0.5, 2, -3] : Signal ℝ) index ≠ 0) ∧
      ((rising (#[1, -1, -0.5, 0.5, 2, -3] : Signal ℝ)).length : ℤ) -
        (falling (#[1, -1, -0.5, 0.5, 2, -3] : Signal ℝ)).length = -1 := by
  have hzero : ∀ index < (#[1, -1, -0.5, 0.5, 2, -3] : Signal ℝ).size,
      Signal.sample (#[1, -1, -0.5, 0.5, 2, -3] : Signal ℝ) index ≠ 0 := by
    intro index hindex
    have hinside : index < 6 := hindex
    interval_cases index <;> norm_num [Signal.sample]
  obtain ⟨_, _, _, _, _, _, _, hcount⟩ :=
    crossings_alternate_and_count (#[1, -1, -0.5, 0.5, 2, -3] : Signal ℝ)
  refine ⟨hzero, (hcount (by decide) hzero).2.2.trans ?_⟩
  norm_num [Signal.sample]

end Glottis.ZeroCrossing
