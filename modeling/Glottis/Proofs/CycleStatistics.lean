import Mathlib
import Glottis.CommandLine.Program
import Glottis.Proofs.AppendedSamples
import Glottis.Proofs.MultiProductCycles
import Glottis.Proofs.ShortRecordings

/-!
# Statistics of detected cycles

The open quotient and the mean F0 are means over cycles, and fail on a cycle without
length.  The cycles of both detectors run forward and follow each other without overlap, so
the means exist, inherit the bounds of single cycles, and the mean F0 is at least the rate
of as many equal cycles over the same stretch of the recording.
-/

namespace Glottis

namespace GlottalCycle

/-! ## Means over cycles -/

/-- The mean of some values lies in every convex set in which the values lie. -/
theorem mean_mem_of_convex {values : List ℝ} {bounds : Set ℝ} (hbounds : Convex ℝ bounds)
    (hne : values ≠ []) (hvalues : ∀ value ∈ values, value ∈ bounds) :
    values.sum / values.length ∈ bounds := by
  have hlength : (values.length : ℝ) ≠ 0 :=
    Nat.cast_ne_zero.mpr (List.length_pos_iff.mpr hne).ne'
  have hmean : ∑ index : Fin values.length, (values.length : ℝ)⁻¹ • values[(index : Nat)] ∈
      bounds := by
    apply hbounds.sum_mem
    · exact fun _ _ => inv_nonneg.mpr (Nat.cast_nonneg _)
    · rw [Finset.sum_const, Finset.card_univ, Fintype.card_fin, nsmul_eq_mul,
        mul_inv_cancel₀ hlength]
    · exact fun index _ => hvalues _ (List.getElem_mem index.isLt)
  rwa [← Finset.smul_sum, Fin.sum_univ_getElem, smul_eq_mul, inv_mul_eq_div] at hmean

noncomputable def openFraction (cycle : GlottalCycle) : ℝ :=
  ((cycle.nextClosure : ℝ) - (cycle.opening : ℝ)) / (cycle.period : ℝ)

noncomputable def rate (sampleRate : ℝ) (cycle : GlottalCycle) : ℝ :=
  sampleRate / (cycle.period : ℝ)

/-- The rate of as many equal cycles over the stretch from the start of the first cycle to the
end of the last one. -/
noncomputable def evenRate (sampleRate : ℝ) (cycles : List GlottalCycle) (hne : cycles ≠ []) : ℝ :=
  sampleRate * cycles.length /
    (((cycles.getLast hne).nextClosure : ℝ) - ((cycles.head hne).closure : ℝ))

theorem period_pos_iff (cycle : GlottalCycle) :
    0 < cycle.period ↔ cycle.closure < cycle.nextClosure := Nat.sub_pos_iff_lt

section Means

variable {cycles : List GlottalCycle} {sampleRate : ℝ}

theorem addOpenFractions_eq_ok (hforward : ∀ cycle ∈ cycles, 0 < cycle.period) (total : ℝ) :
    addOpenFractions cycles total = .ok (total + (cycles.map openFraction).sum) := by
  induction cycles generalizing total with
  | nil => rw [addOpenFractions, List.map_nil, List.sum_nil, add_zero]
  | cons cycle cycles ih =>
      have hfraction : (cycle.openFraction? : Option ℝ) = some cycle.openFraction :=
        if_neg (hforward cycle List.mem_cons_self).ne'
      rw [addOpenFractions, hfraction, List.map_cons, List.sum_cons, ← add_assoc]
      exact ih (fun later hlater => hforward later (List.mem_cons_of_mem _ hlater)) _

theorem addRates_eq_ok (hforward : ∀ cycle ∈ cycles, 0 < cycle.period) (total : ℝ) :
    addRates sampleRate cycles total = .ok (total + (cycles.map (rate sampleRate)).sum) := by
  induction cycles generalizing total with
  | nil => rw [addRates, List.map_nil, List.sum_nil, add_zero]
  | cons cycle cycles ih =>
      rw [addRates, if_pos (hforward cycle List.mem_cons_self), List.map_cons, List.sum_cons,
        ← add_assoc]
      exact ih (fun later hlater => hforward later (List.mem_cons_of_mem _ hlater)) _

/-- The open quotient of cycles that run forward is the mean of their open fractions. -/
theorem openQuotient_eq_ok (hne : cycles ≠ []) (hforward : ∀ cycle ∈ cycles, 0 < cycle.period) :
    openQuotient cycles = .ok ((cycles.map openFraction).sum / cycles.length) := by
  have hsome : (!cycles.isEmpty) = true := by simpa using hne
  rw [openQuotient, require_bind_of hsome, addOpenFractions_eq_ok hforward, zero_add]
  rfl

/-- The mean F0 of cycles that run forward is the mean of their rates. -/
theorem meanF0_eq_ok (hrate : 0 < sampleRate) (hne : cycles ≠ [])
    (hforward : ∀ cycle ∈ cycles, 0 < cycle.period) :
    meanF0 cycles sampleRate = .ok ((cycles.map (rate sampleRate)).sum / cycles.length) := by
  have hsome : (!cycles.isEmpty) = true := by simpa using hne
  rw [meanF0, require_bind_of ((Scalar.isPositive_real_iff _).mpr hrate), require_bind_of hsome,
    addRates_eq_ok hforward, zero_add]
  rfl

/-- The open quotient lies where the open fractions lie. -/
theorem mean_openFraction_mem {bounds : Set ℝ} (hbounds : Convex ℝ bounds) (hne : cycles ≠ [])
    (hfraction : ∀ cycle ∈ cycles, cycle.openFraction ∈ bounds) :
    (cycles.map openFraction).sum / cycles.length ∈ bounds := by
  have hmean := mean_mem_of_convex hbounds (mt List.map_eq_nil_iff.mp hne)
    (List.forall_mem_map.mpr hfraction)
  rwa [List.length_map] at hmean

/-- The mean F0 is at most the rate of the shortest cycle. -/
theorem mean_rate_le {shortest : Nat} (hrate : 0 < sampleRate) (hne : cycles ≠ [])
    (hshortest : 0 < shortest) (hperiod : ∀ cycle ∈ cycles, shortest ≤ cycle.period) :
    (cycles.map (rate sampleRate)).sum / cycles.length ≤ sampleRate / shortest := by
  have hmean := mean_mem_of_convex (convex_Iic (sampleRate / shortest))
    (mt List.map_eq_nil_iff.mp hne) (List.forall_mem_map.mpr fun cycle hcycle =>
      div_le_div_of_nonneg_left hrate.le (Nat.cast_pos.mpr hshortest)
        (Nat.cast_le.mpr (hperiod cycle hcycle)))
  rwa [List.length_map] at hmean

end Means

/-! ## Cycles one after the other -/

/-- Cycles that run forward, each of which ends no later than the next one starts. -/
structure Consecutive (cycles : List GlottalCycle) : Prop where
  forward : ∀ cycle ∈ cycles, cycle.closure < cycle.nextClosure
  disjoint : cycles.IsChain fun earlier later => earlier.nextClosure ≤ later.closure

namespace Consecutive

variable {cycles : List GlottalCycle}

theorem period_pos (hcycles : Consecutive cycles) : ∀ cycle ∈ cycles, 0 < cycle.period :=
  fun cycle hcycle => (period_pos_iff cycle).mpr (hcycles.forward cycle hcycle)

/-- The lengths of the cycles add up to no more than the stretch that they cover. -/
theorem sum_period_le (hcycles : Consecutive cycles) (hne : cycles ≠ []) :
    (cycles.head hne).closure + (cycles.map period).sum ≤ (cycles.getLast hne).nextClosure := by
  induction cycles with
  | nil => exact absurd rfl hne
  | cons cycle cycles ih =>
      have hforward := hcycles.forward cycle List.mem_cons_self
      cases cycles with
      | nil =>
          simp only [List.head_cons, List.getLast_singleton, List.map_cons, List.map_nil,
            List.sum_cons, List.sum_nil, period]
          omega
      | cons later cycles =>
          have hstart := (List.isChain_cons_cons.mp hcycles.disjoint).1
          have hlater : Consecutive (later :: cycles) :=
            ⟨fun cycle hcycle => hcycles.forward cycle (List.mem_cons_of_mem _ hcycle),
              (List.isChain_cons_cons.mp hcycles.disjoint).2⟩
          have hrest := ih hlater (List.cons_ne_nil _ _)
          rw [List.getLast_cons_cons]
          rw [List.head_cons] at hrest ⊢
          rw [List.map_cons, List.sum_cons, period]
          omega

/-- The mean F0 is at least the rate of as many equal cycles over the same stretch, since an
arithmetic mean is at least the harmonic one. -/
theorem evenRate_le_mean (hcycles : Consecutive cycles) (hne : cycles ≠ []) {sampleRate : ℝ}
    (hrate : 0 < sampleRate) :
    evenRate sampleRate cycles hne ≤ (cycles.map (rate sampleRate)).sum / cycles.length := by
  have hlength : (0 : ℝ) < cycles.length := Nat.cast_pos.mpr (List.length_pos_iff.mpr hne)
  have hpositive : ∀ index ∈ (Finset.univ : Finset (Fin cycles.length)),
      (0 : ℝ) < (cycles[(index : Nat)].period : ℝ) := fun index _ =>
    Nat.cast_pos.mpr (hcycles.period_pos _ (List.getElem_mem index.isLt))
  have htotal : ∑ index : Fin cycles.length, (cycles[(index : Nat)].period : ℝ) =
      ((cycles.map period).sum : ℕ) := by
    rw [← Fin.sum_univ_fun_getElem, Nat.cast_sum]
  have htotalPos : (0 : ℝ) < ((cycles.map period).sum : ℕ) := by
    rw [← htotal]
    have : Nonempty (Fin cycles.length) := ⟨⟨0, List.length_pos_iff.mpr hne⟩⟩
    exact Finset.sum_pos hpositive Finset.univ_nonempty
  have hstretch : (((cycles.map period).sum : ℕ) : ℝ) ≤
      ((cycles.getLast hne).nextClosure : ℝ) - ((cycles.head hne).closure : ℝ) := by
    rw [le_sub_iff_add_le']
    exact_mod_cast hcycles.sum_period_le hne
  have hmeans := Finset.sq_sum_div_le_sum_sq_div Finset.univ (fun _ => (1 : ℝ)) hpositive
  rw [htotal, Finset.sum_const, Finset.card_univ, Fintype.card_fin, nsmul_eq_mul, mul_one]
    at hmeans
  have hrates : (cycles.map (rate sampleRate)).sum =
      sampleRate * ∑ index : Fin cycles.length, 1 ^ 2 / (cycles[(index : Nat)].period : ℝ) := by
    rw [← Fin.sum_univ_fun_getElem, Finset.mul_sum]
    refine Finset.sum_congr rfl fun index _ => ?_
    rw [rate, one_pow, mul_one_div]
  calc evenRate sampleRate cycles hne
      ≤ sampleRate * cycles.length / ((cycles.map period).sum : ℕ) :=
        div_le_div_of_nonneg_left (mul_nonneg hrate.le hlength.le) htotalPos hstretch
    _ = sampleRate * ((cycles.length : ℝ) ^ 2 / ((cycles.map period).sum : ℕ)) / cycles.length := by
        field_simp
    _ ≤ (cycles.map (rate sampleRate)).sum / cycles.length := by
        rw [hrates]
        exact div_le_div_of_nonneg_right (mul_le_mul_of_nonneg_left hmeans hrate.le) hlength.le

/-- Both statistics of consecutive cycles exist, within the bounds of single cycles, and the
mean F0 is at least the rate of as many equal cycles over the same stretch. -/
theorem exists_statistics (hcycles : Consecutive cycles) (hne : cycles ≠ []) {sampleRate : ℝ}
    (hrate : 0 < sampleRate) {quotients : Set ℝ} (hconvex : Convex ℝ quotients)
    (hfraction : ∀ cycle ∈ cycles, cycle.openFraction ∈ quotients) {shortest : Nat}
    (hshortest : 0 < shortest) (hperiod : ∀ cycle ∈ cycles, shortest ≤ cycle.period) :
    ∃ quotient ∈ quotients, ∃ f0 ∈ Set.Icc (evenRate sampleRate cycles hne) (sampleRate / shortest),
      openQuotient cycles = .ok quotient ∧ meanF0 cycles sampleRate = .ok f0 :=
  ⟨_, mean_openFraction_mem hconvex hne hfraction, _,
    ⟨hcycles.evenRate_le_mean hne hrate, mean_rate_le hrate hne hshortest hperiod⟩,
    openQuotient_eq_ok hne hcycles.period_pos, meanF0_eq_ok hrate hne hcycles.period_pos⟩

end Consecutive

theorem openFraction_eq (cycle : GlottalCycle) (hforward : cycle.closure < cycle.nextClosure) :
    cycle.openFraction = ((cycle.nextClosure : ℝ) - (cycle.opening : ℝ)) /
      ((cycle.nextClosure : ℝ) - (cycle.closure : ℝ)) := by
  rw [openFraction, period, Nat.cast_sub hforward.le]

/-- The glottis is open during part of a cycle if it opens before the end of it. -/
theorem openFraction_mem_Ioc {cycle : GlottalCycle} (hopening : cycle.closure ≤ cycle.opening)
    (hclosure : cycle.opening < cycle.nextClosure) : cycle.openFraction ∈ Set.Ioc 0 1 := by
  have hstart : (cycle.closure : ℝ) ≤ cycle.opening := Nat.cast_le.mpr hopening
  have hend : (cycle.opening : ℝ) < cycle.nextClosure := Nat.cast_lt.mpr hclosure
  rw [openFraction_eq cycle (hopening.trans_lt hclosure)]
  exact ⟨div_pos (by linarith) (by linarith), (div_le_one (by linarith)).mpr (by linarith)⟩

theorem openFraction_mem_Ioo {cycle : GlottalCycle} (hopening : cycle.closure < cycle.opening)
    (hclosure : cycle.opening < cycle.nextClosure) : cycle.openFraction ∈ Set.Ioo 0 1 := by
  have hstart : (cycle.closure : ℝ) < cycle.opening := Nat.cast_lt.mpr hopening
  refine ⟨(openFraction_mem_Ioc hopening.le hclosure).1, ?_⟩
  have hend : (cycle.opening : ℝ) < cycle.nextClosure := Nat.cast_lt.mpr hclosure
  rw [openFraction_eq cycle (hopening.trans hclosure)]
  exact (div_lt_one (by linarith)).mpr (by linarith)

end GlottalCycle

open GlottalCycle

/-! ## The cycles of the detectors -/

namespace Sedreams

/-- The opening of a pair of closures lies strictly between them. -/
theorem between_of_mem_pairInstants {openings closures : List Nat}
    (hsorted : closures.Pairwise (· < ·)) {cycle : GlottalCycle}
    (hcycle : cycle ∈ pairInstants openings closures) :
    cycle.closure < cycle.opening ∧ cycle.opening < cycle.nextClosure := by
  have hfound := List.find?_some ((mem_pairInstants_iff openings hsorted cycle).mp hcycle).2
  rwa [Bool.and_eq_true, decide_eq_true_iff, decide_eq_true_iff] at hfound

theorem consecutive_pairInstants (openings : List Nat) {closures : List Nat}
    (hsorted : closures.Pairwise (· < ·)) : Consecutive (pairInstants openings closures) where
  forward _ hcycle :=
    have hbetween := between_of_mem_pairInstants hsorted hcycle
    hbetween.1.trans hbetween.2
  disjoint := (pairwise_pairInstants openings hsorted).isChain

/-- The statistics of the cycles that are found in the residual and the mean-based signal. -/
theorem exists_statistics {config : SedreamsConfig ℝ} {signal : Signal ℝ} {sampleRate f0 : ℝ}
    {cycles : List GlottalCycle} (hcycles : detect config signal sampleRate f0 = .ok cycles)
    (hne : cycles ≠ []) :
    ∃ quotient ∈ Set.Ioo (0 : ℝ) 1,
      ∃ mean ∈ Set.Icc (evenRate sampleRate cycles hne) (sampleRate / 2),
        openQuotient cycles = .ok quotient ∧ meanF0 cycles sampleRate = .ok mean := by
  have hrate : 0 < sampleRate := by
    rw [detect, require_bind_eq_ok_iff, Scalar.isPositive_real_iff] at hcycles
    exact hcycles.1
  rcases detect_eq_ok hcycles with ⟨_, hempty⟩ | ⟨_, _, _, hpaired⟩
  · exact absurd hempty hne
  · obtain ⟨openings, closures, hsorted, rfl⟩ : ∃ openings closures,
        closures.Pairwise (· < ·) ∧ cycles = pairInstants openings closures :=
      ⟨_, _, pairwise_sortedDistinct _, hpaired⟩
    have hbetween : ∀ cycle ∈ pairInstants openings closures,
        cycle.closure < cycle.opening ∧ cycle.opening < cycle.nextClosure :=
      fun _ hcycle => between_of_mem_pairInstants hsorted hcycle
    -- an index lies strictly between the two closures
    have hperiod : ∀ cycle ∈ pairInstants openings closures, 2 ≤ cycle.period := by
      intro cycle hcycle
      have := hbetween cycle hcycle
      rw [period]
      omega
    have hstatistics := (consecutive_pairInstants openings hsorted).exists_statistics hne hrate
      (convex_Ioo 0 1) (fun cycle hcycle =>
        openFraction_mem_Ioo (hbetween cycle hcycle).1 (hbetween cycle hcycle).2) two_pos hperiod
    rwa [Nat.cast_ofNat] at hstatistics

end Sedreams

namespace MultiProduct

/-- The statistics of the cycles that are found in the multi-scale product. -/
theorem exists_statistics {detector : Detector} {signal : Signal ℝ} {sampleRate : ℝ}
    {found : List GlottalCycle} (hfound : detector.detect signal sampleRate = .ok found)
    (hsize : signal.size ≤ maxIndex) (hne : found ≠ []) :
    ∃ quotient ∈ Set.Ioc (0 : ℝ) 1,
      ∃ mean ∈ Set.Icc (evenRate sampleRate found hne) sampleRate,
        openQuotient found = .ok quotient ∧ meanF0 found sampleRate = .ok mean := by
  rw [Detector.detect, require_bind_eq_ok_iff, require_bind_eq_ok_iff, pure_eq_ok_iff,
    Scalar.isPositive_real_iff] at hfound
  obtain ⟨hrate, _, rfl⟩ := hfound
  generalize hproduct : multiScaleProduct signal detector.levels = product at hne
  have hsorted : (closures product).Pairwise (· < ·) := Extremum.pairwise_find _ _
  have hcycle : ∀ cycle ∈ cycles product (closures product),
      cycle.closure ≤ cycle.opening ∧ cycle.opening < cycle.nextClosure := by
    intro found hfound
    obtain ⟨closure, _, nextClosure, hnext, hlt, rfl⟩ := exists_of_mem_cycles hsorted hfound
    have hlast : nextClosure + 1 < usedLength detector.levels signal.size := by
      have := Extremum.succ_lt_size_of_mem_find hnext
      rwa [Array.size_map, ← hproduct, size_multiScaleProduct] at this
    have hused := usedLength_le detector.levels signal.size
    exact cycle_wellFormed hnext hlt (by omega)
  have hconsecutive : Consecutive (cycles product (closures product)) :=
    ⟨fun cycle hmem => (hcycle cycle hmem).1.trans_lt (hcycle cycle hmem).2,
      (isChain_cycles _ _).imp fun _ _ hends => hends.le⟩
  have hstatistics := hconsecutive.exists_statistics hne hrate (convex_Ioc 0 1)
    (fun cycle hmem => openFraction_mem_Ioc (hcycle cycle hmem).1 (hcycle cycle hmem).2) one_pos
    hconsecutive.period_pos
  rwa [Nat.cast_one, div_one] at hstatistics

end MultiProduct

/-! ## Reports -/

namespace CommandLine

/-- Detection by either method finds no cycle, or cycles that have both statistics. -/
theorem exists_statistics_of_detect {invocation : Invocation ℝ} {config : Config ℝ}
    {recording : Recording ℝ} {found : List GlottalCycle} {f0 : Option ℝ} {levels : Option Nat}
    (hdetect : detect invocation config recording = .ok (found, f0, levels))
    (hsize : recording.samples.size ≤ maxIndex) (hne : found ≠ []) :
    ∃ quotient mean : ℝ, openQuotient found = .ok quotient ∧
      meanF0 found (recording.sampleRate : ℝ) = .ok mean := by
  rw [detect] at hdetect
  cases hmethod : invocation.method with
  | sedreams =>
      simp only [hmethod, bind_eq_ok_iff, pure_eq_ok_iff, Prod.mk.injEq] at hdetect
      obtain ⟨cycles, hcycles, rfl, _⟩ := hdetect
      obtain ⟨quotient, _, mean, _, hstatistics⟩ := Sedreams.exists_statistics hcycles hne
      exact ⟨quotient, mean, hstatistics⟩
  | multiProduct =>
      simp only [hmethod, bind_eq_ok_iff, pure_eq_ok_iff, Prod.mk.injEq] at hdetect
      obtain ⟨detector, _, cycles, hcycles, rfl, _⟩ := hdetect
      obtain ⟨quotient, _, mean, _, hstatistics⟩ :=
        MultiProduct.exists_statistics hcycles hsize hne
      exact ⟨quotient, mean, hstatistics⟩

/-- After detection a report is given, with both statistics unless no cycle was found. -/
theorem exists_report_of_detect {invocation : Invocation ℝ} {config : Config ℝ}
    {recording : Recording ℝ} {found : List GlottalCycle} {f0 : Option ℝ} {levels : Option Nat}
    (hdetect : detect invocation config recording = .ok (found, f0, levels))
    (hsize : recording.samples.size ≤ maxIndex) :
    ∃ report, analyze invocation config recording = .ok report ∧ report.cycles = found ∧
      (report.openQuotient = none ↔ found = []) ∧ (report.meanF0 = none ↔ found = []) := by
  by_cases hempty : found = []
  · subst hempty
    refine ⟨⟨recording.sampleRate, recording.samples.size, invocation.method, f0, levels, [],
      none, none⟩, ?_, rfl, by simp, by simp⟩
    rw [analyze, hdetect]
    rfl
  · obtain ⟨quotient, mean, hquotient, hmean⟩ := exists_statistics_of_detect hdetect hsize hempty
    refine ⟨⟨recording.sampleRate, recording.samples.size, invocation.method, f0, levels, found,
      some quotient, some mean⟩, ?_, rfl, by simpa using hempty, by simpa using hempty⟩
    have hsome : ¬ found.isEmpty = true := by simpa using hempty
    rw [analyze, hdetect]
    change (if found.isEmpty = true then pure _ else
      (openQuotient found).mapError _ >>= fun quotient =>
        (meanF0 found _).mapError _ >>= fun mean => _) = _
    rw [if_neg hsome, hquotient, hmean]
    rfl

end CommandLine

/-! ## All statistics -/

/-- The statistics of cycles that were found exist, so that nothing fails after detection.  The
open quotient is a proper fraction, or at most one for cycles from the multi-scale product; the
mean F0 is at least the rate of as many equal cycles, and at most half the sample rate, or the
sample rate for cycles from the multi-scale product.  A report lacks the two exactly if no
cycle was found. -/
theorem statistics_of_detected_cycles :
    (∀ (config : SedreamsConfig ℝ) (signal : Signal ℝ) (sampleRate f0 : ℝ)
        (cycles : List GlottalCycle) (hne : cycles ≠ []),
      Sedreams.detect config signal sampleRate f0 = .ok cycles →
        ∃ quotient ∈ Set.Ioo (0 : ℝ) 1,
          ∃ mean ∈ Set.Icc (evenRate sampleRate cycles hne) (sampleRate / 2),
            openQuotient cycles = .ok quotient ∧ meanF0 cycles sampleRate = .ok mean) ∧
      (∀ (detector : MultiProduct.Detector) (signal : Signal ℝ) (sampleRate : ℝ)
          (cycles : List GlottalCycle) (hne : cycles ≠ []), signal.size ≤ maxIndex →
        detector.detect signal sampleRate = .ok cycles →
          ∃ quotient ∈ Set.Ioc (0 : ℝ) 1,
            ∃ mean ∈ Set.Icc (evenRate sampleRate cycles hne) sampleRate,
              openQuotient cycles = .ok quotient ∧ meanF0 cycles sampleRate = .ok mean) ∧
      ∀ (invocation : CommandLine.Invocation ℝ) (config : Config ℝ) (recording : Recording ℝ)
          (cycles : List GlottalCycle) (f0 : Option ℝ) (levels : Option Nat),
        recording.samples.size ≤ maxIndex →
        CommandLine.detect invocation config recording = .ok (cycles, f0, levels) →
          ∃ report, CommandLine.analyze invocation config recording = .ok report ∧
            report.cycles = cycles ∧ (report.openQuotient = none ↔ cycles = []) ∧
            (report.meanF0 = none ↔ cycles = []) :=
  ⟨fun _ _ _ _ _ hne hcycles => Sedreams.exists_statistics hcycles hne,
    fun _ _ _ _ hne hsize hcycles => MultiProduct.exists_statistics hcycles hsize hne,
    fun _ _ _ _ _ _ hsize hdetect => CommandLine.exists_report_of_detect hdetect hsize⟩

/-! ### Cycles of a ramp -/

namespace MultiProduct

noncomputable def ramp : Signal ℝ := .tabulate 64 fun index => (index : ℝ)

private theorem usedLength_ramp : usedLength 2 ramp.size = 64 := by
  rw [ramp, Signal.size_tabulate]
  rfl

private theorem sample_multiScaleProduct_ramp {index : Nat} (hindex : index < 64) :
    (multiScaleProduct ramp 2).sample index = 2 * ((index / 2 : Nat) : ℝ) + 1 / 2 := by
  have hsample : ∀ place < 64, ramp.sample place = (place : ℝ) := by
    intro place hplace
    rw [ramp, Signal.sample_tabulate, if_pos hplace]
  rw [sample_multiScaleProduct_two _ (by rwa [usedLength_ramp]), hsample _ (by omega),
    hsample _ (by omega)]
  norm_num

/-- Each step of the means ends with a closure. -/
theorem cycles_ramp_ne_nil :
    cycles (multiScaleProduct ramp 2) (closures (multiScaleProduct ramp 2)) ≠ [] := by
  have hclosure : ∀ index, index = 0 ∨ index = 2 →
      index + 1 ∈ closures (multiScaleProduct ramp 2) := by
    intro index hindex
    rw [succ_mem_closures_iff, size_multiScaleProduct, usedLength_ramp,
      sample_multiScaleProduct_ramp (by omega), sample_multiScaleProduct_ramp (by omega),
      sample_multiScaleProduct_ramp (by omega)]
    rcases hindex with rfl | rfl <;> norm_num
  have hfirst := hclosure 0 (.inl rfl)
  have hsecond := hclosure 2 (.inr rfl)
  intro hempty
  have hlength := congrArg List.length hempty
  rw [length_cycles, List.length_nil, Nat.sub_eq_zero_iff_le] at hlength
  obtain ⟨closure, hclosures⟩ := List.length_eq_one_iff.mp
    (le_antisymm hlength (List.length_pos_of_mem hfirst))
  rw [hclosures, List.mem_singleton] at hfirst hsecond
  omega

end MultiProduct

/-- Two dips make one cycle, a ramp makes at least one, and the report on the dips has both
statistics. -/
theorem statistics_of_detected_cycles_of_dips_and_ramp :
    (∃ quotient ∈ Set.Ioo (0 : ℝ) 1, openQuotient [⟨1, 2, 3⟩] = .ok quotient) ∧
      (∃ mean ≤ (16000 : ℝ), meanF0 (MultiProduct.cycles (MultiProduct.multiScaleProduct
        MultiProduct.ramp 2) (MultiProduct.closures (MultiProduct.multiScaleProduct
          MultiProduct.ramp 2))) (16000 : ℝ) = .ok mean) ∧
      ∃ report : CommandLine.Report ℝ,
        CommandLine.analyze ⟨"dips.wav", .sedreams, none, none, none, none, none⟩
          ⟨{ Sedreams.unfiltered with defaultF0 := 50 }, .standard, .standard⟩
          ⟨Sedreams.twoDips, 1000⟩ = .ok report ∧
        report.cycles = [⟨1, 2, 3⟩] ∧ report.openQuotient ≠ none := by
  obtain ⟨hsedreams, hmultiProduct, hreport⟩ := statistics_of_detected_cycles
  refine ⟨?_, ?_, ?_⟩
  · obtain ⟨quotient, hquotient, _, _, hopen, _⟩ := hsedreams Sedreams.unfiltered Sedreams.twoDips
      1000 50 [⟨1, 2, 3⟩] (List.cons_ne_nil _ _) Sedreams.detect_twoDips
    exact ⟨quotient, hquotient, hopen⟩
  · have hsize : MultiProduct.ramp.size ≤ maxIndex := by
      rw [MultiProduct.ramp, Signal.size_tabulate]
      decide
    have hdetect := MultiProduct.Detector.detect_eq ⟨2, by decide⟩
      ((Scalar.isPositive_real_iff 16000).mpr (by norm_num))
      (Signal.allFinite_real MultiProduct.ramp)
    obtain ⟨_, _, mean, hmean, _, hrate⟩ :=
      hmultiProduct _ _ _ _ MultiProduct.cycles_ramp_ne_nil hsize hdetect
    exact ⟨mean, hmean.2, hrate⟩
  · have hdetect : CommandLine.detect ⟨"dips.wav", .sedreams, none, none, none, none, none⟩
        ⟨{ Sedreams.unfiltered with defaultF0 := 50 }, .standard, .standard⟩
        ⟨Sedreams.twoDips, 1000⟩ = .ok ([⟨1, 2, 3⟩], some 50, none) := by
      have hcycles : Sedreams.detect { Sedreams.unfiltered with defaultF0 := 50 }
          Sedreams.twoDips ((1000 : Nat) : ℝ) 50 = .ok [⟨1, 2, 3⟩] := by
        rw [Nat.cast_ofNat]
        exact Sedreams.detect_twoDips
      change (Sedreams.detect _ _ _ _ >>= fun cycles => pure (cycles, some (50 : ℝ), none)) = _
      exact bind_eq_ok_iff.mpr ⟨_, hcycles, rfl⟩
    obtain ⟨report, hanalyze, hcycles, hopen, _⟩ := hreport _ _ _ _ _ _ (by decide) hdetect
    exact ⟨report, hanalyze, hcycles, mt hopen.mp (List.cons_ne_nil _ _)⟩

end Glottis
