import Mathlib
import Glottis.Proofs.CycleStatistics

/-!
# Two reductions of one list of cycles

The open quotient and the mean F0 are taken by separate loops, one of which refuses a cycle
without an open fraction and the other a cycle without a period.  Both refuse the same lists and
stop at the same cycle.  On the lists that they accept they are means, so the order of the cycles
does not matter, and the mean of the rates is at least the rate of the mean period.
-/

namespace Glottis.GlottalCycle

variable {cycles : List GlottalCycle} {sampleRate : ℝ}

/-! ## The cycle at which a reduction stops -/

/-- All cycles run forward, or there is a first one that does not. -/
theorem forward_or_exists_first (cycles : List GlottalCycle) :
    (∀ cycle ∈ cycles, 0 < cycle.period) ∨
      ∃ before stalled after, cycles = before ++ stalled :: after ∧
        (∀ cycle ∈ before, 0 < cycle.period) ∧ stalled.period = 0 := by
  induction cycles with
  | nil => exact .inl fun _ hcycle => absurd hcycle List.not_mem_nil
  | cons first cycles ih =>
      cases Nat.eq_zero_or_pos first.period with
      | inl hstalled =>
          exact .inr ⟨[], first, cycles, rfl, fun _ hcycle => absurd hcycle List.not_mem_nil,
            hstalled⟩
      | inr hforward =>
          rcases ih with hrest | ⟨before, stalled, after, rfl, hbefore, hstalled⟩
          · exact .inl (List.forall_mem_cons.mpr ⟨hforward, hrest⟩)
          · exact .inr ⟨first :: before, stalled, after, rfl,
              List.forall_mem_cons.mpr ⟨hforward, hbefore⟩, hstalled⟩

section Stalled

variable {before after : List GlottalCycle} {stalled : GlottalCycle}

theorem addOpenFractions_eq_error (hbefore : ∀ cycle ∈ before, 0 < cycle.period)
    (hstalled : stalled.period = 0) (total : ℝ) :
    addOpenFractions (before ++ stalled :: after) total =
      .error (.openQuotientOfEmptyCycle stalled.closure) := by
  induction before generalizing total with
  | nil =>
      have hfraction : (stalled.openFraction? : Option ℝ) = none := if_pos hstalled
      rw [List.nil_append, addOpenFractions, hfraction]
  | cons cycle before ih =>
      obtain ⟨hcycle, hrest⟩ := List.forall_mem_cons.mp hbefore
      have hfraction : (cycle.openFraction? : Option ℝ) = some cycle.openFraction :=
        if_neg hcycle.ne'
      rw [List.cons_append, addOpenFractions, hfraction]
      exact ih hrest _

theorem addRates_eq_error (hbefore : ∀ cycle ∈ before, 0 < cycle.period)
    (hstalled : stalled.period = 0) (total : ℝ) :
    addRates sampleRate (before ++ stalled :: after) total =
      .error (.meanF0OfEmptyCycle stalled.closure) := by
  induction before generalizing total with
  | nil => rw [List.nil_append, addRates, if_neg (by omega)]
  | cons cycle before ih =>
      obtain ⟨hcycle, hrest⟩ := List.forall_mem_cons.mp hbefore
      rw [List.cons_append, addRates, if_pos hcycle]
      exact ih hrest _

theorem openQuotient_eq_error (hbefore : ∀ cycle ∈ before, 0 < cycle.period)
    (hstalled : stalled.period = 0) :
    (openQuotient (before ++ stalled :: after) : Except (AnalysisError ℝ) ℝ) =
      .error (.openQuotientOfEmptyCycle stalled.closure) := by
  rw [openQuotient, require_bind_of (by simp), addOpenFractions_eq_error hbefore hstalled]
  rfl

theorem meanF0_eq_error (hrate : 0 < sampleRate) (hbefore : ∀ cycle ∈ before, 0 < cycle.period)
    (hstalled : stalled.period = 0) :
    meanF0 (before ++ stalled :: after) sampleRate =
      .error (.meanF0OfEmptyCycle stalled.closure) := by
  rw [meanF0, require_bind_of ((Scalar.isPositive_real_iff _).mpr hrate),
    require_bind_of (by simp), addRates_eq_error hbefore hstalled]
  rfl

end Stalled

/-- The open quotient exists exactly for cycles that run forward. -/
theorem exists_openQuotient_eq_ok_iff (cycles : List GlottalCycle) :
    (∃ quotient : ℝ, openQuotient cycles = .ok quotient) ↔
      cycles ≠ [] ∧ ∀ cycle ∈ cycles, 0 < cycle.period := by
  constructor
  · rintro ⟨quotient, hquotient⟩
    rcases forward_or_exists_first cycles with hforward | ⟨before, stalled, after, rfl, hbefore,
      hstalled⟩
    · refine ⟨?_, hforward⟩
      rintro rfl
      cases hquotient
    · rw [openQuotient_eq_error hbefore hstalled] at hquotient
      cases hquotient
  · rintro ⟨hne, hforward⟩
    exact ⟨_, openQuotient_eq_ok hne hforward⟩

/-- The mean F0 exists for the same cycles. -/
theorem exists_meanF0_eq_ok_iff (hrate : 0 < sampleRate) (cycles : List GlottalCycle) :
    (∃ mean, meanF0 cycles sampleRate = .ok mean) ↔
      cycles ≠ [] ∧ ∀ cycle ∈ cycles, 0 < cycle.period := by
  constructor
  · rintro ⟨mean, hmean⟩
    rcases forward_or_exists_first cycles with hforward | ⟨before, stalled, after, rfl, hbefore,
      hstalled⟩
    · refine ⟨?_, hforward⟩
      rintro rfl
      rw [meanF0, require_bind_of ((Scalar.isPositive_real_iff _).mpr hrate)] at hmean
      cases hmean
    · rw [meanF0_eq_error hrate hbefore hstalled] at hmean
      cases hmean
  · rintro ⟨hne, hforward⟩
    exact ⟨_, meanF0_eq_ok hrate hne hforward⟩

/-- Where both reductions fail on some cycles, they stop at the same one. -/
theorem exists_first_of_eq_error (hrate : 0 < sampleRate) (hne : cycles ≠ [])
    {cause cause' : AnalysisError ℝ} (hquotient : openQuotient cycles = .error cause)
    (hmean : meanF0 cycles sampleRate = .error cause') :
    ∃ before stalled after, cycles = before ++ stalled :: after ∧
      (∀ cycle ∈ before, 0 < cycle.period) ∧ stalled.nextClosure ≤ stalled.closure ∧
      cause = .openQuotientOfEmptyCycle stalled.closure ∧
      cause' = .meanF0OfEmptyCycle stalled.closure := by
  rcases forward_or_exists_first cycles with hforward | ⟨before, stalled, after, rfl, hbefore,
    hstalled⟩
  · rw [openQuotient_eq_ok hne hforward] at hquotient
    cases hquotient
  · rw [openQuotient_eq_error hbefore hstalled] at hquotient
    rw [meanF0_eq_error hrate hbefore hstalled] at hmean
    exact ⟨before, stalled, after, rfl, hbefore, Nat.sub_eq_zero_iff_le.mp hstalled,
      (Except.error.inj hquotient).symm, (Except.error.inj hmean).symm⟩

/-! ## The mean of the rates and the mean period -/

/-- The squared distance of the periods from a centre, each in units of its period. -/
noncomputable def spread (cycles : List GlottalCycle) (centre : ℝ) : ℝ :=
  (cycles.map fun cycle => ((cycle.period : ℝ) - centre) ^ 2 / cycle.period).sum

theorem spread_eq (hforward : ∀ cycle ∈ cycles, 0 < cycle.period) (centre : ℝ) :
    spread cycles centre = ((cycles.map period).sum : ℕ) - 2 * cycles.length * centre +
      centre ^ 2 * (cycles.map (rate 1)).sum := by
  induction cycles with
  | nil => simp [spread]
  | cons cycle cycles ih =>
      obtain ⟨hcycle, hrest⟩ := List.forall_mem_cons.mp hforward
      have hperiod : (cycle.period : ℝ) ≠ 0 := Nat.cast_ne_zero.mpr hcycle.ne'
      have hstep : ((cycle.period : ℝ) - centre) ^ 2 / cycle.period =
          cycle.period - 2 * centre + centre ^ 2 * rate 1 cycle := by
        rw [rate]
        field_simp
        ring
      have hrests := ih hrest
      rw [spread] at hrests
      rw [spread, List.map_cons, List.sum_cons, hstep, hrests]
      simp only [List.map_cons, List.sum_cons, List.length_cons, Nat.cast_add, Nat.cast_one]
      ring

theorem spread_term_nonneg (cycle : GlottalCycle) (centre : ℝ) :
    0 ≤ ((cycle.period : ℝ) - centre) ^ 2 / cycle.period := by positivity

theorem spread_nonneg (cycles : List GlottalCycle) (centre : ℝ) : 0 ≤ spread cycles centre :=
  List.sum_nonneg (List.forall_mem_map.mpr fun cycle _ => spread_term_nonneg cycle centre)

/-- The periods spread nowhere exactly if all of them are at the centre. -/
theorem spread_eq_zero_iff (hforward : ∀ cycle ∈ cycles, 0 < cycle.period) (centre : ℝ) :
    spread cycles centre = 0 ↔ ∀ cycle ∈ cycles, (cycle.period : ℝ) = centre := by
  constructor
  · intro hzero cycle hcycle
    have hterm := List.all_zero_of_le_zero_le_of_sum_eq_zero
      (List.forall_mem_map.mpr fun cycle _ => spread_term_nonneg cycle centre) hzero
      (List.mem_map_of_mem hcycle)
    have hperiod : (cycle.period : ℝ) ≠ 0 := Nat.cast_ne_zero.mpr (hforward cycle hcycle).ne'
    rw [div_eq_zero_iff, or_iff_left hperiod, sq_eq_zero_iff, sub_eq_zero] at hterm
    exact hterm
  · intro hcentre
    apply List.sum_eq_zero
    refine List.forall_mem_map.mpr fun cycle hcycle => ?_
    rw [hcentre cycle hcycle, sub_self, zero_pow two_ne_zero, zero_div]

theorem sum_rate_eq (sampleRate : ℝ) (cycles : List GlottalCycle) :
    (cycles.map (rate sampleRate)).sum = sampleRate * (cycles.map (rate 1)).sum := by
  rw [← List.sum_map_mul_left]
  refine congrArg List.sum (List.map_congr_left fun cycle _ => ?_)
  rw [rate, rate, mul_one_div]

theorem sum_period_pos (hne : cycles ≠ []) (hforward : ∀ cycle ∈ cycles, 0 < cycle.period) :
    0 < (cycles.map period).sum :=
  List.sum_pos _ (List.forall_mem_map.mpr hforward) (mt List.map_eq_nil_iff.mp hne)

/-- By how much the mean of the rates exceeds the rate of the mean period. -/
theorem mean_mul_sum_period_sub (hne : cycles ≠ [])
    (hforward : ∀ cycle ∈ cycles, 0 < cycle.period) :
    (cycles.map (rate sampleRate)).sum / cycles.length * ((cycles.map period).sum : ℕ) -
        sampleRate * cycles.length =
      sampleRate * cycles.length / ((cycles.map period).sum : ℕ) *
        spread cycles (((cycles.map period).sum : ℕ) / cycles.length) := by
  have hlength : (cycles.length : ℝ) ≠ 0 :=
    Nat.cast_ne_zero.mpr (List.length_pos_iff.mpr hne).ne'
  have htotal : (((cycles.map period).sum : ℕ) : ℝ) ≠ 0 :=
    Nat.cast_ne_zero.mpr (sum_period_pos hne hforward).ne'
  rw [spread_eq hforward, sum_rate_eq]
  field_simp
  ring

theorem mul_length_le_mean_mul_sum_period (hrate : 0 < sampleRate) (hne : cycles ≠ [])
    (hforward : ∀ cycle ∈ cycles, 0 < cycle.period) :
    sampleRate * cycles.length ≤
      (cycles.map (rate sampleRate)).sum / cycles.length * ((cycles.map period).sum : ℕ) := by
  rw [← sub_nonneg, mean_mul_sum_period_sub hne hforward]
  exact mul_nonneg (by positivity) (spread_nonneg cycles _)

/-- Equal periods are all equal to their mean. -/
theorem period_eq_mean (hequal : ∀ cycle ∈ cycles, ∀ other ∈ cycles, cycle.period = other.period)
    {cycle : GlottalCycle} (hcycle : cycle ∈ cycles) :
    (cycle.period : ℝ) = ((cycles.map period).sum : ℕ) / cycles.length := by
  have hsum : (cycles.map period).sum = cycles.length • cycle.period := by
    rw [List.sum_eq_card_nsmul (cycles.map period) cycle.period
      (List.forall_mem_map.mpr fun other hother => hequal other hother cycle hcycle),
      List.length_map]
  have hlength : (cycles.length : ℝ) ≠ 0 :=
    Nat.cast_ne_zero.mpr (List.length_pos_of_mem hcycle).ne'
  rw [hsum, smul_eq_mul, Nat.cast_mul, mul_div_cancel_left₀ _ hlength]

/-- The mean of the rates is the rate of the mean period exactly for equal periods. -/
theorem mean_mul_sum_period_eq_iff (hrate : 0 < sampleRate) (hne : cycles ≠ [])
    (hforward : ∀ cycle ∈ cycles, 0 < cycle.period) :
    (cycles.map (rate sampleRate)).sum / cycles.length * ((cycles.map period).sum : ℕ) =
        sampleRate * cycles.length ↔
      ∀ cycle ∈ cycles, ∀ other ∈ cycles, cycle.period = other.period := by
  have hlength : (0 : ℝ) < cycles.length := Nat.cast_pos.mpr (List.length_pos_iff.mpr hne)
  have htotal : (0 : ℝ) < ((cycles.map period).sum : ℕ) :=
    Nat.cast_pos.mpr (sum_period_pos hne hforward)
  have hfactor : sampleRate * cycles.length / ((cycles.map period).sum : ℕ) ≠ 0 :=
    (div_pos (mul_pos hrate hlength) htotal).ne'
  rw [← sub_eq_zero, mean_mul_sum_period_sub hne hforward, mul_eq_zero, or_iff_right hfactor,
    spread_eq_zero_iff hforward]
  constructor
  · intro hcentre cycle hcycle other hother
    exact Nat.cast_injective ((hcentre cycle hcycle).trans (hcentre other hother).symm)
  · exact fun hequal cycle hcycle => period_eq_mean hequal hcycle

/-! ## Order and range -/

/-- Both reductions of cycles that run forward do not depend on the order of the cycles. -/
theorem reductions_eq_of_perm {reordered : List GlottalCycle} (hperm : reordered.Perm cycles)
    (hrate : 0 < sampleRate) (hne : cycles ≠ []) (hforward : ∀ cycle ∈ cycles, 0 < cycle.period) :
    (openQuotient reordered : Except (AnalysisError ℝ) ℝ) = openQuotient cycles ∧
      meanF0 reordered sampleRate = meanF0 cycles sampleRate := by
  have hne' : reordered ≠ [] := by
    rintro rfl
    exact hne hperm.nil_eq.symm
  have hforward' : ∀ cycle ∈ reordered, 0 < cycle.period := fun cycle hcycle =>
    hforward cycle (hperm.mem_iff.mp hcycle)
  rw [openQuotient_eq_ok hne' hforward', meanF0_eq_ok hrate hne' hforward',
    openQuotient_eq_ok hne hforward, meanF0_eq_ok hrate hne hforward, (hperm.map _).sum_eq,
    (hperm.map (rate sampleRate)).sum_eq, hperm.length_eq]
  exact ⟨rfl, rfl⟩

theorem openFraction_mem_Icc {cycle : GlottalCycle} (hforward : cycle.closure < cycle.nextClosure)
    (hopening : cycle.closure ≤ cycle.opening) (hclosure : cycle.opening ≤ cycle.nextClosure) :
    cycle.openFraction ∈ Set.Icc 0 1 := by
  have hlength : (cycle.closure : ℝ) < cycle.nextClosure := Nat.cast_lt.mpr hforward
  have hstart : (cycle.closure : ℝ) ≤ cycle.opening := Nat.cast_le.mpr hopening
  have hend : (cycle.opening : ℝ) ≤ cycle.nextClosure := Nat.cast_le.mpr hclosure
  rw [openFraction_eq cycle hforward]
  exact ⟨div_nonneg (by linarith) (by linarith), (div_le_one (by linarith)).mpr (by linarith)⟩

/-- Both reductions succeed on the same lists of cycles and stop at the same first cycle that does
not end after it starts.  On the others they do not depend on the order of the cycles, the mean F0
times the sum of the periods is at least the sample rate times the number of cycles, with equality
for equal periods only, and the open quotient of well-ordered cycles is a fraction. -/
theorem reductions_agree_and_bounded (cycles : List GlottalCycle) {sampleRate : ℝ}
    (hrate : 0 < sampleRate) :
    ((∃ quotient : ℝ, openQuotient cycles = .ok quotient) ↔
      cycles ≠ [] ∧ ∀ cycle ∈ cycles, cycle.closure < cycle.nextClosure) ∧
    ((∃ mean, meanF0 cycles sampleRate = .ok mean) ↔
      cycles ≠ [] ∧ ∀ cycle ∈ cycles, cycle.closure < cycle.nextClosure) ∧
    (∀ cause cause' : AnalysisError ℝ, cycles ≠ [] → openQuotient cycles = .error cause →
      meanF0 cycles sampleRate = .error cause' →
        ∃ before stalled after, cycles = before ++ stalled :: after ∧
          (∀ cycle ∈ before, cycle.closure < cycle.nextClosure) ∧
          stalled.nextClosure ≤ stalled.closure ∧
          cause = .openQuotientOfEmptyCycle stalled.closure ∧
          cause' = .meanF0OfEmptyCycle stalled.closure) ∧
    ∀ quotient mean : ℝ, openQuotient cycles = .ok quotient →
      meanF0 cycles sampleRate = .ok mean →
        (∀ reordered : List GlottalCycle, reordered.Perm cycles →
          openQuotient reordered = .ok quotient ∧ meanF0 reordered sampleRate = .ok mean) ∧
        sampleRate * cycles.length ≤ mean * ((cycles.map period).sum : ℕ) ∧
        (mean * ((cycles.map period).sum : ℕ) = sampleRate * cycles.length ↔
          ∀ cycle ∈ cycles, ∀ other ∈ cycles, cycle.period = other.period) ∧
        ((∀ cycle ∈ cycles, cycle.closure ≤ cycle.opening ∧ cycle.opening ≤ cycle.nextClosure) →
          quotient ∈ Set.Icc 0 1) := by
  simp only [← period_pos_iff]
  refine ⟨exists_openQuotient_eq_ok_iff cycles, exists_meanF0_eq_ok_iff hrate cycles,
    fun _ _ hne hquotient hmean => exists_first_of_eq_error hrate hne hquotient hmean, ?_⟩
  intro quotient mean hquotient hmean
  obtain ⟨hne, hforward⟩ := (exists_openQuotient_eq_ok_iff cycles).mp ⟨quotient, hquotient⟩
  obtain rfl := Except.ok.inj ((openQuotient_eq_ok hne hforward).symm.trans hquotient)
  obtain rfl := Except.ok.inj ((meanF0_eq_ok hrate hne hforward).symm.trans hmean)
  refine ⟨fun reordered hperm => ?_, mul_length_le_mean_mul_sum_period hrate hne hforward,
    mean_mul_sum_period_eq_iff hrate hne hforward, fun hordered => ?_⟩
  · rw [← hquotient, ← hmean]
    exact reductions_eq_of_perm hperm hrate hne hforward
  · refine mean_openFraction_mem (convex_Icc 0 1) hne fun cycle hcycle => ?_
    exact openFraction_mem_Icc ((period_pos_iff cycle).mp (hforward cycle hcycle))
      (hordered cycle hcycle).1 (hordered cycle hcycle).2

/-- Two cycles of different lengths: the mean F0 exceeds the rate of the mean period, and the
reversed list has the same open quotient. -/
theorem reductions_agree_and_bounded_of_two_cycles :
    (0 : ℝ) < 8 ∧ openQuotient [⟨0, 1, 2⟩, ⟨2, 3, 6⟩] = .ok (5 / 8 : ℝ) ∧
      meanF0 [⟨0, 1, 2⟩, ⟨2, 3, 6⟩] (8 : ℝ) = .ok 3 ∧
      openQuotient [⟨2, 3, 6⟩, ⟨0, 1, 2⟩] = .ok (5 / 8 : ℝ) ∧
      (8 : ℝ) * (2 : ℕ) ≤ 3 * (6 : ℕ) ∧ (5 / 8 : ℝ) ∈ Set.Icc 0 1 := by
  have hrate : (0 : ℝ) < 8 := by norm_num
  have hforward : ∀ cycle ∈ [(⟨0, 1, 2⟩ : GlottalCycle), ⟨2, 3, 6⟩], 0 < cycle.period := by decide
  have hquotient : openQuotient [⟨0, 1, 2⟩, ⟨2, 3, 6⟩] = .ok (5 / 8 : ℝ) := by
    rw [openQuotient_eq_ok (List.cons_ne_nil _ _) hforward]
    norm_num [openFraction, period]
  have hmean : meanF0 [⟨0, 1, 2⟩, ⟨2, 3, 6⟩] (8 : ℝ) = .ok 3 := by
    rw [meanF0_eq_ok hrate (List.cons_ne_nil _ _) hforward]
    norm_num [rate, period]
  obtain ⟨-, -, -, hmeans⟩ := reductions_agree_and_bounded [⟨0, 1, 2⟩, ⟨2, 3, 6⟩] hrate
  obtain ⟨hperm, hbound, -, hrange⟩ := hmeans (5 / 8) 3 hquotient hmean
  exact ⟨hrate, hquotient, hmean, (hperm _ (List.Perm.swap _ _ _)).1, hbound, hrange (by decide)⟩

/-- The square of the number of cycles is no bound: two equal cycles stay below it. -/
theorem not_forall_sq_length_le_mean_mul_sum_period :
    ¬ ∀ (cycles : List GlottalCycle) (sampleRate mean : ℝ), 0 < sampleRate →
      meanF0 cycles sampleRate = .ok mean →
        sampleRate * cycles.length * cycles.length ≤ mean * ((cycles.map period).sum : ℕ) := by
  intro hbound
  have hmean : meanF0 [⟨0, 1, 2⟩, ⟨2, 3, 4⟩] (1 : ℝ) = .ok (1 / 2) := by
    rw [meanF0_eq_ok one_pos (List.cons_ne_nil _ _) (by decide)]
    norm_num [rate, period]
  have htwo := hbound [⟨0, 1, 2⟩, ⟨2, 3, 4⟩] 1 (1 / 2) one_pos hmean
  norm_num [period] at htwo

end Glottis.GlottalCycle
