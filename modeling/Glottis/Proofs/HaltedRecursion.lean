import Mathlib
import Glottis.Proofs.NormalEquations
import Glottis.Proofs.WhitenedFrames

/-!
# Recursions that end early

On a sequence that is no autocorrelation the recursion of Levinson and Durbin can meet a
stage that leaves no positive error power.  It ends there, after the stage has been added
to the polynomial: only the newest coefficient is reset.  The coefficients between the
first and the newest keep what the failing stage added to them, so the polynomial is that
of the last complete stage only where nothing could be added, which means that all of its
coefficients but the first are zero.
-/

namespace Glottis.LinearPrediction

noncomputable def nextReflection (correlation : Signal ℝ) (predictor : Predictor ℝ)
    (order : Nat) : ℝ :=
  -mismatch correlation predictor.polynomial (order + 1) / predictor.gain

/-- A recursion that ended in the stage behind an order, beside the predictor of that
order. -/
structure HaltsBehind (correlation : Signal ℝ) (order : Nat) (last halted : Predictor ℝ) :
    Prop where
  solves : SolvesNormalEquations correlation.sample last.polynomial.sample order last.gain
  gain_pos : 0 < last.gain
  last_reached : last.orderReached = order
  halted_reached : halted.orderReached = order
  halted_gain : halted.gain =
    last.gain * (1 - nextReflection correlation last order ^ 2)
  exhausted : halted.gain ≤ 0
  sample_eq : ∀ index, halted.polynomial.sample index =
    if 1 ≤ index ∧ index ≤ order then
      last.polynomial.sample index +
        nextReflection correlation last order * last.polynomial.sample (order + 1 - index)
    else last.polynomial.sample index

variable {correlation polynomial other : Signal ℝ} {gain : ℝ} {reached remaining stages : Nat}

/-- A failing stage has changed the coefficients between the first and the newest. -/
theorem sample_reflect_zero (reflection : ℝ) (hsize : reached + 1 < polynomial.size)
    (hbeyond : ∀ index, reached < index → polynomial.sample index = 0) (index : Nat) :
    (reflect polynomial (reached + 1) reflection 0).sample index =
      if 1 ≤ index ∧ index ≤ reached then
        polynomial.sample index + reflection * polynomial.sample (reached + 1 - index)
      else polynomial.sample index := by
  rw [reflect, Signal.sample_tabulate]
  by_cases hinner : 1 ≤ index ∧ index ≤ reached
  · rw [if_pos (by omega), if_pos (by omega), if_pos hinner]
  by_cases hnewest : index = reached + 1
  · rw [if_pos (by omega), if_neg (by omega), if_pos hnewest, if_neg hinner,
      hbeyond index (by omega)]
  · rw [if_neg (by omega : ¬(0 < index ∧ index < reached + 1)), if_neg hnewest, if_neg hinner]
    split
    case isTrue => rfl
    case isFalse houtside => rw [Signal.sample_of_size_le _ (not_lt.mp houtside)]

/-- One stage, where the correlation left at its lag is known. -/
theorem levinsonStages_succ {residue : ℝ}
    (hresidue : mismatch correlation polynomial (reached + 1) = residue) :
    levinsonStages correlation (remaining + 1) reached polynomial gain =
      if gain + -residue / gain * residue ≤ 0 then
        ⟨reflect polynomial (reached + 1) (-residue / gain) 0, gain + -residue / gain * residue,
          reached⟩
      else
        levinsonStages correlation remaining (reached + 1)
          (reflect polynomial (reached + 1) (-residue / gain) (-residue / gain))
          (gain + -residue / gain * residue) := by
  rw [levinsonStages, hresidue]

theorem le_orderReached (correlation : Signal ℝ) (remaining reached : Nat)
    (polynomial : Signal ℝ) (gain : ℝ) :
    reached ≤ (levinsonStages correlation remaining reached polynomial gain).orderReached := by
  induction remaining generalizing reached polynomial gain with
  | zero => exact le_rfl
  | succ remaining ih =>
      simp only [levinsonStages]
      split
      · exact le_rfl
      · exact (Nat.le_succ reached).trans (ih _ _ _)

/-- A stage that leaves no positive gain ends the recursion behind the predictor before it. -/
theorem haltsBehind_of_exhausted
    (hsolves : SolvesNormalEquations correlation.sample polynomial.sample reached gain)
    (hgain : 0 < gain) (hsize : reached + 1 < polynomial.size)
    (hsame : other.sample = polynomial.sample) {residue : ℝ}
    (hresidue : mismatch correlation polynomial (reached + 1) = residue)
    (hexhausted : gain + -residue / gain * residue ≤ 0) :
    HaltsBehind correlation reached ⟨other, gain, reached⟩
      ⟨reflect polynomial (reached + 1) (-residue / gain) 0, gain + -residue / gain * residue,
        reached⟩ := by
  have hnext : nextReflection correlation ⟨other, gain, reached⟩ reached = -residue / gain := by
    rw [nextReflection, ← hresidue, mismatch, mismatch, hsame]
  exact {
    solves := hsame ▸ hsolves
    gain_pos := hgain
    last_reached := rfl
    halted_reached := rfl
    halted_gain := by
      rw [hnext]
      field_simp
      ring
    exhausted := hexhausted
    sample_eq := by
      intro index
      rw [hnext, hsame]
      exact sample_reflect_zero _ hsize hsolves.beyond index }

/-- Two runs from the same coefficients, one over the stages that the other completes before
it ends, in vectors of any size. -/
theorem levinsonStages_haltsBehind
    (hsolves : SolvesNormalEquations correlation.sample polynomial.sample reached gain)
    (hgain : 0 < gain) (hsize : reached + remaining < polynomial.size)
    (hother : reached + stages < other.size) (hsame : other.sample = polynomial.sample)
    (hless : stages < remaining)
    (hreached : (levinsonStages correlation remaining reached polynomial gain).orderReached =
      reached + stages) :
    HaltsBehind correlation (reached + stages)
      (levinsonStages correlation stages reached other gain)
      (levinsonStages correlation remaining reached polynomial gain) := by
  induction stages generalizing remaining reached polynomial other gain with
  | zero =>
      obtain ⟨later, rfl⟩ : ∃ later, remaining = later + 1 := ⟨remaining - 1, by omega⟩
      generalize hresidue : mismatch correlation polynomial (reached + 1) = residue
      rw [levinsonStages_succ hresidue] at hreached ⊢
      split at hreached
      case isTrue hexhausted =>
        rw [if_pos hexhausted]
        exact haltsBehind_of_exhausted hsolves hgain (by omega) hsame hresidue hexhausted
      case isFalse =>
        have hfurther := le_orderReached correlation later (reached + 1)
          (reflect polynomial (reached + 1) (-residue / gain) (-residue / gain))
          (gain + -residue / gain * residue)
        omega
  | succ stages ih =>
      obtain ⟨later, rfl⟩ : ∃ later, remaining = later + 1 := ⟨remaining - 1, by omega⟩
      generalize hresidue : mismatch correlation polynomial (reached + 1) = residue
      have hmismatch : mismatch correlation other (reached + 1) = residue := by
        rw [← hresidue, mismatch, mismatch, hsame]
      rw [levinsonStages_succ hresidue] at hreached ⊢
      rw [levinsonStages_succ hmismatch]
      split at hreached
      case isTrue =>
        dsimp only at hreached
        omega
      case isFalse hpositive =>
        have hreflected : (reflect other (reached + 1) (-residue / gain)
            (-residue / gain)).sample =
            (reflect polynomial (reached + 1) (-residue / gain) (-residue / gain)).sample := by
          rw [sample_reflect _ (by omega) (hsame ▸ hsolves.leading) (hsame ▸ hsolves.beyond),
            sample_reflect _ (by omega) hsolves.leading hsolves.beyond, hsame]
        rw [if_neg hpositive, if_neg hpositive, ← Nat.add_assoc, Nat.add_right_comm]
        have hnext := hsolves.next (fun _ _ => rfl) (by omega) hgain.ne' hresidue rfl
        apply ih hnext (not_le.mp hpositive)
          (by rw [size_reflect]; omega) (by rw [size_reflect]; omega) hreflected (by omega)
        rw [hreached]
        omega

/-! ## The halted predictor and the last one -/

/-- A recursion that ends early ends behind the predictor of the order that it reached. -/
theorem levinson_haltsBehind (hpower : 0 < correlation.sample 0) {order : Nat}
    (hhalts : (levinson correlation order).orderReached < order) :
    HaltsBehind correlation (levinson correlation order).orderReached
      (levinson correlation (levinson correlation order).orderReached)
      (levinson correlation order) := by
  obtain ⟨stages, hstages⟩ : ∃ stages, (levinson correlation order).orderReached = stages :=
    ⟨_, rfl⟩
  rw [hstages] at hhalts ⊢
  rw [levinson_of_power_pos hpower order] at hstages
  rw [levinson_of_power_pos hpower order, levinson_of_power_pos hpower stages]
  have hsize : ∀ count, 0 + count < (Predictor.flat count : Predictor ℝ).polynomial.size := by
    intro count
    rw [Predictor.flat, Signal.size_tabulate]
    omega
  have hsame : (Predictor.flat stages : Predictor ℝ).polynomial.sample =
      (Predictor.flat order : Predictor ℝ).polynomial.sample := by
    funext index
    rw [sample_flat, sample_flat]
  have hstep := levinsonStages_haltsBehind (flat_solves_lags correlation.sample order) hpower
    (hsize order) (hsize stages) hsame hhalts (by rw [hstages, Nat.zero_add])
  rwa [Nat.zero_add] at hstep

/-- The failing stage reflects by at least one in magnitude. -/
theorem HaltsBehind.one_le_sq_reflection {last halted : Predictor ℝ} {order : Nat}
    (hhalts : HaltsBehind correlation order last halted) :
    1 ≤ nextReflection correlation last order ^ 2 := by
  have hexhausted := hhalts.exhausted
  rw [hhalts.halted_gain, mul_nonpos_iff_of_factor_pos hhalts.gain_pos] at hexhausted
  linarith

theorem HaltsBehind.sample_of_lt {last halted : Predictor ℝ} {order index : Nat}
    (hhalts : HaltsBehind correlation order last halted) (hindex : order < index) :
    halted.polynomial.sample index = 0 := by
  rw [hhalts.sample_eq, if_neg (by omega), hhalts.solves.beyond index hindex]

/-- The failing stage leaves no trace exactly if there is nothing that it could reflect. -/
theorem HaltsBehind.sample_eq_last_iff {last halted : Predictor ℝ} {order : Nat}
    (hhalts : HaltsBehind correlation order last halted) :
    (∀ index ≤ order, halted.polynomial.sample index = last.polynomial.sample index) ↔
      ∀ index, 1 ≤ index → index ≤ order → last.polynomial.sample index = 0 := by
  have hreflection : nextReflection correlation last order ≠ 0 := by
    intro hzero
    have hsquare := hhalts.one_le_sq_reflection
    rw [hzero] at hsquare
    norm_num at hsquare
  constructor
  · intro hsame index hpositive hindex
    -- the coefficient at the mirrored place has received a multiple of this one
    have hmirrored := hsame (order + 1 - index) (by omega)
    rw [hhalts.sample_eq, if_pos (by omega), Nat.sub_sub_self (by omega), add_eq_left] at hmirrored
    exact (mul_eq_zero.mp hmirrored).resolve_left hreflection
  · intro hzero index hindex
    rw [hhalts.sample_eq]
    split
    case isTrue hinner => rw [hzero (order + 1 - index) (by omega) (by omega), mul_zero, add_zero]
    case isFalse => rfl

/-- A recursion that ends early has solved the normal equations of the order that it
reached, and then added the failing stage, whose reflection has at least magnitude one, to
the coefficients between the first and the newest.  It returns no coefficient past the
order reached.  The coefficients up to there are those of the last complete stage exactly
if that stage has predicted nothing. -/
theorem halted_levinson_keeps_failing_stage (correlation : Signal ℝ) (order : Nat)
    (hpower : 0 < correlation.sample 0)
    (hhalts : (levinson correlation order).orderReached < order) :
    ∃ halted last, levinson correlation order = halted ∧
      levinson correlation halted.orderReached = last ∧
      last.orderReached = halted.orderReached ∧
      SolvesNormalEquations correlation.sample last.polynomial.sample halted.orderReached
        last.gain ∧
      1 ≤ nextReflection correlation last halted.orderReached ^ 2 ∧
      halted.gain =
        last.gain * (1 - nextReflection correlation last halted.orderReached ^ 2) ∧
      (∀ index, halted.polynomial.sample index =
        if 1 ≤ index ∧ index ≤ halted.orderReached then
          last.polynomial.sample index +
            nextReflection correlation last halted.orderReached *
              last.polynomial.sample (halted.orderReached + 1 - index)
        else last.polynomial.sample index) ∧
      (∀ index, halted.orderReached < index → halted.polynomial.sample index = 0) ∧
      ((∀ index ≤ halted.orderReached,
          halted.polynomial.sample index = last.polynomial.sample index) ↔
        ∀ index, 1 ≤ index → index ≤ halted.orderReached →
          last.polynomial.sample index = 0) := by
  have hbehind := levinson_haltsBehind hpower hhalts
  exact ⟨_, _, rfl, rfl, hbehind.last_reached, hbehind.solves, hbehind.one_le_sq_reflection,
    hbehind.halted_gain, hbehind.sample_eq, fun _ hindex => hbehind.sample_of_lt hindex,
    hbehind.sample_eq_last_iff⟩

/-! ## A sequence on which the second stage fails -/

/-- The autocorrelation of a sinusoid with six samples a period, up to lag two. -/
noncomputable def sinusoid : Signal ℝ := #[1 + 1, 1, -1]

private theorem sinusoid_power : 0 < sinusoid.sample 0 := by
  have hpower : sinusoid.sample 0 = 2 := one_add_one_eq_two
  rw [hpower]
  exact two_pos

/-- The first stage predicts half of a sample from the sample before it. -/
private theorem levinson_sinusoid_one :
    levinson sinusoid 1 = ⟨#[1, -1 / 2], 3 / 2, 1⟩ := by
  have hflat : (Predictor.flat 1 : Predictor ℝ).polynomial = #[1, 0] := by
    simp [Predictor.flat, Signal.tabulate, Array.ofFn_succ]
  have hresidue : mismatch sinusoid #[1, 0] (0 + 1) = 1 := by
    simp [mismatch, sumRange_eq_sum, sinusoid, Signal.sample]
  have hreflect : reflect (#[1, 0] : Signal ℝ) (0 + 1) (-1 / 2) (-1 / 2) = #[1, -1 / 2] := by
    simp [reflect, Signal.tabulate, Array.ofFn_succ, Signal.sample]
  have hpower : sinusoid.sample 0 = 2 := one_add_one_eq_two
  rw [levinson_of_power_pos sinusoid_power, hflat, levinsonStages_succ hresidue, hpower,
    if_neg (by norm_num), hreflect, levinsonStages]
  norm_num

/-- The second stage leaves no power: it predicts the sinusoid completely. -/
private theorem levinson_sinusoid_two :
    levinson sinusoid 2 = ⟨#[1, -1, 0], 0, 1⟩ := by
  have hflat : (Predictor.flat 2 : Predictor ℝ).polynomial = #[1, 0, 0] := by
    simp [Predictor.flat, Signal.tabulate, Array.ofFn_succ]
  have hfirst : mismatch sinusoid #[1, 0, 0] (0 + 1) = 1 := by
    simp [mismatch, sumRange_eq_sum, sinusoid, Signal.sample]
  have hreflect : reflect (#[1, 0, 0] : Signal ℝ) (0 + 1) (-1 / 2) (-1 / 2) =
      #[1, -1 / 2, 0] := by
    simp [reflect, Signal.tabulate, Array.ofFn_succ, Signal.sample]
  have hsecond : mismatch sinusoid #[1, -1 / 2, 0] (0 + 1 + 1) = -3 / 2 := by
    norm_num [mismatch, sumRange_eq_sum, sinusoid, Signal.sample, Finset.sum_range_succ]
  have hfailing : reflect (#[1, -1 / 2, 0] : Signal ℝ) (0 + 1 + 1) 1 0 = #[1, -1, 0] := by
    norm_num [reflect, Signal.tabulate, Array.ofFn_succ, Signal.sample]
  have hpower : sinusoid.sample 0 = 2 := one_add_one_eq_two
  rw [levinson_of_power_pos sinusoid_power, hflat, levinsonStages_succ hfirst, hpower,
    if_neg (by norm_num), hreflect, levinsonStages_succ hsecond, if_pos (by norm_num),
    show -(-3 / 2 : ℝ) / (2 + -1 / 2 * 1) = 1 by norm_num, hfailing]
  norm_num

/-- The order may be the first that leaves no power. -/
theorem halted_levinson_keeps_failing_stage_of_sinusoid :
    ∃ halted last : Predictor ℝ, levinson sinusoid 2 = halted ∧
      levinson sinusoid halted.orderReached = last ∧
      halted.polynomial.sample 1 =
        last.polynomial.sample 1 + nextReflection sinusoid last 1 * last.polynomial.sample 1 := by
  have hreached : (levinson sinusoid 2).orderReached = 1 := by rw [levinson_sinusoid_two]
  obtain ⟨halted, last, hhalted, hlast, _, _, _, _, hsample, _⟩ :=
    halted_levinson_keeps_failing_stage sinusoid 2 sinusoid_power (by rw [hreached]; decide)
  rw [hhalted] at hreached
  rw [hreached] at hsample
  exact ⟨halted, last, hhalted, hlast, hsample 1⟩

/-- On a sinusoid the second stage fails and leaves minus one where the first stage has left
minus one half. -/
theorem not_forall_halted_levinson_eq_last :
    ¬ ∀ (correlation : Signal ℝ) (order : Nat), 0 < correlation.sample 0 →
      (levinson correlation order).orderReached < order →
        (∀ index ≤ (levinson correlation order).orderReached,
          (levinson correlation order).polynomial.sample index =
            (levinson correlation
              (levinson correlation order).orderReached).polynomial.sample index) ∧
        ∀ index, (levinson correlation order).orderReached < index →
          (levinson correlation order).polynomial.sample index = 0 := by
  intro hall
  have hreached : (levinson sinusoid 2).orderReached = 1 := by rw [levinson_sinusoid_two]
  have hsame := (hall sinusoid 2 sinusoid_power (by rw [hreached]; decide)).1 1
    (by rw [hreached])
  rw [hreached, levinson_sinusoid_one, levinson_sinusoid_two] at hsame
  norm_num [Signal.sample] at hsame

end Glottis.LinearPrediction
