import Mathlib
import Glottis.AnalysisError

/-!
# Checks in sequence

An analysis is a sequence of checks and of steps that may fail.  It succeeds
exactly if each of them does, and its result is that of the last one.
-/

namespace Glottis

variable {ε β γ : Type}

theorem bind_eq_ok_iff {step : Except ε β} {next : β → Except ε γ} {result : γ} :
    step >>= next = .ok result ↔ ∃ value, step = .ok value ∧ next value = .ok result := by
  cases step with
  | ok value =>
      change next value = .ok result ↔ _
      simp
  | error error =>
      change Except.error error = .ok result ↔ _
      simp

/-- A sequence of two steps fails in the first or in the second of them. -/
theorem bind_eq_error_iff {step : Except ε β} {next : β → Except ε γ} {error : ε} :
    step >>= next = .error error ↔
      step = .error error ∨ ∃ value, step = .ok value ∧ next value = .error error := by
  cases step with
  | ok value =>
      change next value = .error error ↔ _
      simp
  | error cause =>
      change Except.error cause = .error error ↔ _
      simp

theorem require_eq_ok_iff {condition : Bool} {error : ε} {result : Unit} :
    require condition error = .ok result ↔ condition = true := by
  cases condition <;> simp [require]

theorem pure_eq_ok_iff {value result : β} :
    (pure value : Except ε β) = .ok result ↔ value = result := by
  change Except.ok value = Except.ok result ↔ _
  rw [Except.ok.injEq]

/-- A check in front of a step lets the step run or fails. -/
theorem require_bind_eq_ok_iff {condition : Bool} {error : ε} {next : Unit → Except ε γ}
    {result : γ} :
    require condition error >>= next = .ok result ↔
      condition = true ∧ next () = .ok result := by
  rw [bind_eq_ok_iff]
  constructor
  · intro hbind
    obtain ⟨value, hvalue, hnext⟩ := hbind
    exact ⟨require_eq_ok_iff.mp hvalue, hnext⟩
  · intro hchecked
    exact ⟨(), require_eq_ok_iff.mpr hchecked.1, hchecked.2⟩

theorem require_bind_of {condition : Bool} (hcondition : condition = true) {error : ε}
    (next : Unit → Except ε γ) : require condition error >>= next = next () := by
  rw [hcondition]
  rfl

/-- A change of the error leaves what succeeds as it is. -/
theorem mapError_eq_ok_iff {ε' : Type} {step : Except ε β} {f : ε → ε'} {value : β} :
    step.mapError f = .ok value ↔ step = .ok value := by
  cases step with
  | ok other => simp [Except.mapError]
  | error cause => simp [Except.mapError]

theorem mapError_eq_error_iff {ε' : Type} {step : Except ε β} {f : ε → ε'} {error : ε'} :
    step.mapError f = .error error ↔ ∃ cause, step = .error cause ∧ f cause = error := by
  cases step with
  | ok value => simp [Except.mapError]
  | error cause => simp [Except.mapError]

/-! ## Leaving the index range -/

variable {α : Type}

/-- The outcome of a step that fails where an index leaves its range, and nowhere
else. -/
inductive Ranged (leaves : Prop) : Except (AnalysisError α) β → Prop where
  | inside (hinside : ¬ leaves) (value : β) : Ranged leaves (.ok value)
  | outside (houtside : leaves) : Ranged leaves (.error .indexOverflow)

namespace Ranged

variable {leaves later : Prop} {step : Except (AnalysisError α) β}

theorem eq_error_iff (hstep : Ranged leaves step) : step = .error .indexOverflow ↔ leaves := by
  cases hstep with
  | inside hinside value => simp [hinside]
  | outside houtside => simp [houtside]

theorem exists_eq_ok_iff (hstep : Ranged leaves step) :
    (∃ value, step = .ok value) ↔ ¬ leaves := by
  cases hstep with
  | inside hinside value => simp [hinside]
  | outside houtside => simp [houtside]

theorem congr (hstep : Ranged leaves step) (hiff : leaves ↔ later) : Ranged later step :=
  propext hiff ▸ hstep

theorem check {condition : Bool} :
    Ranged (condition = false) (require condition (.indexOverflow : AnalysisError α)) := by
  cases condition with
  | true => exact .inside (by simp) ()
  | false => exact .outside rfl

/-- Steps in sequence leave the range in the first or in the second of them. -/
theorem bind {next : β → Except (AnalysisError α) γ} (hstep : Ranged leaves step)
    (hnext : ∀ value, step = .ok value → Ranged later (next value)) :
    Ranged (leaves ∨ ¬ leaves ∧ later) (step >>= next) := by
  cases hstep with
  | inside hinside value =>
      exact (hnext value rfl).congr ⟨fun hlater => .inr ⟨hinside, hlater⟩,
        fun hleaves => (hleaves.resolve_left hinside).2⟩
  | outside houtside => exact .outside (.inl houtside)

end Ranged

end Glottis
