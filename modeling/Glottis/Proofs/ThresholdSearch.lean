import Mathlib
import Glottis.Proofs.Comparison
import Glottis.Sedreams

/-!
# The strongest sample above a threshold

An instant is searched in a window that starts at a turning point.  The search
returns the first of the largest samples above the threshold, or the start of the
window where no sample is above it.  A later window of the same span never leads
to an earlier instant, although the windows overlap and either of them may be cut
off at the end of the signal or fall back to its start.
-/

namespace Glottis.Sedreams

variable {α : Type} [Scalar α]

/-- The index `best` holds the first of the largest samples above a threshold
among the indices from `start` up to, but not including, `stop`. -/
structure IsStrongest (signal : Signal α) (threshold : α) (start stop best : Nat) : Prop where
  start_le : start ≤ best
  lt_stop : best < stop
  above : threshold < signal.sample best
  earlier_lt : ∀ index, start ≤ index → index < best → threshold < signal.sample index →
    signal.sample index < signal.sample best
  not_lt : ∀ index, start ≤ index → index < stop → threshold < signal.sample index →
    ¬ signal.sample best < signal.sample index

def NoneAbove (signal : Signal α) (threshold : α) (start stop : Nat) : Prop :=
  ∀ index, start ≤ index → index < stop → ¬ threshold < signal.sample index

/-- What the search has found when it has reached `stop`. -/
def Searched (signal : Signal α) (threshold : α) (start stop : Nat) : Option Nat → Prop
  | none => NoneAbove signal threshold start stop
  | some best => IsStrongest signal threshold start stop best

omit [Scalar α] in
theorem start_le_windowEnd {signal : Signal α} {start : Nat} (span : Nat)
    (hstart : start < signal.size) : start ≤ windowEnd signal start span := by
  rw [windowEnd]
  omega

omit [Scalar α] in
theorem windowEnd_mono (signal : Signal α) (span : Nat) {first second : Nat}
    (hle : first ≤ second) : windowEnd signal first span ≤ windowEnd signal second span := by
  rw [windowEnd, windowEnd]
  omega

/-- What holds of the indices searched so far and of the next one. -/
private theorem forall_searched {start stop : Nat} {holds : Nat → Prop}
    (hbefore : ∀ index, start ≤ index → index < stop → holds index) (hstop : holds stop) :
    ∀ index, start ≤ index → index < stop + 1 → holds index := by
  intro index hstart hindex
  cases Nat.lt_succ_iff_lt_or_eq.mp hindex with
  | inl hlt => exact hbefore index hstart hlt
  | inr heq => rwa [heq]

theorem NoneAbove.succ {signal : Signal α} {threshold : α} {start stop : Nat}
    (hnone : NoneAbove signal threshold start stop)
    (hstop : ¬ threshold < signal.sample stop) :
    NoneAbove signal threshold start (stop + 1) :=
  forall_searched hnone hstop

/-- A sample that is not larger leaves the strongest sample in place. -/
theorem IsStrongest.keep {signal : Signal α} {threshold : α} {start stop best : Nat}
    (hbest : IsStrongest signal threshold start stop best)
    (hstop : threshold < signal.sample stop → ¬ signal.sample best < signal.sample stop) :
    IsStrongest signal threshold start (stop + 1) best where
  start_le := hbest.start_le
  lt_stop := Nat.lt_succ_of_lt hbest.lt_stop
  above := hbest.above
  earlier_lt := hbest.earlier_lt
  not_lt := forall_searched hbest.not_lt hstop

variable [LawfulComparison α]

open LawfulComparison

/-- The first sample above the threshold is the strongest so far. -/
theorem NoneAbove.isStrongest {signal : Signal α} {threshold : α} {start stop : Nat}
    (hnone : NoneAbove signal threshold start stop) (hle : start ≤ stop)
    (habove : threshold < signal.sample stop) :
    IsStrongest signal threshold start (stop + 1) stop where
  start_le := hle
  lt_stop := Nat.lt_succ_self stop
  above := habove
  earlier_lt := fun index hstart hindex hindexAbove =>
    absurd hindexAbove (hnone index hstart hindex)
  not_lt := by
    apply forall_searched
    · intro index hstart hindex hindexAbove
      exact absurd hindexAbove (hnone index hstart hindex)
    · intro _
      exact lt_irrefl _

/-- A larger sample takes the place of the strongest sample. -/
theorem IsStrongest.replace {signal : Signal α} {threshold : α} {start stop best : Nat}
    (hbest : IsStrongest signal threshold start stop best)
    (habove : threshold < signal.sample stop)
    (hlarger : signal.sample best < signal.sample stop) :
    IsStrongest signal threshold start (stop + 1) stop := by
  have hbelow : ∀ index, start ≤ index → index < stop → threshold < signal.sample index →
      signal.sample index < signal.sample stop := by
    intro index hstart hindex hindexAbove
    cases lt_or_lt hindexAbove hlarger with
    | inl hlt => exact absurd hlt (hbest.not_lt index hstart hindex hindexAbove)
    | inr hlt => exact hlt
  refine ⟨hbest.start_le.trans hbest.lt_stop.le, Nat.lt_succ_self stop, habove, hbelow, ?_⟩
  apply forall_searched
  · intro index hstart hindex hindexAbove hlt
    exact lt_irrefl _ (lt_trans hlt (hbelow index hstart hindex hindexAbove))
  · intro _
    exact lt_irrefl _

/-- One step of the search extends what has been found by one index. -/
theorem Searched.stronger {signal : Signal α} {threshold : α} {start stop : Nat}
    {best : Option Nat} (hbest : Searched signal threshold start stop best)
    (hle : start ≤ stop) :
    Searched signal threshold start (stop + 1) (stronger signal threshold best stop) := by
  simp only [Sedreams.stronger]
  split
  case isFalse hstop =>
    cases best with
    | none => exact NoneAbove.succ hbest hstop
    | some best => exact IsStrongest.keep hbest fun habove => absurd habove hstop
  case isTrue habove =>
    cases best with
    | none => exact NoneAbove.isStrongest hbest hle habove
    | some best =>
        dsimp only
        split
        case isTrue hlarger => exact IsStrongest.replace hbest habove hlarger
        case isFalse hlarger => exact IsStrongest.keep hbest fun _ => hlarger

/-- The search over `count` indices finds the strongest of them. -/
theorem searched_foldl (signal : Signal α) (threshold : α) (start count : Nat) :
    Searched signal threshold start (start + count)
      ((List.range' start count).foldl (stronger signal threshold) none) := by
  induction count with
  | zero =>
      intro index hstart hindex
      omega
  | succ count ih =>
      rw [List.range'_1_concat, List.foldl_append]
      exact ih.stronger (Nat.le_add_right start count)

/-- The search returns the strongest sample of its window, or the start of the
window where no sample exceeds the threshold. -/
theorem strongestAbove_spec (signal : Signal α) {start : Nat} (span : Nat) (threshold : α)
    (hstart : start < signal.size) :
    IsStrongest signal threshold start (windowEnd signal start span + 1)
        (strongestAbove signal start span threshold) ∨
      (NoneAbove signal threshold start (windowEnd signal start span + 1) ∧
        strongestAbove signal start span threshold = start) := by
  have hend := start_le_windowEnd span hstart
  have hstop : start + (windowEnd signal start span + 1 - start) =
      windowEnd signal start span + 1 := by omega
  have hsearched := searched_foldl signal threshold start
    (windowEnd signal start span + 1 - start)
  rw [hstop] at hsearched
  rw [strongestAbove]
  cases hbest : (List.range' start (windowEnd signal start span + 1 - start)).foldl
      (stronger signal threshold) none with
  | none =>
      rw [hbest] at hsearched
      exact .inr ⟨hsearched, rfl⟩
  | some best =>
      rw [hbest] at hsearched
      exact .inl hsearched

/-- The search stays within its window. -/
theorem strongestAbove_mem_window (signal : Signal α) {start : Nat} (span : Nat)
    (threshold : α) (hstart : start < signal.size) :
    start ≤ strongestAbove signal start span threshold ∧
      strongestAbove signal start span threshold ≤ windowEnd signal start span := by
  cases strongestAbove_spec signal span threshold hstart with
  | inl hstrongest => exact ⟨hstrongest.start_le, Nat.lt_succ_iff.mp hstrongest.lt_stop⟩
  | inr hnone =>
      rw [hnone.2]
      exact ⟨le_rfl, start_le_windowEnd span hstart⟩

theorem strongestAbove_lt_size (signal : Signal α) {start : Nat} (span : Nat)
    (threshold : α) (hstart : start < signal.size) :
    strongestAbove signal start span threshold < signal.size := by
  have hmem := (strongestAbove_mem_window signal span threshold hstart).2
  rw [windowEnd] at hmem
  omega

/-- A later window does not lead to an earlier instant.  If it did, both instants
would lie in both windows: the earlier window would rank its own one strictly
higher, the later window would not. -/
theorem strongestAbove_mono (signal : Signal α) (span : Nat) (threshold : α)
    {first second : Nat} (hle : first ≤ second) (hsecond : second < signal.size) :
    strongestAbove signal first span threshold ≤
      strongestAbove signal second span threshold := by
  by_contra hlt
  rw [not_le] at hlt
  have hfirst : first < signal.size := hle.trans_lt hsecond
  have hends := windowEnd_mono signal span hle
  have hlater := (strongestAbove_mem_window signal span threshold hsecond).1
  cases strongestAbove_spec signal span threshold hfirst with
  | inr hnone =>
      rw [hnone.2] at hlt
      omega
  | inl hearly =>
      have hstop : strongestAbove signal first span threshold <
          windowEnd signal second span + 1 :=
        hearly.lt_stop.trans_le (Nat.succ_le_succ hends)
      have hboth : second ≤ strongestAbove signal first span threshold := hlater.trans hlt.le
      cases strongestAbove_spec signal span threshold hsecond with
      | inl hlate =>
          have hless := hearly.earlier_lt _ (hle.trans hlater) hlt hlate.above
          exact hlate.not_lt _ hboth hstop hearly.above hless
      | inr hnone => exact hnone.1 _ hboth hstop hearly.above

end Glottis.Sedreams
