import Mathlib
import Glottis.FileSystem
import Glottis.Proofs.Checks

/-!
# Files that are written

Where a file can be created, what is written is what is read, and the file can be
replaced.  Directories on the way stay where they are, because the target of a path that
can be created is none of them.
-/

namespace Glottis.FileSystem

variable {fileSystem : FileSystem} {path : String} {contents : Bytes}

/-! ## Entries -/

theorem lookup_put_self (fileSystem : FileSystem) (path : String) (contents : Bytes) :
    (fileSystem.put path contents).entries.lookup (components path) = some (.file contents) :=
  List.lookup_cons_self

theorem lookup_put_of_ne {names : List String} (hnames : names ≠ components path) :
    (fileSystem.put path contents).entries.lookup names = fileSystem.entries.lookup names := by
  have hfilter (entries : List (List String × Node)) :
      (entries.filter fun entry => entry.1 != components path).lookup names =
        entries.lookup names := by
    induction entries with
    | nil => rfl
    | cons entry entries ih =>
        by_cases hentry : entry.1 = components path
        · have hother : (names == entry.1) = false := beq_false_of_ne (hentry ▸ hnames)
          rw [List.filter_cons_of_neg (by simp [hentry]), ih, List.lookup_cons, hother]
        · rw [List.filter_cons_of_pos (by simp [hentry]), List.lookup_cons, List.lookup_cons, ih]
  have hother : (names == components path) = false := beq_false_of_ne hnames
  rw [put]
  dsimp only
  rw [List.lookup_cons, hother, hfilter]

/-! ## Walking -/

theorem enter_put {directory : List String} {step : String}
    (henter : fileSystem.enter directory step = .ok .directory)
    (htarget : fileSystem.entries.lookup (components path) ≠ some .directory) :
    (fileSystem.put path contents).enter directory step = .ok .directory := by
  rw [enter] at henter ⊢
  split
  case isTrue => rfl
  case isFalse hname =>
    rw [if_neg hname] at henter
    split
    case isTrue hlong =>
      rw [if_pos hlong] at henter
      cases henter
    case isFalse hlong =>
      rw [if_neg hlong] at henter
      have hentry : fileSystem.entries.lookup (directory ++ [step]) = some .directory := by
        revert henter
        cases fileSystem.entries.lookup (directory ++ [step]) with
        | none => exact fun henter => nomatch henter
        | some node => exact fun henter => congrArg some (Except.ok.inj henter)
      have hother : directory ++ [step] ≠ components path := fun heq => htarget (heq ▸ hentry)
      rw [lookup_put_of_ne hother, hentry]

theorem walk_cons_eq_directory_iff {directory rest : List String} {step : String} :
    fileSystem.walk directory (step :: rest) = .ok .directory ↔
      fileSystem.enter directory step = .ok .directory ∧
        fileSystem.walk (follow directory step) rest = .ok .directory := by
  rw [walk]
  rcases fileSystem.enter directory step with error | stored | _
  · simp
  · cases rest <;> simp
  · simp

theorem walk_put {directory steps : List String}
    (hwalk : fileSystem.walk directory steps = .ok .directory)
    (htarget : fileSystem.entries.lookup (components path) ≠ some .directory) :
    (fileSystem.put path contents).walk directory steps = .ok .directory := by
  induction steps generalizing directory with
  | nil => rfl
  | cons step rest ih =>
      obtain ⟨henter, hrest⟩ := walk_cons_eq_directory_iff.mp hwalk
      exact walk_cons_eq_directory_iff.mpr ⟨enter_put henter htarget, ih hrest⟩

theorem walk_append {directory before rest : List String}
    (hwalk : fileSystem.walk directory before = .ok .directory) :
    fileSystem.walk directory (before ++ rest) =
      fileSystem.walk (before.foldl follow directory) rest := by
  induction before generalizing directory with
  | nil => rfl
  | cons step before ih =>
      obtain ⟨henter, hbefore⟩ := walk_cons_eq_directory_iff.mp hwalk
      rw [List.cons_append, walk, henter]
      exact ih hbefore

/-! ## Targets -/

/-- The last step of a path at which a file can be created. -/
structure IsTarget (fileSystem : FileSystem) (before : List String) (last : String) : Prop where
  walk_before : fileSystem.walk [] before = .ok .directory
  ne_dots : ¬ (last = "." ∨ last = "..")
  short : ¬ maxNameLength < last.utf8ByteSize
  not_directory : fileSystem.entries.lookup (destination before ++ [last]) ≠ some .directory

theorem checkTarget_eq_ok_iff {before : List String} {last : String} :
    fileSystem.checkTarget before last = .ok () ↔ fileSystem.IsTarget before last := by
  have hchecked : fileSystem.IsTarget before last ↔
      fileSystem.walk [] before = .ok .directory ∧ ¬ (last = "." ∨ last = "..") ∧
        ¬ maxNameLength < last.utf8ByteSize ∧
        fileSystem.entries.lookup (destination before ++ [last]) ≠ some .directory :=
    ⟨fun h => ⟨h.1, h.2, h.3, h.4⟩, fun h => ⟨h.1, h.2.1, h.2.2.1, h.2.2.2⟩⟩
  rw [hchecked, checkTarget]
  rcases fileSystem.walk [] before with error | stored | _
  · simp
  · simp
  · dsimp only
    rw [enter]
    by_cases hdots : last = "." ∨ last = ".."
    · simp [hdots]
    · by_cases hlong : maxNameLength < last.utf8ByteSize
      · simp [hdots, hlong]
      · rcases fileSystem.entries.lookup (destination before ++ [last]) with _ | stored | _
        · simp [hdots, hlong]
        · simp [hdots, hlong]
        · simp [hdots, hlong]

/-- A path at which a file can be created is well spelled and leads to a target. -/
theorem exists_isTarget_of_checkCreate (hcreate : fileSystem.checkCreate path = .ok ()) :
    checkSpelling path = .ok () ∧ endsWithSlash path = false ∧
      ∃ before last, steps path = before ++ [last] ∧ fileSystem.IsTarget before last := by
  rw [checkCreate, bind_eq_ok_iff] at hcreate
  obtain ⟨_, hspelling, hcreate⟩ := hcreate
  refine ⟨hspelling, ?_⟩
  dsimp only at hcreate
  split at hcreate
  case isTrue =>
    split at hcreate <;> cases hcreate
  case isFalse hslash =>
    refine ⟨Bool.eq_false_of_not_eq_true hslash, ?_⟩
    cases hlast : (steps path).getLast? with
    | none =>
        rw [hlast] at hcreate
        cases hcreate
    | some last =>
        rw [hlast] at hcreate
        exact ⟨(steps path).dropLast, last,
          (List.dropLast_append_getLast? last hlast).symm, checkTarget_eq_ok_iff.mp hcreate⟩

theorem IsTarget.components_eq {before : List String} {last : String}
    (htarget : fileSystem.IsTarget before last) (hsteps : steps path = before ++ [last]) :
    components path = destination before ++ [last] := by
  rw [components, hsteps, destination, List.foldl_append]
  have hdots := not_or.mp htarget.ne_dots
  rw [List.foldl_cons, List.foldl_nil, follow, if_neg hdots.1, if_neg hdots.2]
  rfl

/-- A target stays one when it is written. -/
theorem IsTarget.put {before : List String} {last : String}
    (htarget : fileSystem.IsTarget before last) (hsteps : steps path = before ++ [last])
    (contents : Bytes) : (fileSystem.put path contents).IsTarget before last where
  walk_before := walk_put htarget.walk_before
    (htarget.components_eq hsteps ▸ htarget.not_directory)
  ne_dots := htarget.ne_dots
  short := htarget.short
  not_directory := by
    rw [← htarget.components_eq hsteps, lookup_put_self]
    simp

/-- What is written to a path is read from it. -/
theorem read_put (hcreate : fileSystem.checkCreate path = .ok ()) (contents : Bytes) :
    (fileSystem.put path contents).read path = .ok contents := by
  obtain ⟨hspelling, hslash, before, last, hsteps, htarget⟩ :=
    exists_isTarget_of_checkCreate hcreate
  have hput := htarget.put hsteps contents
  have henter : (fileSystem.put path contents).enter (destination before) last =
      .ok (.file contents) := by
    rw [enter, if_neg hput.ne_dots, if_neg hput.short, ← htarget.components_eq hsteps,
      lookup_put_self]
  have hwalk : (fileSystem.put path contents).walk [] (steps path) = .ok (.file contents) := by
    have hdestination : before.foldl follow [] = destination before := rfl
    rw [hsteps, walk_append hput.walk_before, hdestination, walk, henter]
    rfl
  have hresolve : (fileSystem.put path contents).resolve path = .ok (.file contents) := by
    rw [resolve, hspelling, hwalk, hslash]
    rfl
  rw [read, hresolve]

/-- A file that was written can be replaced. -/
theorem checkCreate_put (hcreate : fileSystem.checkCreate path = .ok ()) (contents : Bytes) :
    (fileSystem.put path contents).checkCreate path = .ok () := by
  obtain ⟨hspelling, hslash, before, last, hsteps, htarget⟩ :=
    exists_isTarget_of_checkCreate hcreate
  have hlast : (steps path).getLast? = some last := by rw [hsteps, List.getLast?_concat]
  have hbefore : (steps path).dropLast = before := by rw [hsteps, List.dropLast_concat]
  have hchecked := checkTarget_eq_ok_iff.mpr (htarget.put hsteps contents)
  rw [checkCreate, bind_eq_ok_iff]
  refine ⟨(), hspelling, ?_⟩
  dsimp only
  rw [hslash, if_neg Bool.false_ne_true, hlast, hbefore]
  exact hchecked

end Glottis.FileSystem
