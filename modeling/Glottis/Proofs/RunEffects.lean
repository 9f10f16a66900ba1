import Mathlib
import Glottis.CommandLine.Program
import Glottis.Proofs.AppendedSamples
import Glottis.Proofs.Checks
import Glottis.Proofs.Files
import Glottis.Proofs.IndexRange
import Glottis.Proofs.SavedRecordings

/-!
# What a run leaves behind

A run reads first and writes last.  The file of the glottal source is touched only once
every other step has succeeded, and a report is given only once that file has been written.
A recording that declares no sample rate gets as far as the detection, which refuses the
rate by either method before it looks at the signal, so that no such recording is written.
-/

namespace Glottis.CommandLine

variable {α : Type} [Scalar α] {fileSystem left : FileSystem} {invocation : Invocation α}
variable {config : Config α} {recording : Recording α} {report : Report α}
variable {path : String} {source : Signal α}

/-- Every step of an invocation up to its report has succeeded. -/
structure Analyzed (fileSystem : FileSystem) (invocation : Invocation α) (config : Config α)
    (recording : Recording α) (report : Report α) : Prop where
  validated : validate fileSystem invocation = .ok ()
  loaded : Config.load fileSystem invocation.configFile invocation.configJson = .ok config
  decoded : Wave.decode fileSystem invocation.input = .ok recording
  detected : detect invocation config recording =
    .ok (report.cycles, report.assumedF0, report.levels)
  analyzed : analyze invocation config recording = .ok report

/-- After the analysis the whole recording has been inverse filtered for a file that was
asked for. -/
structure SourceReady (fileSystem : FileSystem) (invocation : Invocation α) (config : Config α)
    (recording : Recording α) (report : Report α) (path : String) (source : Signal α) : Prop
    extends Analyzed fileSystem invocation config recording report where
  requested : invocation.sourceOut = some path
  filtered : InverseFilter.ofConfig recording.samples (recording.sampleRate : α)
    config.inverseFilter = .ok source

/-- What is written of a glottal source: the source with a unit peak, at the rate of the
recording. -/
def sourceFile (recording : Recording α) (source : Signal α) : Recording α :=
  ⟨source.normalize, recording.sampleRate⟩

/-! ## Steps that read -/

/-- A report has the cycles that were detected. -/
theorem detect_of_analyze (hanalyze : analyze invocation config recording = .ok report) :
    detect invocation config recording =
      .ok (report.cycles, report.assumedF0, report.levels) := by
  rw [analyze, bind_eq_ok_iff] at hanalyze
  obtain ⟨⟨cycles, assumedF0, levels⟩, hdetect, hstatistics⟩ := hanalyze
  rw [mapError_eq_ok_iff] at hdetect
  dsimp only at hstatistics
  split at hstatistics
  case isTrue =>
    rw [pure_eq_ok_iff] at hstatistics
    rw [← hstatistics, hdetect]
  case isFalse =>
    simp only [bind_eq_ok_iff, pure_eq_ok_iff] at hstatistics
    obtain ⟨quotient, -, mean, -, hreport⟩ := hstatistics
    rw [← hreport, hdetect]

theorem glottalSource_eq_ok_iff {output : Recording α} :
    glottalSource config recording = .ok output ↔
      ∃ source, InverseFilter.ofConfig recording.samples (recording.sampleRate : α)
        config.inverseFilter = .ok source ∧ sourceFile recording source = output := by
  simp only [glottalSource, bind_eq_ok_iff, mapError_eq_ok_iff, pure_eq_ok_iff, sourceFile]

/-- What is prepared is a report, and a file where one was asked for. -/
theorem prepare_eq_ok_iff {pending : Option (String × Recording α)} :
    prepare fileSystem invocation = .ok (report, pending) ↔
      ∃ config recording, Analyzed fileSystem invocation config recording report ∧
        (invocation.sourceOut = none ∧ pending = none ∨
          ∃ path source, SourceReady fileSystem invocation config recording report path source ∧
            pending = some (path, sourceFile recording source)) := by
  simp only [prepare, bind_eq_ok_iff, mapError_eq_ok_iff]
  constructor
  · rintro ⟨_, hvalidate, config, hload, recording, hdecode, found, hanalyze, hpending⟩
    cases hrequested : invocation.sourceOut with
    | none =>
        simp only [hrequested, pure_eq_ok_iff, Prod.mk.injEq] at hpending
        obtain ⟨rfl, rfl⟩ := hpending
        exact ⟨config, recording,
          ⟨hvalidate, hload, hdecode, detect_of_analyze hanalyze, hanalyze⟩, .inl ⟨rfl, rfl⟩⟩
    | some path =>
        simp only [hrequested, bind_eq_ok_iff, pure_eq_ok_iff, Prod.mk.injEq,
          glottalSource_eq_ok_iff] at hpending
        obtain ⟨_, ⟨source, hfiltered, rfl⟩, rfl, rfl⟩ := hpending
        have hanalyzed : Analyzed fileSystem invocation config recording found :=
          ⟨hvalidate, hload, hdecode, detect_of_analyze hanalyze, hanalyze⟩
        exact ⟨config, recording, hanalyzed,
          .inr ⟨path, source, ⟨hanalyzed, hrequested, hfiltered⟩, rfl⟩⟩
  · rintro ⟨config, recording, hanalyzed, hpending⟩
    refine ⟨(), hanalyzed.validated, config, hanalyzed.loaded, recording, hanalyzed.decoded,
      report, hanalyzed.analyzed, ?_⟩
    rcases hpending with ⟨hrequested, rfl⟩ | ⟨path, source, hready, rfl⟩
    · simp only [hrequested, pure_eq_ok_iff]
    · simp only [hready.requested, bind_eq_ok_iff, pure_eq_ok_iff, glottalSource_eq_ok_iff]
      exact ⟨_, ⟨source, hready.filtered, rfl⟩, rfl⟩

/-- A detection that fails ends the invocation. -/
theorem prepare_of_detect_error {cause : AnalysisError α}
    (hvalidate : validate fileSystem invocation = .ok ())
    (hload : Config.load fileSystem invocation.configFile invocation.configJson = .ok config)
    (hdecode : Wave.decode fileSystem invocation.input = .ok recording)
    (hdetect : detect invocation config recording = .error cause) :
    prepare fileSystem invocation = .error (.detection invocation.method cause) := by
  have hanalyze : analyze invocation config recording =
      .error (.detection invocation.method cause) := by
    rw [analyze, hdetect]
    rfl
  rw [prepare, hvalidate, hload, hdecode]
  change (analyze invocation config recording >>= _) = _
  rw [hanalyze]
  rfl

theorem analyze_ne_writing {cause : Wave.EncodeError} :
    analyze invocation config recording ≠ .error (.writing path cause) := by
  intro hanalyze
  rw [analyze, bind_eq_error_iff] at hanalyze
  rcases hanalyze with hdetect | ⟨⟨cycles, assumedF0, levels⟩, -, hstatistics⟩
  · obtain ⟨_, -, hfailure⟩ := mapError_eq_error_iff.mp hdetect
    cases hfailure
  · dsimp only at hstatistics
    split at hstatistics
    · cases hstatistics
    · simp only [bind_eq_error_iff, mapError_eq_error_iff] at hstatistics
      rcases hstatistics with ⟨_, -, hfailure⟩ | ⟨_, -, ⟨_, -, hfailure⟩ | ⟨_, -, hpure⟩⟩
      · cases hfailure
      · cases hfailure
      · cases hpure

/-- None of the steps that read fails as a step that writes. -/
theorem prepare_ne_writing {cause : Wave.EncodeError} :
    prepare fileSystem invocation ≠ .error (.writing path cause) := by
  intro hprepare
  simp only [prepare, bind_eq_error_iff, mapError_eq_error_iff] at hprepare
  rcases hprepare with ⟨_, -, hfailure⟩ | ⟨_, -, ⟨_, -, hfailure⟩ | ⟨_, -, ⟨_, -, hfailure⟩ |
    ⟨_, -, hanalyze | ⟨report, -, hpending⟩⟩⟩⟩
  · cases hfailure
  · cases hfailure
  · cases hfailure
  · exact analyze_ne_writing hanalyze
  · split at hpending
    · cases hpending
    · simp only [bind_eq_error_iff, glottalSource, mapError_eq_error_iff] at hpending
      rcases hpending with (⟨_, -, hfailure⟩ | ⟨_, -, hpure⟩) | ⟨_, -, hpure⟩
      · cases hfailure
      · cases hpure
      · cases hpure

/-! ## Steps that write -/

theorem execute_of_ready
    (hready : SourceReady fileSystem invocation config recording report path source) :
    execute fileSystem invocation =
      ((Wave.encode fileSystem path (sourceFile recording source)).1,
        match (Wave.encode fileSystem path (sourceFile recording source)).2 with
        | .ok () => .ok report
        | .error cause => .error (.writing path cause)) := by
  have hprepare : prepare fileSystem invocation =
      .ok (report, some (path, sourceFile recording source)) :=
    prepare_eq_ok_iff.mpr
      ⟨config, recording, hready.toAnalyzed, .inr ⟨path, source, hready, rfl⟩⟩
  rw [execute, hprepare]
  dsimp only
  rcases Wave.encode fileSystem path (sourceFile recording source) with ⟨written, cause | _⟩
  · rfl
  · rfl

/-- An invocation that leaves another file system had its source ready to be written. -/
theorem exists_ready_of_execute_ne (hleft : (execute fileSystem invocation).1 ≠ fileSystem) :
    ∃ config recording report path source,
      SourceReady fileSystem invocation config recording report path source := by
  revert hleft
  rw [execute]
  rcases hprepare : prepare fileSystem invocation with failure | ⟨report, _ | ⟨path, output⟩⟩
  · exact fun hleft => absurd rfl hleft
  · exact fun hleft => absurd rfl hleft
  · intro _
    obtain ⟨config, recording, -, hpending⟩ := prepare_eq_ok_iff.mp hprepare
    rcases hpending with ⟨_, hnone⟩ | ⟨requested, source, hready, _⟩
    · cases hnone
    · exact ⟨config, recording, report, requested, source, hready⟩

theorem lookup_encode_of_ne {names : List String} (hnames : names ≠ FileSystem.components path) :
    (Wave.encode fileSystem path recording).1.entries.lookup names =
      fileSystem.entries.lookup names := by
  rw [Wave.encode]
  split
  · rfl
  · split
    · exact FileSystem.lookup_put_of_ne hnames
    · exact FileSystem.lookup_put_of_ne hnames

/-- Writing stops at the byte rate exactly at a rate of zero or one of more than thirty-one
bits. -/
theorem rate_of_encode_eq_byteRateOutOfRange
    (hencode : (Wave.encode fileSystem path recording).2 = .error .byteRateOutOfRange) :
    recording.sampleRate = 0 ∨ 2 ^ 31 ≤ recording.sampleRate := by
  rw [Wave.encode] at hencode
  split at hencode
  · cases hencode
  · split at hencode
    case isTrue => cases hencode
    case isFalse hfits =>
      rw [Wave.byteRateFits, Bool.and_eq_true, decide_eq_true_iff, decide_eq_true_iff] at hfits
      omega

/-- A report is given exactly if every step has succeeded, the last of which is the writing
of a file that was asked for. -/
theorem execute_eq_ok_iff :
    (execute fileSystem invocation).2 = .ok report ↔
      ∃ config recording, Analyzed fileSystem invocation config recording report ∧
        ∀ path, invocation.sourceOut = some path → ∃ source,
          SourceReady fileSystem invocation config recording report path source ∧
            (Wave.encode fileSystem path (sourceFile recording source)).2 = .ok () := by
  constructor
  · intro hexecute
    rcases hprepare : prepare fileSystem invocation with failure | ⟨prepared, pending⟩
    · rw [execute, hprepare] at hexecute
      cases hexecute
    · obtain ⟨config, recording, hanalyzed, hpending⟩ := prepare_eq_ok_iff.mp hprepare
      rcases hpending with ⟨hnone, rfl⟩ | ⟨path, source, hready, -⟩
      · rw [execute, hprepare] at hexecute
        cases hexecute
        refine ⟨config, recording, hanalyzed, fun path hrequested => ?_⟩
        rw [hnone] at hrequested
        cases hrequested
      · rw [execute_of_ready hready] at hexecute
        rcases hencode : (Wave.encode fileSystem path (sourceFile recording source)).2
          with cause | _
        · rw [hencode] at hexecute
          cases hexecute
        · rw [hencode] at hexecute
          cases hexecute
          refine ⟨config, recording, hanalyzed, fun other hrequested => ?_⟩
          rw [hready.requested, Option.some.injEq] at hrequested
          subst hrequested
          exact ⟨source, hready, hencode⟩
  · rintro ⟨config, recording, hanalyzed, hwritten⟩
    cases hrequested : invocation.sourceOut with
    | none =>
        rw [execute, prepare_eq_ok_iff.mpr
          ⟨config, recording, hanalyzed, .inl ⟨hrequested, rfl⟩⟩]
    | some path =>
        obtain ⟨source, hready, hencode⟩ := hwritten path hrequested
        rw [execute_of_ready hready, hencode]

/-! ## Recordings without a sample rate -/

def levelsInUse {α : Type} (invocation : Invocation α) (config : Config α) : Nat :=
  invocation.levels.getD config.multiProduct.levels

/-- By either method the detection fails without a sample rate, whatever the samples are.
Only a number of levels out of range is refused before the rate. -/
theorem detect_without_rate (hzero : Scalar.isPositive ((0 : Nat) : α) = false)
    (invocation : Invocation α) (config : Config α) (samples : Signal α) :
    detect invocation config ⟨samples, 0⟩ = .error (.sampleRateNotPositive ((0 : Nat) : α)) ∨
      invocation.method = .multiProduct ∧
        ¬(1 ≤ levelsInUse invocation config ∧ levelsInUse invocation config ≤ maxLevels) ∧
        detect invocation config ⟨samples, 0⟩ =
          .error (.levelsOutOfRange maxLevels (levelsInUse invocation config)) := by
  rw [detect]
  cases invocation.method with
  | sedreams =>
      left
      dsimp only
      rw [Sedreams.detect, hzero]
      rfl
  | multiProduct =>
      dsimp only
      rw [← levelsInUse, MultiProduct.Detector.ofLevels]
      split
      case isTrue =>
        left
        change (MultiProduct.Detector.detect _ samples _ >>= _) = _
        rw [MultiProduct.Detector.detect, hzero]
        rfl
      case isFalse hlevels => exact .inr ⟨rfl, hlevels, rfl⟩

theorem SourceReady.rate_pos (hzero : Scalar.isPositive ((0 : Nat) : α) = false)
    (hready : SourceReady fileSystem invocation config recording report path source) :
    0 < recording.sampleRate := by
  obtain ⟨samples, sampleRate⟩ := recording
  apply Nat.pos_of_ne_zero
  rintro rfl
  have hdetected := hready.detected
  rcases detect_without_rate hzero invocation config samples with hrate | ⟨_, _, hlevels⟩
  · rw [hrate] at hdetected
    cases hdetected
  · rw [hlevels] at hdetected
    cases hdetected

/-- The writer stops at the byte rate only for a recording that declares a very high rate. -/
theorem exists_ready_of_execute_eq_byteRateOutOfRange
    (hzero : Scalar.isPositive ((0 : Nat) : α) = false)
    (hexecute : (execute fileSystem invocation).2 = .error (.writing path .byteRateOutOfRange)) :
    ∃ config recording report source,
      SourceReady fileSystem invocation config recording report path source ∧
        2 ^ 31 ≤ recording.sampleRate := by
  rcases hprepare : prepare fileSystem invocation with failure | ⟨report, pending⟩
  · rw [execute, hprepare] at hexecute
    cases hexecute
    exact absurd hprepare prepare_ne_writing
  · obtain ⟨config, recording, hanalyzed, hpending⟩ := prepare_eq_ok_iff.mp hprepare
    rcases hpending with ⟨hnone, rfl⟩ | ⟨requested, source, hready, -⟩
    · rw [execute, hprepare] at hexecute
      cases hexecute
    · rw [execute_of_ready hready] at hexecute
      rcases hencode : (Wave.encode fileSystem requested (sourceFile recording source)).2
        with cause | _
      · rw [hencode] at hexecute
        cases hexecute
        refine ⟨config, recording, report, source, hready, ?_⟩
        exact (rate_of_encode_eq_byteRateOutOfRange hencode).resolve_left
          (hready.rate_pos hzero).ne'
      · rw [hencode] at hexecute
        cases hexecute

/-! ## Command lines -/

def Outcome.ofResult {α : Type} : Except (Failure α) (Report α) → Outcome α
  | .ok report => .report report
  | .error failure => .failed failure

omit [Scalar α] in
theorem Outcome.ofResult_eq_report_iff {result : Except (Failure α) (Report α)} :
    Outcome.ofResult result = .report report ↔ result = .ok report := by
  cases result with
  | ok other => simp [ofResult]
  | error failure => simp [ofResult]

omit [Scalar α] in
theorem Outcome.ofResult_eq_failed_iff {result : Except (Failure α) (Report α)}
    {failure : Failure α} :
    Outcome.ofResult result = .failed failure ↔ result = .error failure := by
  cases result with
  | ok report => simp [ofResult]
  | error other => simp [ofResult]

omit [Scalar α] in
/-- An invocation has the status zero exactly with a report. -/
theorem Outcome.status_ofResult_eq_zero_iff {result : Except (Failure α) (Report α)} :
    (Outcome.ofResult result).status = 0 ↔ ∃ report, Outcome.ofResult result = .report report := by
  cases result with
  | ok report => simp [ofResult, status]
  | error failure => cases habort : failure.isAbort <;> simp [ofResult, status, habort]

theorem run_of_parse {arguments : List String} {invocation : Invocation Float}
    (hparse : parse arguments = .analyze invocation) :
    run fileSystem arguments =
      ((execute fileSystem invocation).1, .ofResult (execute fileSystem invocation).2) := by
  rw [run, hparse]
  dsimp only
  rcases execute fileSystem invocation with ⟨left, failure | report⟩
  · rfl
  · rfl

/-- A command line that is accepted touches a file only if every other step has succeeded and
the source is ready; it then writes that source and changes no other file.  It gives a report
and the status zero exactly if the writing has succeeded too.  The writer gets no recording
without a sample rate: the detection refuses these, however long they are, and only a number
of levels out of range is refused before. -/
theorem run_writes_last (fileSystem : FileSystem) (arguments : List String)
    (invocation : Invocation Float) (hparse : parse arguments = .analyze invocation) :
    ((run fileSystem arguments).1 ≠ fileSystem →
      ∃ config recording report path source,
        SourceReady fileSystem invocation config recording report path source) ∧
    (∀ config recording report path source,
      SourceReady fileSystem invocation config recording report path source →
        0 < recording.sampleRate ∧
        (run fileSystem arguments).1 =
          (Wave.encode fileSystem path (sourceFile recording source)).1 ∧
        ∀ names, names ≠ FileSystem.components path →
          (run fileSystem arguments).1.entries.lookup names =
            fileSystem.entries.lookup names) ∧
    (∀ report, (run fileSystem arguments).2 = .report report ↔
      ∃ config recording, Analyzed fileSystem invocation config recording report ∧
        ∀ path, invocation.sourceOut = some path → ∃ source,
          SourceReady fileSystem invocation config recording report path source ∧
            (Wave.encode fileSystem path (sourceFile recording source)).2 = .ok ()) ∧
    ((run fileSystem arguments).2.status = 0 ↔
      ∃ report, (run fileSystem arguments).2 = .report report) ∧
    (∀ path, (run fileSystem arguments).2 = .failed (.writing path .byteRateOutOfRange) →
      ∃ config recording report source,
        SourceReady fileSystem invocation config recording report path source ∧
          2 ^ 31 ≤ recording.sampleRate) ∧
    ∀ config samples, ∃ cause, detect invocation config ⟨samples, 0⟩ = .error cause ∧
      (cause = .sampleRateNotPositive ((0 : Nat) : Float) ∨
        invocation.method = .multiProduct ∧
          ¬(1 ≤ levelsInUse invocation config ∧ levelsInUse invocation config ≤ maxLevels) ∧
          cause = .levelsOutOfRange maxLevels (levelsInUse invocation config)) ∧
      (validate fileSystem invocation = .ok () →
        Config.load fileSystem invocation.configFile invocation.configJson = .ok config →
        Wave.decode fileSystem invocation.input = .ok ⟨samples, 0⟩ →
          run fileSystem arguments =
            (fileSystem, .failed (.detection invocation.method cause))) := by
  have hzero : Scalar.isPositive ((0 : Nat) : Float) = false := by decide +kernel
  rw [run_of_parse hparse]
  refine ⟨exists_ready_of_execute_ne, fun config recording report path source hready => ?_,
    fun report => ?_, ?_, fun path hfailed => ?_, fun config samples => ?_⟩
  · refine ⟨hready.rate_pos hzero, ?_, fun names hnames => ?_⟩
    · rw [execute_of_ready hready]
    · rw [execute_of_ready hready]
      exact lookup_encode_of_ne hnames
  · rw [Outcome.ofResult_eq_report_iff, execute_eq_ok_iff]
  · exact Outcome.status_ofResult_eq_zero_iff
  · exact exists_ready_of_execute_eq_byteRateOutOfRange hzero
      (Outcome.ofResult_eq_failed_iff.mp hfailed)
  · have hfails : ∀ cause, detect invocation config ⟨samples, 0⟩ = .error cause →
        validate fileSystem invocation = .ok () →
        Config.load fileSystem invocation.configFile invocation.configJson = .ok config →
        Wave.decode fileSystem invocation.input = .ok ⟨samples, 0⟩ →
          ((execute fileSystem invocation).1, Outcome.ofResult (execute fileSystem invocation).2) =
            (fileSystem, .failed (.detection invocation.method cause)) := by
      intro cause hdetect hvalidate hload hdecode
      rw [execute, prepare_of_detect_error hvalidate hload hdecode hdetect]
      rfl
    rcases detect_without_rate hzero invocation config samples with
      hrate | ⟨hmethod, hrange, hlevels⟩
    · exact ⟨_, hrate, .inl rfl, hfails _ hrate⟩
    · exact ⟨_, hlevels, .inr ⟨hmethod, hrange, rfl⟩, hfails _ hlevels⟩

/-! ### Runs on one file -/

def oneFile (sampleRate : Nat) (codes : List Int) : FileSystem :=
  ⟨[(["i"], .file (Wave.pulseFile sampleRate codes))]⟩

/-- Detection on the multi-scale product, with the source written to another file. -/
def productInvocation : Invocation Float :=
  ⟨"i", .multiProduct, none, none, none, none, some "o"⟩

private theorem resolve_oneFile (sampleRate : Nat) (codes : List Int) :
    (oneFile sampleRate codes).resolve "i" = .ok (.file (Wave.pulseFile sampleRate codes)) := by
  rw [oneFile]
  generalize Wave.pulseFile sampleRate codes = contents
  cbv

private theorem checkCreate_oneFile (sampleRate : Nat) (codes : List Int) :
    (oneFile sampleRate codes).checkCreate "o" = .ok () := by
  rw [oneFile]
  generalize Wave.pulseFile sampleRate codes = contents
  cbv

private theorem validate_oneFile (sampleRate : Nat) (codes : List Int) :
    validate (oneFile sampleRate codes) productInvocation = .ok () := by
  rw [validate, FileSystem.pathExists, FileSystem.isFile, productInvocation, resolve_oneFile]
  rfl

private theorem decode_oneFile {sampleRate : Nat} (hrate : sampleRate < 2 ^ 31)
    {codes : List Int} (hlength : codes.length < 2 ^ 31)
    (hcodes : ∀ code ∈ codes, code.natAbs ≤ 32767) :
    (Wave.decode (oneFile sampleRate codes) "i" : Except Wave.DecodeError (Recording Float)) =
      .ok (Wave.ofPulseCodes sampleRate codes) := by
  rw [Wave.decode, FileSystem.read, resolve_oneFile]
  exact Wave.decodeBytes_pulseFile hrate hlength hcodes "i"

/-- A recording of two samples has no whole block and so no cycle. -/
private theorem detect_twoSamples :
    detect productInvocation .standard (Wave.ofPulseCodes 16000 [1, -1]) =
      .ok ([], none, some 4) := by
  have hrate : Scalar.isPositive ((16000 : Nat) : Float) = true := by decide +kernel
  have hfinite : (Wave.ofPulseCodes 16000 [1, -1] : Recording Float).samples.allFinite = true := by
    decide +kernel
  have hcycles := MultiProduct.Detector.standard.detect_eq hrate hfinite
  have hnone : MultiProduct.closures (MultiProduct.multiScaleProduct
      (Wave.ofPulseCodes 16000 [1, -1] : Recording Float).samples
      MultiProduct.Detector.standard.levels) = [] := by
    rw [MultiProduct.closures, Extremum.find, if_pos]
    rw [Array.size_map, MultiProduct.size_multiScaleProduct]
    decide
  rw [hnone] at hcycles
  change (MultiProduct.Detector.standard.detect _ _ >>= fun cycles =>
    pure (cycles, none, some 4)) = _
  exact bind_eq_ok_iff.mpr ⟨_, hcycles, rfl⟩

private theorem ofConfig_twoSamples :
    ∃ source, InverseFilter.ofConfig (Wave.ofPulseCodes 16000 [1, -1] : Recording Float).samples
      ((16000 : Nat) : Float) (Config.standard : Config Float).inverseFilter = .ok source := by
  have hvalid : (Config.standard : Config Float).inverseFilter.validate = .ok () := by
    decide +kernel
  have hrate : Scalar.isPositive ((16000 : Nat) : Float) = true := by decide +kernel
  have hfinite : (Wave.ofPulseCodes 16000 [1, -1] : Recording Float).samples.allFinite = true := by
    decide +kernel
  have hvocalTract : (Config.standard : Config Float).inverseFilter.vocalTractAt
      ((16000 : Nat) : Float) = 20 := by decide +kernel
  have hglottis : (Config.standard : Config Float).inverseFilter.glottisAt
      ((16000 : Nat) : Float) = 8 := by decide +kernel
  apply (InverseFilter.ranged_ofConfig hvalid hrate hfinite (by decide)).exists_eq_ok_iff.mpr
  rw [InverseFilter.Leaves, hvocalTract, hglottis]
  decide

private theorem exists_ready_twoSamples :
    ∃ source, SourceReady (oneFile 16000 [1, -1]) productInvocation .standard
      (Wave.ofPulseCodes 16000 [1, -1])
      ⟨16000, 2, .multiProduct, none, some 4, [], none, none⟩ "o" source := by
  obtain ⟨source, hsource⟩ := ofConfig_twoSamples
  have hanalyze : analyze productInvocation .standard (Wave.ofPulseCodes 16000 [1, -1]) =
      .ok ⟨16000, 2, .multiProduct, none, some 4, [], none, none⟩ := by
    rw [analyze, detect_twoSamples]
    rfl
  exact ⟨source, ⟨validate_oneFile _ _, rfl,
    decode_oneFile (by decide) (by decide) (by decide), detect_twoSamples, hanalyze⟩, rfl, hsource⟩

/-- A file without a sample rate ends in the detection and nothing is written; two samples
at a rate end in a report. -/
theorem run_writes_last_of_oneFile :
    parse ["i", "--method=multi-product", "--source-out=o"] = .analyze productInvocation ∧
    (∃ cause, run (oneFile 0 []) ["i", "--method=multi-product", "--source-out=o"] =
      (oneFile 0 [], .failed (.detection .multiProduct cause))) ∧
    ∃ report, (run (oneFile 16000 [1, -1])
      ["i", "--method=multi-product", "--source-out=o"]).2 = .report report := by
  have hparse : parse ["i", "--method=multi-product", "--source-out=o"] =
      .analyze productInvocation := by cbv
  refine ⟨hparse, ?_, ?_⟩
  · obtain ⟨_, _, _, _, _, hwithoutRate⟩ := run_writes_last (oneFile 0 []) _ _ hparse
    obtain ⟨cause, -, -, hrun⟩ := hwithoutRate .standard #[]
    exact ⟨cause, hrun (validate_oneFile 0 []) rfl
      (decode_oneFile (by decide) (by decide) (by decide))⟩
  · obtain ⟨_, _, hreport, _⟩ := run_writes_last (oneFile 16000 [1, -1]) _ _ hparse
    obtain ⟨source, hready⟩ := exists_ready_twoSamples
    refine ⟨_, (hreport _).mpr ⟨_, _, hready.toAnalyzed, fun path hrequested => ?_⟩⟩
    cases hrequested
    refine ⟨source, hready, ?_⟩
    rw [Wave.encode, checkCreate_oneFile]
    rfl

end Glottis.CommandLine
