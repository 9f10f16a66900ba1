import Mathlib
import Glottis.Wave.Reader
import Glottis.Wave.Writer
import Glottis.Proofs.Files
import Glottis.Proofs.PulseCodes
import Glottis.Proofs.WaveHeaders

/-!
# Saving and loading recordings

A saved recording is loaded as the fractions of its codes, with its sample rate.  Saving
it again writes the same header, but codes that have moved one step toward zero, so that
a recording fades from file to file until it is silent.
-/

namespace Glottis.Wave

variable {sampleRate : Nat} {codes : List Int} {fileSystem : FileSystem} {path : String}

/-! ## Files of codes -/

def pulseCodes {α : Type} [Scalar α] (recording : Recording α) : List Int :=
  recording.samples.toList.map pulseCode

/-- The recording whose samples are the fractions of some codes. -/
def ofPulseCodes {α : Type} [Scalar α] (sampleRate : Nat) (codes : List Int) : Recording α where
  samples := (codes.map (ofCode 16)).toArray
  sampleRate := sampleRate

def pulseFile (sampleRate : Nat) (codes : List Int) : Bytes :=
  header sampleRate (2 * codes.length) ++ codes.flatMap codeBytes

theorem encodeBytes_eq_pulseFile {α : Type} [Scalar α] (recording : Recording α) :
    encodeBytes recording = pulseFile recording.sampleRate (pulseCodes recording) := by
  rw [encodeBytes, pulseFile, pulseCodes, List.length_map, Array.length_toList, List.flatMap_map]

def pulseFormat (sampleRate : Nat) : Format := ⟨1, sampleRate, 2, 16, .integer⟩

def pulseCommonFormat (sampleRate : Nat) : CommonFormat :=
  ⟨1, 1, sampleRate, 2 * sampleRate, 2, 16⟩

theorem toFormat_pulseCommonFormat (sampleRate : Nat) :
    (pulseCommonFormat sampleRate).toFormat 16 .integer = pulseFormat sampleRate := by
  simp [CommonFormat.toFormat, CommonFormat.width, pulseCommonFormat, pulseFormat]

theorem length_flatMap_codeBytes (codes : List Int) :
    (codes.flatMap codeBytes).length = 2 * codes.length := by
  induction codes with
  | nil => rfl
  | cons code codes ih =>
      rw [List.flatMap_cons, List.length_append, ih, codeBytes, length_toLittleEndian,
        List.length_cons]
      omega

theorem pulseFile_eq_riff (sampleRate : Nat) (codes : List Int) :
    pulseFile sampleRate codes = riff (36 + 2 * codes.length)
      (chunk "fmt " (pulseCommonFormat sampleRate).toBytes ++
        chunk "data" (codes.flatMap codeBytes)) := by
  rw [pulseFile, header, riff, chunk, chunk, length_toBytes, length_flatMap_codeBytes]
  simp only [CommonFormat.toBytes, pulseCommonFormat, List.append_assoc]

theorem run_readHeader_pulseFile (hrate : sampleRate < 2 ^ 31) (hlength : codes.length < 2 ^ 31) :
    readHeader.run (pulseFile sampleRate codes) =
      .ok ((pulseFormat sampleRate, codes.length), codes.flatMap codeBytes) := by
  have hfits : (pulseCommonFormat sampleRate).Fits := by
    constructor <;> simp only [pulseCommonFormat] <;> omega
  have hcommon : (pulseCommonFormat sampleRate).IsConsistent := by
    constructor <;> simp only [pulseCommonFormat, CommonFormat.width] <;> omega
  have hread (rest : Bytes) :
      (readFormat (pulseCommonFormat sampleRate).toBytes.length).run
        ((pulseCommonFormat sampleRate).toBytes ++ rest) =
        .ok (pulseFormat sampleRate, rest) := by
    rw [length_toBytes, ← toFormat_pulseCommonFormat]
    exact run_readFormat_plain hfits hcommon rfl rest
  have hcount : (codes.flatMap codeBytes).length / (pulseFormat sampleRate).width =
      codes.length := by
    rw [length_flatMap_codeBytes]
    exact Nat.mul_div_cancel_left _ (by decide)
  rw [pulseFile_eq_riff, run_readHeader_chunks (by rw [length_toBytes]; decide) _ hread, hcount]
  · rw [hcount, length_flatMap_codeBytes]
    exact Nat.mul_comm _ _
  · exact Nat.mod_one _
  · rw [length_flatMap_codeBytes]
    omega

theorem run_readCode_codeBytes {code : Int} (hcode : code.natAbs ≤ 32767) (rest : Bytes) :
    (readCode (pulseFormat sampleRate)).run (codeBytes code ++ rest) = .ok (code, rest) := by
  have hword := run_word_append (unsigned_lt code) rest
  change ((Reader.word 2 >>= fun value => pure (signed 16 value)) : Reader Int).run _ = _
  rw [codeBytes, run_bind_of_ok hword, signed_unsigned (by omega) (by omega)]
  rfl

theorem run_readCodes_flatMap (hcodes : ∀ code ∈ codes, code.natAbs ≤ 32767) :
    (readMany (readCode (pulseFormat sampleRate)) codes.length).run (codes.flatMap codeBytes) =
      .ok (codes, []) := by
  have hread := @run_readMany_flatMap Int [] (readCode (pulseFormat sampleRate)) codeBytes codes
    fun code hcode rest => run_readCode_codeBytes (hcodes code hcode) rest
  rwa [List.append_nil] at hread

/-- A file of codes is decoded to their fractions. -/
theorem decodeBytes_pulseFile {α : Type} [Scalar α] (hrate : sampleRate < 2 ^ 31)
    (hlength : codes.length < 2 ^ 31) (hcodes : ∀ code ∈ codes, code.natAbs ≤ 32767)
    (path : String) :
    (decodeBytes path (pulseFile sampleRate codes) : Except DecodeError (Recording α)) =
      .ok (ofPulseCodes sampleRate codes) := by
  have hsamples : (readSamples (pulseFormat sampleRate) codes.length (codes.flatMap codeBytes) :
      Except DecodeError (Signal α)) = .ok (codes.map (ofCode 16)).toArray := by
    have hencoding : (pulseFormat sampleRate).encoding = .integer := rfl
    have hnarrow : ¬ 64 < (pulseFormat sampleRate).bits := by simp [pulseFormat]
    rw [readSamples, hencoding]
    dsimp only
    rw [if_neg hnarrow, run_readCodes_flatMap hcodes]
    rfl
  rw [decodeBytes, run_readHeader_pulseFile hrate hlength]
  dsimp only
  rw [hsamples]
  rfl

/-- Different codes give different files. -/
theorem pulseFile_injective {codes' : List Int} (hrate : sampleRate < 2 ^ 31)
    (hlength : codes.length < 2 ^ 31) (hlength' : codes'.length < 2 ^ 31)
    (hcodes : ∀ code ∈ codes, code.natAbs ≤ 32767)
    (hcodes' : ∀ code ∈ codes', code.natAbs ≤ 32767)
    (hfile : pulseFile sampleRate codes = pulseFile sampleRate codes') : codes = codes' := by
  have hheader := run_readHeader_pulseFile hrate hlength
  rw [hfile, run_readHeader_pulseFile hrate hlength'] at hheader
  simp only [Except.ok.injEq, Prod.mk.injEq, true_and] at hheader
  obtain ⟨hcount, hbytes⟩ := hheader
  have hread := @run_readCodes_flatMap sampleRate codes hcodes
  rw [← hcount, ← hbytes, run_readCodes_flatMap hcodes', Except.ok.injEq, Prod.mk.injEq] at hread
  exact hread.1.symm

/-! ## Recordings and their codes -/

theorem natAbs_le_of_mem_pulseCodes (recording : Recording Float) :
    ∀ code ∈ pulseCodes recording, code.natAbs ≤ 32767 := by
  intro code hcode
  obtain ⟨value, -, rfl⟩ := List.mem_map.mp hcode
  exact natAbs_pulseCode_le value

/-- The fractions of codes have codes that have moved one step toward zero. -/
theorem pulseCodes_ofPulseCodes (hcodes : ∀ code ∈ codes, code.natAbs ≤ 32767) :
    pulseCodes (ofPulseCodes sampleRate codes : Recording Float) = codes.map (towardZero 1) := by
  rw [pulseCodes, ofPulseCodes, List.map_map]
  exact List.map_congr_left fun code hcode =>
    pulseCode_ofCode ((hcodes code hcode).trans (by decide))

/-! ## Cycles of loading and saving -/

variable {α : Type} [Scalar α]

/-- The file system after the recording at a path has been loaded and saved again; a
recording that cannot be loaded is left as it is. -/
def resave (α : Type) [Scalar α] (path : String) (fileSystem : FileSystem) : FileSystem :=
  match (decode fileSystem path : Except DecodeError (Recording α)) with
  | .ok recording => (encode fileSystem path recording).1
  | .error _ => fileSystem

/-- A file of codes stands at a path at which it can be replaced. -/
structure Holds (fileSystem : FileSystem) (path : String) (sampleRate : Nat) (codes : List Int) :
    Prop where
  create : fileSystem.checkCreate path = .ok ()
  read : fileSystem.read path = .ok (pulseFile sampleRate codes)

theorem encode_of_checkCreate {recording : Recording α}
    (hcreate : fileSystem.checkCreate path = .ok ()) (hpositive : 1 ≤ recording.sampleRate)
    (hrate : recording.sampleRate < 2 ^ 31) :
    ∃ saved, encode fileSystem path recording = (saved, .ok ()) ∧
      Holds saved path recording.sampleRate (pulseCodes recording) := by
  have hfits : byteRateFits recording.sampleRate = true := by
    rw [byteRateFits, Bool.and_eq_true, decide_eq_true_eq, decide_eq_true_eq]
    omega
  refine ⟨fileSystem.put path (encodeBytes recording), ?_,
    FileSystem.checkCreate_put hcreate _, ?_⟩
  · rw [encode, hcreate]
    dsimp only
    rw [if_pos hfits]
  · rw [FileSystem.read_put hcreate, encodeBytes_eq_pulseFile]

theorem Holds.decode (hholds : Holds fileSystem path sampleRate codes) (hrate : sampleRate < 2 ^ 31)
    (hlength : codes.length < 2 ^ 30) (hcodes : ∀ code ∈ codes, code.natAbs ≤ 32767) :
    (Wave.decode fileSystem path : Except DecodeError (Recording α)) =
      .ok (ofPulseCodes sampleRate codes) := by
  rw [Wave.decode, hholds.read]
  exact decodeBytes_pulseFile hrate (hlength.trans (by decide)) hcodes path

/-- Loading and saving moves every code of a file one step toward zero. -/
theorem Holds.resave (hholds : Holds fileSystem path sampleRate codes) (hpositive : 1 ≤ sampleRate)
    (hrate : sampleRate < 2 ^ 31) (hlength : codes.length < 2 ^ 30)
    (hcodes : ∀ code ∈ codes, code.natAbs ≤ 32767) :
    Holds (Wave.resave Float path fileSystem) path sampleRate (codes.map (towardZero 1)) := by
  obtain ⟨saved, hencode, hsaved⟩ := @encode_of_checkCreate fileSystem path Float _
    (ofPulseCodes sampleRate codes) hholds.create hpositive hrate
  rw [Wave.resave, hholds.decode hrate hlength hcodes]
  dsimp only
  rw [hencode, ← pulseCodes_ofPulseCodes hcodes]
  exact hsaved

theorem map_towardZero_zero (codes : List Int) : codes.map (towardZero 0) = codes := by
  have hsame : towardZero 0 = id := funext towardZero_zero
  rw [hsame, List.map_id]

theorem map_towardZero_map (steps : Nat) (codes : List Int) :
    (codes.map (towardZero steps)).map (towardZero 1) = codes.map (towardZero (steps + 1)) := by
  rw [List.map_map]
  exact List.map_congr_left fun code _ => towardZero_towardZero steps 1 code

theorem natAbs_le_of_mem_map_towardZero (hcodes : ∀ code ∈ codes, code.natAbs ≤ 32767)
    (steps : Nat) : ∀ code ∈ codes.map (towardZero steps), code.natAbs ≤ 32767 := by
  intro code hcode
  obtain ⟨original, horiginal, rfl⟩ := List.mem_map.mp hcode
  rw [natAbs_towardZero]
  exact (Nat.sub_le _ _).trans (hcodes original horiginal)

/-- Loading and saving some times moves every code of a file as many steps toward zero. -/
theorem Holds.resave_iterate (hholds : Holds fileSystem path sampleRate codes)
    (hpositive : 1 ≤ sampleRate) (hrate : sampleRate < 2 ^ 31) (hlength : codes.length < 2 ^ 30)
    (hcodes : ∀ code ∈ codes, code.natAbs ≤ 32767) (cycles : Nat) :
    Holds ((Wave.resave Float path)^[cycles] fileSystem) path sampleRate
      (codes.map (towardZero cycles)) := by
  induction cycles with
  | zero =>
      rw [map_towardZero_zero]
      exact hholds
  | succ cycles ih =>
      rw [Function.iterate_succ_apply', ← map_towardZero_map]
      exact ih.resave hpositive hrate (by rwa [List.length_map])
        (natAbs_le_of_mem_map_towardZero hcodes cycles)

/-- Only silence is left as it is. -/
theorem map_towardZero_one_eq_self_iff (codes : List Int) :
    codes.map (towardZero 1) = codes ↔ ∀ code ∈ codes, code = 0 := by
  calc
    codes.map (towardZero 1) = codes ↔ codes.map (towardZero 1) = codes.map id := by
      rw [List.map_id]
    _ ↔ ∀ code ∈ codes, towardZero 1 code = id code := List.map_inj_left
    _ ↔ ∀ code ∈ codes, code = 0 := forall₂_congr fun code _ => towardZero_one_eq_self_iff code

/-- A file is the same after loading and saving it exactly if it is silent. -/
theorem Holds.read_resave_eq_iff (hholds : Holds fileSystem path sampleRate codes)
    (hpositive : 1 ≤ sampleRate) (hrate : sampleRate < 2 ^ 31) (hlength : codes.length < 2 ^ 30)
    (hcodes : ∀ code ∈ codes, code.natAbs ≤ 32767) :
    (Wave.resave Float path fileSystem).read path = fileSystem.read path ↔
      ∀ code ∈ codes, code = 0 := by
  rw [(hholds.resave hpositive hrate hlength hcodes).read, hholds.read,
    ← map_towardZero_one_eq_self_iff, Except.ok.injEq]
  constructor
  · have hfits : codes.length < 2 ^ 31 := hlength.trans (by decide)
    exact pulseFile_injective hrate (by rwa [List.length_map]) hfits
      (natAbs_le_of_mem_map_towardZero hcodes 1) hcodes
  · exact congrArg (pulseFile sampleRate)

/-- A recording can be saved, and loaded and saved again any number of times.  Each cycle
keeps the header and moves every code one step toward zero, so it changes the file unless
the file is silent. -/
theorem saved_recording_fades (fileSystem : FileSystem) (path : String)
    (recording : Recording Float) (hcreate : fileSystem.checkCreate path = .ok ())
    (hpositive : 1 ≤ recording.sampleRate) (hrate : recording.sampleRate < 2 ^ 31)
    (hsize : recording.samples.size < 2 ^ 30) :
    ∃ saved, encode fileSystem path recording = (saved, .ok ()) ∧
      (∀ cycles,
        ((resave Float path)^[cycles] saved).read path = .ok (pulseFile recording.sampleRate
          ((pulseCodes recording).map (towardZero cycles))) ∧
        (decode ((resave Float path)^[cycles] saved) path :
            Except DecodeError (Recording Float)) = .ok (ofPulseCodes recording.sampleRate
          ((pulseCodes recording).map (towardZero cycles)))) ∧
      ((resave Float path saved).read path = saved.read path ↔
        ∀ code ∈ pulseCodes recording, code = 0) := by
  have hlength : (pulseCodes recording).length < 2 ^ 30 := by
    rwa [pulseCodes, List.length_map, Array.length_toList]
  have hcodes := natAbs_le_of_mem_pulseCodes recording
  obtain ⟨saved, hencode, hholds⟩ := encode_of_checkCreate hcreate hpositive hrate
  refine ⟨saved, hencode, fun cycles => ?_,
    hholds.read_resave_eq_iff hpositive hrate hlength hcodes⟩
  have hlater := hholds.resave_iterate hpositive hrate hlength hcodes cycles
  exact ⟨hlater.read, hlater.decode hrate (by rwa [List.length_map])
    (natAbs_le_of_mem_map_towardZero hcodes cycles)⟩

theorem checkCreate_without_entries :
    (⟨[]⟩ : FileSystem).checkCreate "o.wav" = .ok () := by
  cbv

private theorem pulseCodes_half : pulseCodes (⟨#[0.5], 16000⟩ : Recording Float) = [16383] := by
  decide +kernel

theorem saved_recording_fades_of_half :
    (⟨[]⟩ : FileSystem).checkCreate "o.wav" = .ok () ∧
    ∃ saved, encode ⟨[]⟩ "o.wav" (⟨#[0.5], 16000⟩ : Recording Float) = (saved, .ok ()) ∧
      (∀ cycles,
        ((resave Float "o.wav")^[cycles] saved).read "o.wav" = .ok (pulseFile 16000
          ([16383].map (towardZero cycles))) ∧
        (decode ((resave Float "o.wav")^[cycles] saved) "o.wav" :
            Except DecodeError (Recording Float)) = .ok (ofPulseCodes 16000
          ([16383].map (towardZero cycles)))) ∧
      ((resave Float "o.wav" saved).read "o.wav" = saved.read "o.wav" ↔
        ∀ code ∈ [(16383 : Int)], code = 0) := by
  have hfades := saved_recording_fades ⟨[]⟩ "o.wav" ⟨#[0.5], 16000⟩ checkCreate_without_entries
    (by decide) (by decide) (by decide)
  rw [pulseCodes_half] at hfades
  exact ⟨checkCreate_without_entries, hfades⟩

/-- A saved recording that is loaded and saved again is not the same file. -/
theorem not_forall_resaved_file_eq :
    ¬ ∀ (fileSystem : FileSystem) (path : String) (recording : Recording Float),
      fileSystem.checkCreate path = .ok () → 1 ≤ recording.sampleRate →
      recording.sampleRate < 2 ^ 31 → recording.samples.size < 2 ^ 30 →
      (∀ sample ∈ recording.samples, sample.isFinite = true) →
      ∀ saved, encode fileSystem path recording = (saved, .ok ()) →
      ∀ loaded : Recording Float, decode saved path = .ok loaded →
        (encode saved path loaded).1.read path = saved.read path := by
  intro hstable
  have hrange : ∀ code ∈ [(16383 : Int)], code.natAbs ≤ 32767 := by decide
  obtain ⟨saved, hencode, hholds⟩ := @encode_of_checkCreate ⟨[]⟩ "o.wav" Float _
    ⟨#[0.5], 16000⟩ checkCreate_without_entries (by decide) (by decide)
  rw [pulseCodes_half] at hholds
  have hdecode := @Holds.decode 16000 [16383] saved "o.wav" Float _ hholds (by decide) (by decide)
    hrange
  have hsame := hstable ⟨[]⟩ "o.wav" ⟨#[0.5], 16000⟩ checkCreate_without_entries (by decide)
    (by decide) (by decide) (by decide +kernel) saved hencode _ hdecode
  have hresave : Wave.resave Float "o.wav" saved =
      (encode saved "o.wav" (ofPulseCodes 16000 [16383] : Recording Float)).1 := by
    rw [Wave.resave, hdecode]
  rw [← hresave, hholds.read_resave_eq_iff (by decide) (by decide) (by decide) hrange] at hsame
  exact absurd (hsame 16383 List.mem_cons_self) (by decide)

end Glottis.Wave
