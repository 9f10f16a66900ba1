import Mathlib
import Glottis.Wave.Reader
import Glottis.Proofs.Checks
import Glottis.Proofs.WaveReaders

/-!
# Samples as they are stored

The samples of a file are the containers behind the header of its data chunk, whose length says
how many there are.  A container holds the code of a sample in its low bits, as an offset from the
middle of a byte or as two's complement.  An integer file is decoded exactly if its containers are
of a kind that holds codes and all of them are there.
-/

namespace Glottis.Wave

open Reader

variable {β γ : Type} {bytes rest data : Bytes} {format : Format} {count : Nat}

/-! ## The data chunk -/

/-- What a reader leaves is the end of what it was given. -/
def Consumes (reader : Reader β) : Prop :=
  ∀ bytes value rest, reader.run bytes = .ok (value, rest) → rest <:+ bytes

namespace Consumes

theorem pure (value : β) : Consumes (pure value : Reader β) := by
  intro bytes _ rest hrun
  obtain ⟨-, rfl⟩ := Prod.mk.inj (run_pure_eq_ok_iff.mp hrun)
  exact List.suffix_rfl

theorem throw (cause : ReadError) : Consumes (throw cause : Reader β) :=
  fun _ _ _ hrun => absurd hrun run_throw_ne_ok

theorem bind {step : Reader β} {next : β → Reader γ} (hstep : Consumes step)
    (hnext : ∀ value, Consumes (next value)) : Consumes (step >>= next) := by
  intro bytes result rest hrun
  obtain ⟨value, between, hfirst, hsecond⟩ := run_bind_eq_ok_iff.mp hrun
  exact (hnext value between result rest hsecond).trans (hstep bytes value between hfirst)

theorem ite {condition : Prop} [Decidable condition] {yes no : Reader β} (hyes : Consumes yes)
    (hno : Consumes no) : Consumes (if condition then yes else no) := by
  split
  · exact hyes
  · exact hno

theorem take (count : Nat) : Consumes (Reader.take count) := by
  intro bytes front rest hrun
  obtain ⟨rfl, -⟩ := run_take_eq_ok_iff.mp hrun
  exact List.suffix_append front rest

theorem word (width : Nat) : Consumes (Reader.word width) :=
  bind (take width) fun _ => pure _

theorem expect (condition : Bool) (defect : Defect) : Consumes (Reader.expect condition defect) :=
  ite (pure ()) (throw _)

theorem readCommon : Consumes CommonFormat.read :=
  bind (word 2) fun _ => bind (word 2) fun _ => bind (word 4) fun _ => bind (word 4) fun _ =>
    bind (word 2) fun _ => bind (word 2) fun _ => pure _

theorem check (common : CommonFormat) : Consumes common.check :=
  bind (expect _ _) fun _ => bind (expect _ _) fun _ => bind (expect _ _) fun _ =>
    bind (expect _ _) fun _ => expect _ _

theorem readInteger (length : Nat) (common : CommonFormat) :
    Consumes (readInteger length common) := by
  have hend : Consumes (if length = 40 then do
      let _ ← Reader.take 22
      return common.toFormat common.bits .integer
      else return common.toFormat common.bits .integer) :=
    ite (bind (take 22) fun _ => pure _) (pure _)
  exact bind (expect _ _) fun _ => ite (bind (word 2) fun _ => bind (expect _ _) fun _ => hend) hend

theorem readFloat (length : Nat) (common : CommonFormat) : Consumes (readFloat length common) := by
  have hend : Consumes (do
      Reader.expect (common.bits = 32) .bitsNotSingle
      return common.toFormat common.bits .float) := bind (expect _ _) fun _ => pure _
  exact bind (expect _ _) fun _ => ite (bind (word 2) fun _ => bind (expect _ _) fun _ => hend) hend

theorem readExtensible (length : Nat) (common : CommonFormat) :
    Consumes (readExtensible length common) :=
  bind (expect _ _) fun _ => bind (word 2) fun _ => bind (expect _ _) fun _ =>
    bind (word 2) fun _ => bind (word 4) fun _ => bind (take 16) fun _ =>
      ite (pure _) (ite (pure _) (throw _))

theorem readFormat (length : Nat) : Consumes (readFormat length) :=
  bind (expect _ _) fun _ => bind readCommon fun common => bind (check common) fun _ =>
    ite (readInteger length common)
      (ite (readFloat length common) (ite (readExtensible length common) (throw _)))

end Consumes

/-- The bytes of a file end with a data chunk: its tag, its length and what is behind them.  The
length is that of a number of whole frames. -/
structure EndsWithData (bytes : Bytes) (format : Format) (count : Nat) (data : Bytes) : Prop where
  exists_length : ∃ length : Bytes, length.length = 4 ∧
    ofLittleEndian length = count * format.width ∧ tag "data" ++ length ++ data <:+ bytes
  whole_frames : count % format.channels = 0

theorem EndsWithData.of_suffix (hends : EndsWithData rest format count data)
    (hsuffix : rest <:+ bytes) : EndsWithData bytes format count data where
  exists_length :=
    let ⟨length, hsize, hcount, htail⟩ := hends.exists_length
    ⟨length, hsize, hcount, htail.trans hsuffix⟩
  whole_frames := hends.whole_frames

theorem run_sampleCount_eq_ok_iff {length : Nat} :
    (sampleCount format length).run bytes = .ok (count, rest) ↔
      length / format.width * format.width = length ∧
        length / format.width % format.channels = 0 ∧ length / format.width = count ∧
        bytes = rest := by
  rw [sampleCount, run_expect_bind_eq_ok_iff, run_expect_bind_eq_ok_iff, run_pure_eq_ok_iff,
    Prod.mk.injEq, decide_eq_true_iff, decide_eq_true_iff]

theorem endsWithData_of_run_readChunks {fuel : Nat} {start : Option Format}
    (hread : (readChunks fuel start).run bytes = .ok ((format, count), data)) :
    EndsWithData bytes format count data := by
  induction fuel generalizing start bytes with
  | zero => exact absurd hread run_throw_ne_ok
  | succ fuel ih =>
      rw [readChunks] at hread
      obtain ⟨name, behindName, hname, hread⟩ := run_bind_eq_ok_iff.mp hread
      obtain ⟨length, behindLength, hlength, hread⟩ := run_bind_eq_ok_iff.mp hread
      have hchunk : behindLength <:+ bytes :=
        (Consumes.word 4 _ _ _ hlength).trans (Consumes.take 4 _ _ _ hname)
      split at hread
      case isTrue =>
        obtain ⟨described, _, hformat, hread⟩ := run_bind_eq_ok_iff.mp hread
        exact (ih hread).of_suffix ((Consumes.readFormat length _ _ _ hformat).trans hchunk)
      case isFalse =>
        split at hread
        case isTrue =>
          obtain ⟨_, _, hskip, hread⟩ := run_bind_eq_ok_iff.mp hread
          exact (ih hread).of_suffix ((Consumes.take 4 _ _ _ hskip).trans hchunk)
        case isFalse =>
          split at hread
          case isTrue htag =>
            cases start with
            | none => exact absurd hread run_throw_ne_ok
            | some current =>
                obtain ⟨_, _, hcount, hread⟩ := run_bind_eq_ok_iff.mp hread
                cases run_pure_eq_ok_iff.mp hread
                obtain ⟨hwhole, hframes, rfl, rfl⟩ := run_sampleCount_eq_ok_iff.mp hcount
                obtain ⟨rfl, -⟩ := run_take_eq_ok_iff.mp hname
                obtain ⟨lengthBytes, rfl, hfour, hvalue⟩ := run_word_eq_ok_iff.mp hlength
                refine ⟨⟨lengthBytes, hfour, hvalue.trans hwhole.symm, ?_⟩, hframes⟩
                rw [htag, List.append_assoc]
          case isFalse =>
            obtain ⟨_, _, hskip, hread⟩ := run_bind_eq_ok_iff.mp hread
            exact (ih hread).of_suffix ((Consumes.take length _ _ _ hskip).trans hchunk)

/-- The samples that a header announces are the end of the file, behind the length of the data
chunk that holds them. -/
theorem endsWithData_of_run_readHeader
    (hread : readHeader.run bytes = .ok ((format, count), data)) :
    EndsWithData bytes format count data := by
  rw [readHeader] at hread
  obtain ⟨_, _, hriff, hread⟩ := run_bind_eq_ok_iff.mp hread
  obtain ⟨_, hread⟩ := run_expect_bind_eq_ok_iff.mp hread
  obtain ⟨_, _, hsize, hread⟩ := run_bind_eq_ok_iff.mp hread
  obtain ⟨_, _, hwave, hread⟩ := run_bind_eq_ok_iff.mp hread
  obtain ⟨_, hread⟩ := run_expect_bind_eq_ok_iff.mp hread
  obtain ⟨remaining, _, hget, hread⟩ := run_bind_eq_ok_iff.mp hread
  cases hget
  exact (endsWithData_of_run_readChunks hread).of_suffix ((Consumes.take 4 _ _ _ hwave).trans
    ((Consumes.word 4 _ _ _ hsize).trans (Consumes.take 4 _ _ _ hriff)))

/-! ## Codes in containers -/

def Format.container (format : Format) (data : Bytes) (index : Nat) : Bytes :=
  (data.drop (index * format.width)).take format.width

/-- The code that a container stores: an offset from the middle of a single byte, otherwise two's
complement in the low bits. -/
def Format.code (format : Format) (container : Bytes) : Int :=
  if format.width = 1 then (ofLittleEndian container : Int) - 128
  else Int.bmod (ofLittleEndian container) (2 ^ format.bits)

/-- The widths and bits of containers whose codes can be read. -/
def Format.HoldsCodes (format : Format) : Prop :=
  (format.width, format.bits) ∈ [(1, 8), (2, 16), (3, 24), (4, 24), (4, 32)]

instance (format : Format) : Decidable format.HoldsCodes :=
  inferInstanceAs (Decidable ((format.width, format.bits) ∈ _))

/-- Two's complement in the low bits of a number. -/
theorem signed_mod_eq_bmod {bits : Nat} (hbits : 0 < bits) (value : Nat) :
    signed bits (value % 2 ^ bits) = Int.bmod value (2 ^ bits) := by
  obtain ⟨half, rfl⟩ : ∃ half, bits = half + 1 := ⟨bits - 1, by omega⟩
  have hdouble : (2 : Nat) ^ (half + 1) = 2 * 2 ^ half := Nat.pow_succ'
  have hpow : ∀ exponent, Nat.pow 2 exponent = 2 ^ exponent := fun _ => rfl
  rw [signed, Int.bmod, Nat.add_sub_cancel, hpow, hpow, Int.natCast_mod]
  split <;> split <;> omega

theorem signed_eq_bmod {bits value : Nat} (hbits : 0 < bits) (hvalue : value < 2 ^ bits) :
    signed bits value = Int.bmod value (2 ^ bits) := by
  rw [← signed_mod_eq_bmod hbits, Nat.mod_eq_of_lt hvalue]

theorem run_word_map_eq_ok_iff {width : Nat} {f : Nat → β} {value : β} :
    (Reader.word width >>= fun number => pure (f number)).run bytes = .ok (value, rest) ↔
      ∃ container, bytes = container ++ rest ∧ container.length = width ∧
        f (ofLittleEndian container) = value := by
  rw [run_bind_eq_ok_iff]
  simp only [run_word_eq_ok_iff, run_pure_eq_ok_iff, Prod.mk.injEq]
  constructor
  · rintro ⟨_, _, ⟨container, hbytes, hlength, rfl⟩, hvalue, rfl⟩
    exact ⟨container, hbytes, hlength, hvalue⟩
  · rintro ⟨container, hbytes, hlength, hvalue⟩
    exact ⟨_, _, ⟨container, hbytes, hlength, rfl⟩, hvalue, rfl⟩

/-- A code is read from its container, if the container is of a kind that holds codes. -/
theorem run_readCode_eq_ok_iff {code : Int} :
    (readCode format).run bytes = .ok (code, rest) ↔
      format.HoldsCodes ∧ ∃ container, bytes = container ++ rest ∧
        container.length = format.width ∧ format.code container = code := by
  obtain ⟨channels, sampleRate, width, bits, encoding⟩ := format
  -- A number of some bytes is the code of its container, as every kind of container reads it.
  have hword {f : Nat → Int} (hholds : (width, bits) ∈ [(1, 8), (2, 16), (3, 24), (4, 24), (4, 32)])
      (hf : ∀ container : Bytes, container.length = width → f (ofLittleEndian container) =
        Format.code ⟨channels, sampleRate, width, bits, encoding⟩ container) :
      (Reader.word width >>= fun number => pure (f number)).run bytes = .ok (code, rest) ↔
        Format.HoldsCodes ⟨channels, sampleRate, width, bits, encoding⟩ ∧
          ∃ container, bytes = container ++ rest ∧ container.length = width ∧
            Format.code ⟨channels, sampleRate, width, bits, encoding⟩ container = code := by
    rw [run_word_map_eq_ok_iff, Format.HoldsCodes, and_iff_right hholds]
    exact exists_congr fun container => and_congr_right fun _ => and_congr_right fun hlength => by
      rw [hf container hlength]
  have hlow (hwidth : width ≠ 1) (container : Bytes) :
      Format.code ⟨channels, sampleRate, width, bits, encoding⟩ container =
        Int.bmod (ofLittleEndian container) (2 ^ bits) := if_neg hwidth
  have hlt (container : Bytes) (hlength : container.length = width) :
      ofLittleEndian container < 2 ^ (8 * width) := by
    rw [pow_mul, ← hlength]
    exact ofLittleEndian_lt container
  simp only [readCode]
  split
  case h_1 => exact hword (by decide) fun _ _ => rfl
  case h_2 =>
    refine hword (by decide) fun container hlength => ?_
    rw [hlow (by decide), signed_eq_bmod (by decide) (hlt container hlength)]
  case h_3 =>
    refine hword (by decide) fun container hlength => ?_
    rw [hlow (by decide), signed_eq_bmod (by decide) (hlt container hlength)]
  case h_4 =>
    refine hword (by decide) fun container _ => ?_
    rw [hlow (by decide)]
    exact signed_mod_eq_bmod (by decide) (ofLittleEndian container)
  case h_5 =>
    refine hword (by decide) fun container hlength => ?_
    rw [hlow (by decide), signed_eq_bmod (by decide) (hlt container hlength)]
  case h_6 hbyte htwo hthree hpadded hfour =>
    refine iff_of_false run_throw_ne_ok fun hholds => ?_
    simp only [Format.HoldsCodes, List.mem_cons, Prod.mk.injEq, List.not_mem_nil,
      or_false] at hholds
    rcases hholds.1 with hkind | hkind | hkind | hkind | hkind
    · exact hbyte hkind.1 hkind.2
    · exact htwo hkind.1 hkind.2
    · exact hthree hkind.1 hkind.2
    · exact hpadded hkind.1 hkind.2
    · exact hfour hkind.1 hkind.2

/-! ## Codes one after the other -/

theorem container_succ (format : Format) (data : Bytes) (index : Nat) :
    format.container data (index + 1) = format.container (data.drop format.width) index := by
  rw [Format.container, Format.container, List.drop_drop, Nat.succ_mul, Nat.add_comm]

def Format.codes (format : Format) (data : Bytes) (count : Nat) : List Int :=
  (List.range count).map fun index => format.code (format.container data index)

theorem codes_succ (format : Format) (data : Bytes) (count : Nat) :
    format.codes data (count + 1) =
      format.code (data.take format.width) :: format.codes (data.drop format.width) count := by
  rw [Format.codes, List.range_succ_eq_map, List.map_cons, List.map_map]
  simp only [Function.comp_def, container_succ]
  rw [Format.container, Nat.zero_mul, List.drop_zero, Format.codes]

/-- Every container is there and is of a kind that holds codes, unless there is none. -/
def Format.Readable (format : Format) (count : Nat) (data : Bytes) : Prop :=
  count = 0 ∨ format.HoldsCodes ∧ count * format.width ≤ data.length

instance (format : Format) (count : Nat) (data : Bytes) :
    Decidable (format.Readable count data) :=
  inferInstanceAs (Decidable (count = 0 ∨ _))

theorem run_readCodes (hreadable : format.Readable count data) :
    (readMany (readCode format) count).run data =
      .ok (format.codes data count, data.drop (count * format.width)) := by
  induction count generalizing data with
  | zero =>
      rw [Nat.zero_mul, List.drop_zero]
      rfl
  | succ count ih =>
      obtain ⟨hholds, henough⟩ := hreadable.resolve_left (Nat.succ_ne_zero count)
      rw [Nat.succ_mul] at henough
      have hfirst : (readCode format).run data =
          .ok (format.code (data.take format.width), data.drop format.width) :=
        run_readCode_eq_ok_iff.mpr ⟨hholds, _, (List.take_append_drop _ _).symm,
          List.length_take_of_le (by omega), rfl⟩
      have hreadable : format.Readable count (data.drop format.width) :=
        .inr ⟨hholds, by rw [List.length_drop]; omega⟩
      rw [readMany, run_bind_of_ok hfirst, run_bind_of_ok (ih hreadable), codes_succ,
        List.drop_drop, Nat.succ_mul, Nat.add_comm]
      rfl

theorem readable_of_run_readCodes {codes : List Int}
    (hrun : (readMany (readCode format) count).run data = .ok (codes, rest)) :
    format.Readable count data := by
  induction count generalizing data codes rest with
  | zero => exact .inl rfl
  | succ count ih =>
      rw [readMany] at hrun
      obtain ⟨code, behind, hfirst, hrun⟩ := run_bind_eq_ok_iff.mp hrun
      obtain ⟨codes, _, hrest, -⟩ := run_bind_eq_ok_iff.mp hrun
      obtain ⟨hholds, container, rfl, hlength, -⟩ := run_readCode_eq_ok_iff.mp hfirst
      have hbehind : count * format.width ≤ behind.length := by
        rcases ih hrest with rfl | ⟨-, henough⟩
        · rw [Nat.zero_mul]
          exact Nat.zero_le _
        · exact henough
      refine .inr ⟨hholds, ?_⟩
      rw [List.length_append, hlength, Nat.succ_mul]
      omega

/-- Codes are read from consecutive containers, if each of them can be. -/
theorem exists_run_readCodes_iff {codes : List Int} :
    (∃ rest, (readMany (readCode format) count).run data = .ok (codes, rest)) ↔
      format.Readable count data ∧ codes = format.codes data count := by
  constructor
  · rintro ⟨rest, hrun⟩
    have hreadable := readable_of_run_readCodes hrun
    rw [run_readCodes hreadable, Except.ok.injEq, Prod.mk.injEq] at hrun
    exact ⟨hreadable, hrun.1.symm⟩
  · rintro ⟨hreadable, rfl⟩
    exact ⟨_, run_readCodes hreadable⟩

/-! ## Integer recordings -/

variable {α : Type} [Scalar α]

/-- The samples of an integer file before its channels are mixed. -/
def Format.interleaved (format : Format) (data : Bytes) (count : Nat) : Signal α :=
  .tabulate count fun index => ofCode format.bits (format.code (format.container data index))

theorem toArray_map_ofCode (format : Format) (data : Bytes) (count : Nat) :
    ((format.codes data count).map (ofCode format.bits)).toArray =
      (format.interleaved data count : Signal α) := by
  apply Array.ext
  · simp [Format.codes, Format.interleaved]
  · intro index hleft hright
    simp [Format.codes, Format.interleaved, Signal.tabulate]

/-- Integer samples are read exactly if the scale is in range and every container can be. -/
theorem readSamples_eq_ok_iff (hinteger : format.encoding = .integer) {signal : Signal α} :
    readSamples format count data = .ok signal ↔
      format.bits ≤ 64 ∧ format.Readable count data ∧ signal = format.interleaved data count := by
  rw [readSamples, hinteger]
  dsimp only
  by_cases hwide : 64 < format.bits
  · rw [if_pos hwide]
    simp [not_le.mpr hwide]
  · rw [if_neg hwide, and_iff_right (not_lt.mp hwide)]
    cases hrun : (readMany (readCode format) count).run data with
    | error cause =>
        have hunreadable : ¬ format.Readable count data := fun hreadable => by
          obtain ⟨rest, hok⟩ := exists_run_readCodes_iff.mpr ⟨hreadable, rfl⟩
          rw [hrun] at hok
          cases hok
        simp [hunreadable]
    | ok outcome =>
        obtain ⟨codes, rest⟩ := outcome
        obtain ⟨hreadable, rfl⟩ := exists_run_readCodes_iff.mp ⟨rest, hrun⟩
        dsimp only
        rw [and_iff_right hreadable, toArray_map_ofCode, Except.ok.injEq, eq_comm]

/-- An integer file is decoded exactly if the scale is in range and every container can be read,
to the mixed values of its codes. -/
theorem decode_eq_ok_iff {fileSystem : FileSystem} {path : String}
    (hread : fileSystem.read path = .ok bytes)
    (hheader : readHeader.run bytes = .ok ((format, count), data))
    (hinteger : format.encoding = .integer) {recording : Recording α} :
    decode fileSystem path = .ok recording ↔
      format.bits ≤ 64 ∧ format.Readable count data ∧
        recording = ⟨mixToMono (format.interleaved data count) format.channels,
          format.sampleRate⟩ := by
  rw [decode, hread]
  dsimp only
  rw [decodeBytes, hheader]
  dsimp only
  simp only [bind_eq_ok_iff, pure_eq_ok_iff, readSamples_eq_ok_iff hinteger]
  constructor
  · rintro ⟨_, ⟨hbits, hreadable, rfl⟩, rfl⟩
    exact ⟨hbits, hreadable, rfl⟩
  · rintro ⟨hbits, hreadable, rfl⟩
    exact ⟨_, ⟨hbits, hreadable, rfl⟩, rfl⟩

end Glottis.Wave
