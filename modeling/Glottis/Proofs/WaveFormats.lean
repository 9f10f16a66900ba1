import Mathlib
import Glottis.Wave.Reader
import Glottis.Wave.Writer
import Glottis.Proofs.WaveReaders

/-!
# Formats that a header describes

A format chunk has a common part and a rest that depends on the encoding.  Whatever is
accepted has a channel, a container and a used bit, so that no count is divided by zero.
The bits of a container are not limited otherwise by a chunk without an extension, nor
are the valid bits of an extensible chunk, while the full scale of integer samples is a
64-bit power of two.
-/

namespace Glottis.Wave

variable {length : Nat} {common : CommonFormat} {format : Format} {bytes rest : Bytes}

/-! ## The common part -/

/-- The conditions on the common part of a format chunk. -/
structure CommonFormat.IsConsistent (common : CommonFormat) : Prop where
  channels_ne_zero : common.channels ≠ 0
  width_lt : 8 * common.width < 0x10000
  bits_le : common.bits ≤ 8 * common.width
  rate_lt : common.alignment * common.sampleRate < 0x100000000
  byteRate_eq : common.byteRate = common.alignment * common.sampleRate
  bits_whole : common.bits % 8 = 0
  bits_ne_zero : common.bits ≠ 0

theorem run_check_eq_ok_iff {result : Unit × Bytes} :
    common.check.run bytes = .ok result ↔ common.IsConsistent ∧ ((), bytes) = result := by
  rw [CommonFormat.check]
  simp only [run_expect_bind_eq_ok_iff, run_expect_eq_ok_iff, bne_iff_ne, Bool.and_eq_true,
    decide_eq_true_eq]
  constructor
  · rintro ⟨hchannels, ⟨hwidth, hbits⟩, ⟨hrate, hbyteRate⟩, hwhole, hpositive, hresult⟩
    exact ⟨⟨hchannels, hwidth, hbits, hrate, hbyteRate, hwhole, hpositive⟩, hresult⟩
  · rintro ⟨⟨hchannels, hwidth, hbits, hrate, hbyteRate, hwhole, hpositive⟩, hresult⟩
    exact ⟨hchannels, ⟨hwidth, hbits⟩, ⟨hrate, hbyteRate⟩, hwhole, hpositive, hresult⟩

/-! ## The rest of a chunk -/

/-- The formats that a chunk of some length with some common part describes. -/
inductive Describes (length : Nat) (common : CommonFormat) : Format → Prop where
  | plain (htag : common.encodingTag = 1) (hlength : length = 16) :
      Describes length common (common.toFormat common.bits .integer)
  | pulseCode (htag : common.encodingTag = 1) (hlength : length = 18 ∨ length = 40)
      (hbits : common.bits = 8 ∨ common.bits = 16 ∨ common.bits = 24) :
      Describes length common (common.toFormat common.bits .integer)
  | single (htag : common.encodingTag = 3) (hlength : length = 16 ∨ length = 18)
      (hbits : common.bits = 32) :
      Describes length common (common.toFormat common.bits .float)
  | extensible (htag : common.encodingTag = 0xfffe) (hlength : 40 ≤ length) {validBits : Nat}
      (hvalid : validBits < 0x10000) (encoding : Encoding) :
      Describes length common
        (common.toFormat (if 0 < validBits then validBits else common.bits) encoding)

theorem describes_of_run_readInteger (htag : common.encodingTag = 1)
    (hread : (readInteger length common).run bytes = .ok (format, rest)) :
    Describes length common format := by
  rw [readInteger, run_expect_bind_eq_ok_iff] at hread
  obtain ⟨hlength, hread⟩ := hread
  simp only [Bool.or_eq_true, decide_eq_true_eq] at hlength
  dsimp only at hread
  -- Both ends of the chunk give the bits of the common part.
  have hformat {bytes : Bytes} (hend : StateT.run (if length = 40 then do
      let _ ← Reader.take 22
      pure (common.toFormat common.bits .integer)
      else (pure (common.toFormat common.bits .integer) : Reader Format)) bytes =
        .ok (format, rest)) : common.toFormat common.bits .integer = format := by
    split at hend
    · obtain ⟨_, _, _, hend⟩ := run_bind_eq_ok_iff.mp hend
      exact (Prod.mk.inj (run_pure_eq_ok_iff.mp hend)).1
    · exact (Prod.mk.inj (run_pure_eq_ok_iff.mp hend)).1
  split at hread
  case isFalse hplain =>
    rw [← hformat hread]
    exact .plain htag (by simpa using hplain)
  case isTrue hextended =>
    obtain ⟨_, _, _, hread⟩ := run_bind_eq_ok_iff.mp hread
    obtain ⟨hbits, hread⟩ := run_expect_bind_eq_ok_iff.mp hread
    simp only [Bool.or_eq_true, decide_eq_true_eq] at hbits
    rw [← hformat hread]
    have hne : length ≠ 16 := by simpa using hextended
    exact .pulseCode htag (by omega) (by omega)

theorem describes_of_run_readFloat (htag : common.encodingTag = 3)
    (hread : (readFloat length common).run bytes = .ok (format, rest)) :
    Describes length common format := by
  rw [readFloat, run_expect_bind_eq_ok_iff] at hread
  obtain ⟨hlength, hread⟩ := hread
  simp only [Bool.or_eq_true, decide_eq_true_eq] at hlength
  dsimp only at hread
  have hformat {bytes : Bytes} (hend : StateT.run (do
      Reader.expect (common.bits = 32) .bitsNotSingle
      return common.toFormat common.bits .float) bytes = .ok (format, rest)) :
      Describes length common format := by
    obtain ⟨hbits, hend⟩ := run_expect_bind_eq_ok_iff.mp hend
    rw [← (Prod.mk.inj (run_pure_eq_ok_iff.mp hend)).1]
    exact .single htag hlength (of_decide_eq_true hbits)
  split at hread
  case isTrue =>
    obtain ⟨_, _, _, hread⟩ := run_bind_eq_ok_iff.mp hread
    exact hformat (run_expect_bind_eq_ok_iff.mp hread).2
  case isFalse => exact hformat hread

theorem describes_of_run_readExtensible (htag : common.encodingTag = 0xfffe)
    (hread : (readExtensible length common).run bytes = .ok (format, rest)) :
    Describes length common format := by
  rw [readExtensible, run_expect_bind_eq_ok_iff] at hread
  obtain ⟨hlength, hread⟩ := hread
  obtain ⟨_, _, _, hread⟩ := run_bind_eq_ok_iff.mp hread
  obtain ⟨_, hread⟩ := run_expect_bind_eq_ok_iff.mp hread
  obtain ⟨validBits, _, hvalid, hread⟩ := run_bind_eq_ok_iff.mp hread
  obtain ⟨_, _, _, hread⟩ := run_bind_eq_ok_iff.mp hread
  obtain ⟨_, _, _, hread⟩ := run_bind_eq_ok_iff.mp hread
  have hbound : validBits < 0x10000 := by
    obtain ⟨front, -, hfront, rfl⟩ := run_word_eq_ok_iff.mp hvalid
    have hlt := ofLittleEndian_lt front
    rwa [hfront] at hlt
  dsimp only at hread
  split at hread
  case isTrue =>
    rw [← (Prod.mk.inj (run_pure_eq_ok_iff.mp hread)).1]
    exact .extensible htag (of_decide_eq_true hlength) hbound .integer
  case isFalse =>
    split at hread
    case isTrue =>
      rw [← (Prod.mk.inj (run_pure_eq_ok_iff.mp hread)).1]
      exact .extensible htag (of_decide_eq_true hlength) hbound .float
    case isFalse => exact absurd hread run_throw_ne_ok

/-- A format chunk that is accepted has a consistent common part that describes the
format. -/
theorem exists_describes_of_run_readFormat
    (hread : (readFormat length).run bytes = .ok (format, rest)) :
    ∃ common : CommonFormat, common.IsConsistent ∧ Describes length common format := by
  rw [readFormat, run_expect_bind_eq_ok_iff] at hread
  obtain ⟨_, hread⟩ := hread
  obtain ⟨common, _, _, hread⟩ := run_bind_eq_ok_iff.mp hread
  obtain ⟨_, _, hcheck, hread⟩ := run_bind_eq_ok_iff.mp hread
  refine ⟨common, (run_check_eq_ok_iff.mp hcheck).1, ?_⟩
  split at hread
  case isTrue htag => exact describes_of_run_readInteger htag hread
  case isFalse =>
    split at hread
    case isTrue htag => exact describes_of_run_readFloat htag hread
    case isFalse =>
      split at hread
      case isTrue htag => exact describes_of_run_readExtensible htag hread
      case isFalse => exact absurd hread run_throw_ne_ok

/-! ## The chunks of a file -/

/-- The format in force at the data chunk is the one at the start or was described by a
format chunk. -/
theorem eq_or_describes_of_run_readChunks {fuel : Nat} {start : Option Format} {count : Nat}
    (hread : (readChunks fuel start).run bytes = .ok ((format, count), rest)) :
    start = some format ∨
      ∃ length, ∃ common : CommonFormat, common.IsConsistent ∧ Describes length common format := by
  induction fuel generalizing start bytes with
  | zero => exact absurd hread run_throw_ne_ok
  | succ fuel ih =>
      rw [readChunks] at hread
      obtain ⟨name, _, _, hread⟩ := run_bind_eq_ok_iff.mp hread
      obtain ⟨length, _, _, hread⟩ := run_bind_eq_ok_iff.mp hread
      split at hread
      case isTrue =>
        obtain ⟨described, _, hdescribed, hread⟩ := run_bind_eq_ok_iff.mp hread
        rcases ih hread with hformat | hdescribes
        · obtain ⟨common, hcommon⟩ := exists_describes_of_run_readFormat hdescribed
          rw [Option.some.inj hformat] at hcommon
          exact .inr ⟨length, common, hcommon⟩
        · exact .inr hdescribes
      case isFalse =>
        split at hread
        case isTrue =>
          obtain ⟨_, _, _, hread⟩ := run_bind_eq_ok_iff.mp hread
          exact ih hread
        case isFalse =>
          split at hread
          case isTrue =>
            cases start with
            | none => exact absurd hread run_throw_ne_ok
            | some current =>
                obtain ⟨_, _, _, hread⟩ := run_bind_eq_ok_iff.mp hread
                cases run_pure_eq_ok_iff.mp hread
                exact .inl rfl
          case isFalse =>
            obtain ⟨_, _, _, hread⟩ := run_bind_eq_ok_iff.mp hread
            exact ih hread

theorem exists_describes_of_run_readHeader {count : Nat}
    (hread : readHeader.run bytes = .ok ((format, count), rest)) :
    ∃ length, ∃ common : CommonFormat, common.IsConsistent ∧ Describes length common format := by
  rw [readHeader] at hread
  obtain ⟨_, _, _, hread⟩ := run_bind_eq_ok_iff.mp hread
  obtain ⟨_, hread⟩ := run_expect_bind_eq_ok_iff.mp hread
  obtain ⟨_, _, _, hread⟩ := run_bind_eq_ok_iff.mp hread
  obtain ⟨_, _, _, hread⟩ := run_bind_eq_ok_iff.mp hread
  obtain ⟨_, hread⟩ := run_expect_bind_eq_ok_iff.mp hread
  obtain ⟨_, _, _, hread⟩ := run_bind_eq_ok_iff.mp hread
  exact (eq_or_describes_of_run_readChunks hread).resolve_left (by simp)

/-! ## What a decoder relies on -/

/-- A format whose counts can be divided by its channels and its width, and whose bits
have a highest one. -/
structure Format.IsUsable (format : Format) : Prop where
  channels_pos : 0 < format.channels
  width_pos : 0 < format.width
  bits_pos : 0 < format.bits
  bits_lt : format.bits < 0x10000

theorem Describes.isUsable (hcommon : common.IsConsistent)
    (hdescribes : Describes length common format) : format.IsUsable := by
  have hchannels : 0 < common.channels := Nat.pos_of_ne_zero hcommon.channels_ne_zero
  have hbits : 0 < common.bits := Nat.pos_of_ne_zero hcommon.bits_ne_zero
  have hle := hcommon.bits_le
  have hlt := hcommon.width_lt
  have hwidth : 0 < common.width := by omega
  cases hdescribes with
  | plain | pulseCode | single => exact ⟨hchannels, hwidth, hbits, hle.trans_lt hlt⟩
  | extensible =>
      refine ⟨hchannels, hwidth, ?_, ?_⟩ <;> simp only [CommonFormat.toFormat] <;> split <;> omega

/-- Integer samples of more bits than a 64-bit scale has come from a chunk without an
extension or from an extensible one. -/
theorem Describes.origin_of_wide (hdescribes : Describes length common format)
    (hencoding : format.encoding = .integer) (hwide : 64 < format.bits) :
    common.encodingTag = 1 ∧ length = 16 ∨ common.encodingTag = 0xfffe ∧ 40 ≤ length := by
  cases hdescribes with
  | plain htag hlength => exact .inl ⟨htag, hlength⟩
  | pulseCode htag hlength hbits =>
      simp only [CommonFormat.toFormat] at hwide
      omega
  | single => cases hencoding
  | extensible htag hlength => exact .inr ⟨htag, hlength⟩

variable {α : Type} [Scalar α]

theorem readSamples_eq_scaleOutOfRange_iff {count : Nat} :
    (readSamples format count bytes : Except DecodeError (Signal α)) = .error .scaleOutOfRange ↔
      format.encoding = .integer ∧ 64 < format.bits := by
  rw [readSamples]
  cases format.encoding with
  | float => cases (readMany (readSingle format) count).run bytes <;> simp
  | integer =>
      by_cases hwide : 64 < format.bits
      · simp [hwide]
      · cases (readMany (readCode format) count).run bytes <;> simp [hwide]

theorem decodeBytes_eq_scaleOutOfRange_iff (path : String) (bytes : Bytes) :
    (decodeBytes path bytes : Except DecodeError (Recording α)) = .error .scaleOutOfRange ↔
      ∃ format count rest, readHeader.run bytes = .ok ((format, count), rest) ∧
        format.encoding = .integer ∧ 64 < format.bits := by
  rw [decodeBytes]
  cases hheader : readHeader.run bytes with
  | error cause => simp
  | ok header =>
      obtain ⟨⟨format, count⟩, rest⟩ := header
      have hsamples := @readSamples_eq_scaleOutOfRange_iff format rest α _ count
      simp only [Except.ok.injEq, Prod.mk.injEq]
      constructor
      · intro herror
        refine ⟨format, count, rest, ⟨⟨rfl, rfl⟩, rfl⟩, hsamples.mp ?_⟩
        revert herror
        cases (readSamples format count rest : Except DecodeError (Signal α)) with
        | ok interleaved => exact fun herror => nomatch herror
        | error cause => exact fun herror => congrArg Except.error (Except.error.inj herror)
      · rintro ⟨_, _, _, ⟨⟨rfl, rfl⟩, rfl⟩, hwide⟩
        rw [hsamples.mpr hwide]
        rfl

/-- Every accepted header describes a usable format, and decoding leaves the range of the
scale exactly at integer samples of more than sixty-four bits.  Only a chunk without an
extension and an extensible one can describe these; every other file gives a recording or
a reported error. -/
theorem decode_eq_scaleOutOfRange_iff (fileSystem : FileSystem) (path : String) :
    (∀ bytes, fileSystem.read path = .ok bytes → ∀ format count rest,
      readHeader.run bytes = .ok ((format, count), rest) → format.IsUsable) ∧
    ((decode fileSystem path : Except DecodeError (Recording α)) = .error .scaleOutOfRange ↔
      ∃ bytes format count rest length, ∃ common : CommonFormat,
        fileSystem.read path = .ok bytes ∧
        readHeader.run bytes = .ok ((format, count), rest) ∧
        common.IsConsistent ∧ Describes length common format ∧
        (common.encodingTag = 1 ∧ length = 16 ∨ common.encodingTag = 0xfffe ∧ 40 ≤ length) ∧
        format.encoding = .integer ∧ 64 < format.bits) := by
  constructor
  · intro bytes _ format count rest hheader
    obtain ⟨_, _, hcommon, hdescribes⟩ := exists_describes_of_run_readHeader hheader
    exact hdescribes.isUsable hcommon
  · rw [decode]
    cases hread : fileSystem.read path with
    | error error => simp
    | ok bytes =>
        dsimp only
        rw [decodeBytes_eq_scaleOutOfRange_iff]
        constructor
        · rintro ⟨format, count, rest, hheader, hencoding, hwide⟩
          obtain ⟨length, common, hcommon, hdescribes⟩ :=
            exists_describes_of_run_readHeader hheader
          exact ⟨bytes, format, count, rest, length, common, rfl, hheader, hcommon, hdescribes,
            hdescribes.origin_of_wide hencoding hwide, hencoding, hwide⟩
        · rintro ⟨_, format, count, rest, _, _, hbytes, hheader, -, -, -, hencoding, hwide⟩
          cases hbytes
          exact ⟨format, count, rest, hheader, hencoding, hwide⟩

end Glottis.Wave
