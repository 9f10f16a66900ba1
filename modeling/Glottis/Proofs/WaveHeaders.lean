import Mathlib
import Glottis.Binary64
import Glottis.Wave.Reader
import Glottis.Wave.Writer
import Glottis.Proofs.WaveReaders
import Glottis.Proofs.WaveFormats

/-!
# Headers as they are written

A header is a sequence of chunks, each a tag, a length and contents.  Reading one chunk
consumes exactly its bytes, so the format that a written header describes can be told
from its parts.  For extensible headers this shows that every number of valid bits is
accepted, and which of them a decoder can scale.
-/

namespace Glottis.Wave

open Reader

variable {length : Nat} {common : CommonFormat} {format : Format} {bytes rest : Bytes}

def CommonFormat.toBytes (common : CommonFormat) : Bytes :=
  toLittleEndian 2 common.encodingTag ++ toLittleEndian 2 common.channels ++
    toLittleEndian 4 common.sampleRate ++ toLittleEndian 4 common.byteRate ++
    toLittleEndian 2 common.alignment ++ toLittleEndian 2 common.bits

/-- The fields of a common part fit their bytes. -/
structure CommonFormat.Fits (common : CommonFormat) : Prop where
  encodingTag_lt : common.encodingTag < 256 ^ 2
  channels_lt : common.channels < 256 ^ 2
  sampleRate_lt : common.sampleRate < 256 ^ 4
  byteRate_lt : common.byteRate < 256 ^ 4
  alignment_lt : common.alignment < 256 ^ 2
  bits_lt : common.bits < 256 ^ 2

theorem run_read_toBytes (hfits : common.Fits) (rest : Bytes) :
    CommonFormat.read.run (common.toBytes ++ rest) = .ok (common, rest) := by
  simp only [CommonFormat.toBytes, List.append_assoc]
  rw [CommonFormat.read, run_bind_of_ok (run_word_append hfits.encodingTag_lt _),
    run_bind_of_ok (run_word_append hfits.channels_lt _),
    run_bind_of_ok (run_word_append hfits.sampleRate_lt _),
    run_bind_of_ok (run_word_append hfits.byteRate_lt _),
    run_bind_of_ok (run_word_append hfits.alignment_lt _),
    run_bind_of_ok (run_word_append hfits.bits_lt _)]
  rfl

def chunk (name : String) (contents : Bytes) : Bytes :=
  tag name ++ toLittleEndian 4 contents.length ++ contents

def riff (size : Nat) (chunks : Bytes) : Bytes :=
  tag "RIFF" ++ toLittleEndian 4 size ++ tag "WAVE" ++ chunks

theorem run_take_tag {name : String} (hname : (tag name).length = 4) (rest : Bytes) :
    (take 4).run (tag name ++ rest) = .ok (tag name, rest) :=
  run_take_append hname rest

theorem run_readHeader_riff {size : Nat} (chunks : Bytes) :
    readHeader.run (riff size chunks) = (readChunks (chunks.length + 1) none).run chunks := by
  have hsize : (word 4).run (toLittleEndian 4 size ++ (tag "WAVE" ++ chunks)) =
      .ok (ofLittleEndian (toLittleEndian 4 size), tag "WAVE" ++ chunks) :=
    run_word_eq_ok_iff.mpr ⟨_, rfl, length_toLittleEndian 4 size, rfl⟩
  simp only [riff, List.append_assoc]
  rw [readHeader, run_bind_of_ok (run_take_tag (rfl : (tag "RIFF").length = 4) _),
    run_bind_of_ok (run_expect_of (decide_eq_true rfl) _ _), run_bind_of_ok hsize,
    run_bind_of_ok (run_take_tag (rfl : (tag "WAVE").length = 4) _),
    run_bind_of_ok (run_expect_of (decide_eq_true rfl) _ _)]
  rfl

theorem run_readChunks_format {fuel : Nat} {start : Option Format} {contents : Bytes}
    (hlength : contents.length < 256 ^ 4)
    (hread : ∀ rest, (readFormat contents.length).run (contents ++ rest) = .ok (format, rest)) :
    (readChunks (fuel + 1) start).run (chunk "fmt " contents ++ rest) =
      (readChunks fuel (some format)).run rest := by
  simp only [chunk, List.append_assoc]
  rw [readChunks, run_bind_of_ok (run_take_tag (rfl : (tag "fmt ").length = 4) _),
    run_bind_of_ok (run_word_append hlength _), if_pos rfl, run_bind_of_ok (hread rest)]

theorem run_readChunks_data {fuel : Nat} {samples : Bytes} (hlength : samples.length < 256 ^ 4)
    (hsamples : samples.length / format.width * format.width = samples.length)
    (hframes : samples.length / format.width % format.channels = 0) :
    (readChunks (fuel + 1) (some format)).run (chunk "data" samples) =
      .ok ((format, samples.length / format.width), samples) := by
  simp only [chunk, List.append_assoc]
  rw [readChunks, run_bind_of_ok (run_take_tag (rfl : (tag "data").length = 4) _),
    run_bind_of_ok (run_word_append hlength _), if_neg (by decide), if_neg (by decide), if_pos rfl]
  dsimp only
  have hcount : (sampleCount format samples.length).run samples =
      .ok (samples.length / format.width, samples) := by
    rw [sampleCount, run_bind_of_ok (run_expect_of (decide_eq_true hsamples) _ _),
      run_bind_of_ok (run_expect_of (decide_eq_true hframes) _ _)]
    rfl
  rw [run_bind_of_ok hcount]
  rfl

/-- A file of a format chunk and a data chunk. -/
theorem run_readHeader_chunks {size : Nat} {contents samples : Bytes}
    (hcontents : contents.length < 256 ^ 4) (hlength : samples.length < 256 ^ 4)
    (hread : ∀ rest, (readFormat contents.length).run (contents ++ rest) = .ok (format, rest))
    (hsamples : samples.length / format.width * format.width = samples.length)
    (hframes : samples.length / format.width % format.channels = 0) :
    readHeader.run (riff size (chunk "fmt " contents ++ chunk "data" samples)) =
      .ok ((format, samples.length / format.width), samples) := by
  obtain ⟨fuel, hfuel⟩ :
      ∃ fuel, (chunk "fmt " contents ++ chunk "data" samples).length + 1 = fuel + 1 + 1 := by
    refine ⟨contents.length + (chunk "data" samples).length + 7, ?_⟩
    have htag : (tag "fmt ").length = 4 := rfl
    simp only [chunk, List.length_append, length_toLittleEndian, htag]
    omega
  rw [run_readHeader_riff, hfuel, run_readChunks_format hcontents hread,
    run_readChunks_data hlength hsamples hframes]

/-! ## Format chunks -/

/-- A chunk without an extension describes integers of the bits of its common part. -/
theorem run_readFormat_plain (hfits : common.Fits) (hcommon : common.IsConsistent)
    (htag : common.encodingTag = 1) (rest : Bytes) :
    (readFormat 16).run (common.toBytes ++ rest) =
      .ok (common.toFormat common.bits .integer, rest) := by
  have hcheck : common.check.run rest = .ok ((), rest) :=
    run_check_eq_ok_iff.mpr ⟨hcommon, rfl⟩
  rw [readFormat, run_bind_of_ok (run_expect_of (decide_eq_true le_rfl) _ _),
    run_bind_of_ok (run_read_toBytes hfits rest), run_bind_of_ok hcheck, if_pos htag, readInteger,
    run_bind_of_ok (run_expect_of (by decide) _ _)]
  rfl

/-- The rest of an extensible chunk of integers with some valid bits, for some
arrangement of the channels. -/
def extension (validBits channelMask : Nat) : Bytes :=
  toLittleEndian 2 22 ++ toLittleEndian 2 validBits ++ toLittleEndian 4 channelMask ++
    encodingIdentifier 1

/-- An extensible chunk describes integers of its valid bits, however many. -/
theorem run_readFormat_extensible (hfits : common.Fits) (hcommon : common.IsConsistent)
    (htag : common.encodingTag = 0xfffe) {validBits : Nat} (hpositive : 0 < validBits)
    (hvalid : validBits < 256 ^ 2) (channelMask : Nat) (rest : Bytes) :
    (readFormat 40).run (common.toBytes ++ extension validBits channelMask ++ rest) =
      .ok (common.toFormat validBits .integer, rest) := by
  have hcheck (rest : Bytes) : common.check.run rest = .ok ((), rest) :=
    run_check_eq_ok_iff.mpr ⟨hcommon, rfl⟩
  have hmask : (word 4).run (toLittleEndian 4 channelMask ++ (encodingIdentifier 1 ++ rest)) =
      .ok (ofLittleEndian (toLittleEndian 4 channelMask), encodingIdentifier 1 ++ rest) :=
    run_word_eq_ok_iff.mpr ⟨_, rfl, length_toLittleEndian 4 channelMask, rfl⟩
  have hidentifier : (encodingIdentifier 1).length = 16 := rfl
  simp only [extension, List.append_assoc]
  rw [readFormat, run_bind_of_ok (run_expect_of (by decide) _ _),
    run_bind_of_ok (run_read_toBytes hfits _), run_bind_of_ok (hcheck _), if_neg (by omega),
    if_neg (by omega), if_pos htag, readExtensible, run_bind_of_ok (run_expect_of (by decide) _ _),
    run_bind_of_ok (run_word_append (by decide) _), run_bind_of_ok (run_expect_of (by decide) _ _),
    run_bind_of_ok (run_word_append hvalid _), run_bind_of_ok hmask,
    run_bind_of_ok (run_take_append hidentifier _), if_pos hpositive, if_pos rfl]
  rfl

/-- A file without samples whose extensible format chunk has some valid bits. -/
def extensibleFile (common : CommonFormat) (validBits channelMask : Nat) : Bytes :=
  riff 60 (chunk "fmt " (common.toBytes ++ extension validBits channelMask) ++ chunk "data" [])

theorem length_toBytes (common : CommonFormat) : common.toBytes.length = 16 := by
  simp only [CommonFormat.toBytes, List.length_append, length_toLittleEndian]

theorem run_readHeader_extensibleFile (hfits : common.Fits) (hcommon : common.IsConsistent)
    (htag : common.encodingTag = 0xfffe) {validBits : Nat} (hpositive : 0 < validBits)
    (hvalid : validBits < 256 ^ 2) (channelMask : Nat) :
    readHeader.run (extensibleFile common validBits channelMask) =
      .ok ((common.toFormat validBits .integer, 0), []) := by
  have hlength : (common.toBytes ++ extension validBits channelMask).length = 40 := by
    have hidentifier : (encodingIdentifier 1).length = 16 := rfl
    simp only [extension, List.length_append, length_toBytes, length_toLittleEndian, hidentifier]
  have hread (rest : Bytes) :
      (readFormat (common.toBytes ++ extension validBits channelMask).length).run
        (common.toBytes ++ extension validBits channelMask ++ rest) =
        .ok (common.toFormat validBits .integer, rest) := by
    rw [hlength]
    exact run_readFormat_extensible hfits hcommon htag hpositive hvalid channelMask rest
  have hempty : ([] : Bytes).length / (common.toFormat validBits .integer).width = 0 :=
    Nat.zero_div _
  rw [extensibleFile, run_readHeader_chunks (by rw [hlength]; decide) (by decide) hread
    (by rw [hempty]; exact Nat.zero_mul _) (by rw [hempty]; exact Nat.zero_mod _), hempty]

variable {α : Type} [Scalar α]

theorem mixToMono_empty (channels : Nat) : mixToMono (#[] : Signal α) channels = #[] := by
  rw [mixToMono]
  split
  · rfl
  · apply Array.eq_empty_of_size_eq_zero
    rw [Signal.size_tabulate]
    exact Nat.zero_div _

/-- An extensible file without samples is decoded exactly if it has at most sixty-four
valid bits, although every number of valid bits is accepted. -/
theorem decodeBytes_extensibleFile (hfits : common.Fits) (hcommon : common.IsConsistent)
    (htag : common.encodingTag = 0xfffe) {validBits : Nat} (hpositive : 0 < validBits)
    (hvalid : validBits < 256 ^ 2) (channelMask : Nat) (path : String) :
    (decodeBytes path (extensibleFile common validBits channelMask) :
        Except DecodeError (Recording α)) =
      if validBits ≤ 64 then .ok ⟨#[], common.sampleRate⟩ else .error .scaleOutOfRange := by
  have hsamples : (readSamples (common.toFormat validBits .integer) 0 [] :
      Except DecodeError (Signal α)) =
        if 64 < validBits then .error .scaleOutOfRange else .ok #[] := rfl
  rw [decodeBytes, run_readHeader_extensibleFile hfits hcommon htag hpositive hvalid]
  dsimp only
  rw [hsamples]
  by_cases hwide : 64 < validBits
  · rw [if_pos hwide, if_neg (by omega)]
    rfl
  · rw [if_neg hwide, if_pos (by omega)]
    exact congrArg Except.ok (congrArg (Recording.mk · common.sampleRate)
      (mixToMono_empty common.channels))

/-- Not every accepted header keeps the scale in range: sixty-five valid bits leave it. -/
theorem not_forall_decodeBytes_in_scale :
    ¬ ∀ (path : String) (bytes : Bytes),
      (decodeBytes path bytes : Except DecodeError (Recording Float)) ≠
        .error .scaleOutOfRange := by
  intro hscale
  have hfits : (⟨0xfffe, 1, 8000, 32000, 4, 16⟩ : CommonFormat).Fits := by
    constructor <;> decide
  have hcommon : (⟨0xfffe, 1, 8000, 32000, 4, 16⟩ : CommonFormat).IsConsistent := by
    constructor <;> decide
  exact hscale "a.wav" (extensibleFile ⟨0xfffe, 1, 8000, 32000, 4, 16⟩ 65 3)
    (decodeBytes_extensibleFile hfits hcommon rfl (by decide) (by decide) 3 "a.wav")

end Glottis.Wave
