import Glottis.FileSystem
import Glottis.Signal

/-!
# Wave recordings

A recording is a single channel of samples and a sample rate.  A wave file
stores interleaved samples of several channels, each in a container of some
bytes of which some bits are used, and states this in a header.
-/

namespace Glottis

/-- A mono recording; the sample rate is in hertz. -/
structure Recording (α : Type) where
  samples : Signal α
  sampleRate : Nat

/-- The length of a recording in seconds, zero where the rate is zero. -/
def Recording.duration {α : Type} [Scalar α] (recording : Recording α) : α :=
  if recording.sampleRate = 0 then 0
  else (recording.samples.size : α) / (recording.sampleRate : α)

namespace Wave

inductive Encoding where
  | integer
  | float
  deriving DecidableEq, Repr

/-- The layout of the samples: `width` bytes per sample of which `bits` are
used. -/
structure Format where
  channels : Nat
  sampleRate : Nat
  width : Nat
  bits : Nat
  encoding : Encoding
  deriving DecidableEq, Repr

/-- How a file contradicts the format of wave files. -/
inductive Defect where
  | noRiffTag
  | noWaveTag
  | missingFormat
  | formatTooShort
  | zeroChannels
  | bitsExceedWidth
  | inconsistentRate
  | bitsNotWholeBytes
  | zeroBits
  | unexpectedFormatSize
  | unexpectedExtraSize
  | unexpectedExtensibleSize
  | bitsNotPulseCode
  | bitsNotSingle
  | dataNotWholeSamples
  | dataNotWholeFrames
  deriving DecidableEq, Repr

def Defect.message : Defect → String
  | noRiffTag => "no RIFF tag found"
  | noWaveTag => "no WAVE tag found"
  | missingFormat => "missing fmt chunk"
  | formatTooShort => "invalid fmt chunk size"
  | zeroChannels => "file contains zero channels"
  | bitsExceedWidth => "sample bits exceeds size of sample"
  | inconsistentRate => "inconsistent fmt chunk"
  | bitsNotWholeBytes => "bits per sample is not a multiple of 8"
  | zeroBits => "bits per sample is 0"
  | unexpectedFormatSize => "unexpected fmt chunk size"
  | unexpectedExtraSize => "unexpected WAVEFORMATEX size"
  | unexpectedExtensibleSize => "unexpected WAVEFORMATEXTENSIBLE size"
  | bitsNotPulseCode => "bits per sample is not 8 or 16"
  | bitsNotSingle => "bits per sample is not 32"
  | dataNotWholeSamples => "data chunk length is not a multiple of sample size"
  | dataNotWholeFrames => "invalid data chunk length"

inductive ReadError where
  | file (error : FileError)
  | endOfFile
  | illFormed (defect : Defect)
  | unsupported
  | tooWide
  deriving DecidableEq, Repr

def ReadError.message : ReadError → String
  | file error => error.message
  | endOfFile => "Failed to read enough bytes."
  | illFormed defect => "Ill-formed WAVE file: " ++ defect.message
  | unsupported => "The wave format of the file is not supported."
  | tooWide => "The sample has more bits than the destination type."

/-- The number stored in some bytes, lowest byte first. -/
def ofLittleEndian (bytes : Bytes) : Nat :=
  bytes.foldr (fun byte value => byte.toNat + 256 * value) 0

def toLittleEndian : (width value : Nat) → Bytes
  | 0, _ => []
  | width + 1, value => UInt8.ofNat (value % 256) :: toLittleEndian width (value / 256)

/-- The integer whose two's complement in some bits is a number. -/
def signed (bits value : Nat) : Int :=
  if value < Nat.pow 2 (bits - 1) then (value : Int)
  else (value : Int) - (Nat.pow 2 bits : Nat)

/-- The number that stores an integer as two's complement in some bits. -/
def unsigned (bits : Nat) (value : Int) : Nat := (value % (Nat.pow 2 bits : Nat)).toNat

def tag (text : String) : Bytes :=
  text.toList.map fun character => UInt8.ofNat character.toNat

end Wave

end Glottis
