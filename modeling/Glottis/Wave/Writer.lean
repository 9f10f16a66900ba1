import Glottis.Wave.Format

/-!
# Writing wave files

A recording is written as one channel of 16-bit integers behind a header of
forty-four bytes.  Samples beyond full scale are clamped, and the lowest code of
sixteen bits is never written.
-/

namespace Glottis.Wave

variable {α : Type} [Scalar α]

/-- A value confined to full scale; an undefined value stays as it is. -/
def clamp (value : α) : α :=
  if value < -1 then -1 else if 1 < value then 1 else value

/-- The 16-bit code of a sample: the whole part of the clamped sample times the
largest code. -/
def pulseCode (value : α) : Int := Scalar.truncateInt (clamp value * 32767.0)

def codeBytes (code : Int) : Bytes := toLittleEndian 2 (unsigned 16 code)

def header (sampleRate dataLength : Nat) : Bytes :=
  tag "RIFF" ++ toLittleEndian 4 (36 + dataLength) ++ tag "WAVE" ++
    tag "fmt " ++ toLittleEndian 4 16 ++
    toLittleEndian 2 1 ++ toLittleEndian 2 1 ++ toLittleEndian 4 sampleRate ++
    toLittleEndian 4 (2 * sampleRate) ++ toLittleEndian 2 2 ++ toLittleEndian 2 16 ++
    tag "data" ++ toLittleEndian 4 dataLength

inductive EncodeError where
  | cannotCreate (path : String) (error : FileError)
  | byteRateOutOfRange
  deriving DecidableEq, Repr

namespace EncodeError

def chain : EncodeError → List String
  | cannotCreate path error => ["Failed to create WAV file: " ++ path, error.message]
  | byteRateOutOfRange => ["byte rate out of range"]

end EncodeError

def encodeBytes (recording : Recording α) : Bytes :=
  header recording.sampleRate (2 * recording.samples.size) ++
    recording.samples.toList.flatMap fun value => codeBytes (pulseCode value)

/-- What is left of a file whose header could not be completed: only the two
length fields, as for a file without samples. -/
def abandonedBytes : Bytes :=
  List.replicate 4 0 ++ toLittleEndian 4 36 ++ List.replicate 32 0 ++ toLittleEndian 4 0

def byteRateFits (sampleRate : Nat) : Bool :=
  decide (0 < sampleRate) && decide (2 * sampleRate < 0x100000000)

/-- The file system with a recording written to a path.  The file is created
before the byte rate is looked at, and its lengths are filled in even if the
byte rate is refused. -/
def encode (fileSystem : FileSystem) (path : String) (recording : Recording α) :
    FileSystem × Except EncodeError Unit :=
  match fileSystem.checkCreate path with
  | .error error => (fileSystem, .error (.cannotCreate path error))
  | .ok () =>
      if byteRateFits recording.sampleRate then
        (fileSystem.put path (encodeBytes recording), .ok ())
      else (fileSystem.put path abandonedBytes, .error .byteRateOutOfRange)

end Glottis.Wave
