import Glottis.Wave.Format

/-!
# Reading wave files

A file is a sequence of chunks.  The last format chunk before the data chunk
describes the samples; reading stops at the data chunk.  Stored samples become
values of magnitude at most one, and the channels of a frame are averaged.
-/

namespace Glottis.Wave

/-- A step that consumes bytes from the front of a file. -/
abbrev Reader := StateT Bytes (Except ReadError)

namespace Reader

/-- The first `count` bytes and the rest; refused if there are fewer. -/
def split? : (count : Nat) → Bytes → Option (Bytes × Bytes)
  | 0, bytes => some ([], bytes)
  | _ + 1, [] => none
  | count + 1, byte :: bytes =>
      (split? count bytes).map fun (front, rest) => (byte :: front, rest)

def take (count : Nat) : Reader Bytes := fun bytes =>
  match split? count bytes with
  | some (front, rest) => .ok (front, rest)
  | none => .error .endOfFile

def word (width : Nat) : Reader Nat := do return ofLittleEndian (← take width)

def expect (condition : Bool) (defect : Defect) : Reader Unit :=
  if condition then pure () else throw (.illFormed defect)

end Reader

open Reader

/-- The part of a format chunk that all encodings share. -/
structure CommonFormat where
  encodingTag : Nat
  channels : Nat
  sampleRate : Nat
  byteRate : Nat
  alignment : Nat
  bits : Nat
  deriving DecidableEq, Repr

namespace CommonFormat

def width (common : CommonFormat) : Nat := common.alignment / common.channels

/-- The layout with the bits and the encoding that the rest of the chunk
gives. -/
def toFormat (common : CommonFormat) (bits : Nat) (encoding : Encoding) : Format where
  channels := common.channels
  sampleRate := common.sampleRate
  width := common.width
  bits := bits
  encoding := encoding

def read : Reader CommonFormat := do
  return ⟨← word 2, ← word 2, ← word 4, ← word 4, ← word 2, ← word 2⟩

/-- The conditions on the common part, in the order in which they are checked.
The bits of a container and the byte rate have to fit their fields. -/
def check (common : CommonFormat) : Reader Unit := do
  expect (common.channels != 0) .zeroChannels
  expect (8 * common.width < 0x10000 && common.bits ≤ 8 * common.width) .bitsExceedWidth
  expect (common.alignment * common.sampleRate < 0x100000000 &&
    common.byteRate = common.alignment * common.sampleRate) .inconsistentRate
  expect (common.bits % 8 = 0) .bitsNotWholeBytes
  expect (common.bits != 0) .zeroBits

end CommonFormat

def readInteger (length : Nat) (common : CommonFormat) : Reader Format := do
  expect (length = 16 || length = 18 || length = 40) .unexpectedFormatSize
  if length != 16 then
    let _ ← word 2
    expect (common.bits = 8 || common.bits = 16 || common.bits = 24) .bitsNotPulseCode
  if length = 40 then
    let _ ← take 22
  return common.toFormat common.bits .integer

def readFloat (length : Nat) (common : CommonFormat) : Reader Format := do
  expect (length = 16 || length = 18) .unexpectedFormatSize
  if length = 18 then
    let extra ← word 2
    expect (extra = 0) .unexpectedExtraSize
  expect (common.bits = 32) .bitsNotSingle
  return common.toFormat common.bits .float

/-- The identifier that stands for an encoding in an extensible chunk: the
number of the encoding and fourteen fixed bytes. -/
def encodingIdentifier (number : UInt8) : Bytes :=
  [number, 0x00, 0x00, 0x00, 0x00, 0x00, 0x10, 0x00, 0x80, 0x00, 0x00, 0xaa, 0x00, 0x38, 0x9b,
    0x71]

/-- The rest of an extensible format chunk.  A positive count of valid bits
replaces the bits of the common part. -/
def readExtensible (length : Nat) (common : CommonFormat) : Reader Format := do
  expect (40 ≤ length) .unexpectedFormatSize
  let extra ← word 2
  expect (extra = 22) .unexpectedExtensibleSize
  let validBits ← word 2
  let _ ← word 4
  let identifier ← take 16
  let bits := if 0 < validBits then validBits else common.bits
  if identifier = encodingIdentifier 1 then return common.toFormat bits .integer
  else if identifier = encodingIdentifier 3 then return common.toFormat bits .float
  else throw .unsupported

def readFormat (length : Nat) : Reader Format := do
  expect (16 ≤ length) .formatTooShort
  let common ← CommonFormat.read
  common.check
  if common.encodingTag = 1 then readInteger length common
  else if common.encodingTag = 3 then readFloat length common
  else if common.encodingTag = 0xfffe then readExtensible length common
  else throw .unsupported

/-- The number of samples in a data chunk of some length, which holds whole
frames. -/
def sampleCount (format : Format) (length : Nat) : Reader Nat := do
  expect (length / format.width * format.width = length) .dataNotWholeSamples
  expect (length / format.width % format.channels = 0) .dataNotWholeFrames
  return length / format.width

/-- The chunks up to the data chunk: the layout of the samples and their number.
The first argument bounds the number of chunks. -/
def readChunks : Nat → Option Format → Reader (Format × Nat)
  | 0, _ => throw .endOfFile
  | fuel + 1, format => do
      let name ← take 4
      let length ← word 4
      if name = tag "fmt " then
        let described ← readFormat length
        readChunks fuel (some described)
      else if name = tag "fact" then
        let _ ← take 4
        readChunks fuel format
      else if name = tag "data" then
        match format with
        | none => throw (.illFormed .missingFormat)
        | some format => return (format, ← sampleCount format length)
      else
        let _ ← take length
        readChunks fuel format

/-- The header of a file up to the samples; a chunk takes at least eight bytes,
so the length of the file bounds their number. -/
def readHeader : Reader (Format × Nat) := do
  let riff ← take 4
  expect (riff = tag "RIFF") .noRiffTag
  let _ ← word 4
  let wave ← take 4
  expect (wave = tag "WAVE") .noWaveTag
  let remaining ← get
  readChunks (remaining.length + 1) none

def readCode (format : Format) : Reader Int := do
  match format.width, format.bits with
  | 1, 8 => return ((← word 1) : Int) - 128
  | 2, 16 => return signed 16 (← word 2)
  | 3, 24 => return signed 24 (← word 3)
  | 4, 24 => return signed 24 ((← word 4) % 0x1000000)
  | 4, 32 => return signed 32 (← word 4)
  | width, _ => throw (if 4 < width then .tooWide else .unsupported)

def readSingle (format : Format) : Reader Nat := do
  match format.width, format.bits with
  | 4, 32 => word 4
  | width, _ => throw (if 4 < width then .tooWide else .unsupported)

def readMany {β : Type} (read : Reader β) : Nat → Reader (List β)
  | 0 => return []
  | count + 1 => do
      let first ← read
      let rest ← readMany read count
      return first :: rest

variable {α : Type} [Scalar α]

/-- The value of a binary32 bit pattern: one sign bit, eight exponent bits and
twenty-three fraction bits. -/
def ofSingle (pattern : Nat) : α :=
  let exponent : Nat := pattern / 0x800000 % 0x100
  let fraction : Nat := pattern % 0x800000
  let size : α :=
    if exponent = 255 then (if fraction = 0 then 1 / 0 else 0 / 0)
    else if exponent = 0 then (fraction : α) / (Nat.pow 2 149 : Nat)
    else if exponent < 150 then
      ((0x800000 + fraction : Nat) : α) / (Nat.pow 2 (150 - exponent) : Nat)
    else ((0x800000 + fraction : Nat) : α) * (Nat.pow 2 (exponent - 150) : Nat)
  if pattern / 0x80000000 = 1 then -size else size

/-- The value of an integer code of some bits, as a fraction of full scale. -/
def ofCode (bits : Nat) (code : Int) : α :=
  Scalar.ofInt code * (1 / (Nat.pow 2 (bits - 1) : Nat))

/-- The mean of the samples of each frame of `channels` interleaved samples; a
single channel stays as it is. -/
def mixToMono (interleaved : Signal α) (channels : Nat) : Signal α :=
  if channels = 1 then interleaved
  else
    .tabulate (interleaved.size / channels) fun frame =>
      sumRange channels (fun channel => interleaved.sample (frame * channels + channel)) /
        (channels : α)

inductive DecodeError where
  | cannotOpen (path : String) (cause : ReadError)
  | cannotReadSamples (encoding : Encoding) (cause : ReadError)
  | scaleOutOfRange
  deriving DecidableEq, Repr

namespace DecodeError

def chain : DecodeError → List String
  | cannotOpen path cause => ["Failed to open WAV file: " ++ path, cause.message]
  | cannotReadSamples .integer cause => ["Failed to read integer samples", cause.message]
  | cannotReadSamples .float cause => ["Failed to read float samples", cause.message]
  | scaleOutOfRange => ["sample scale out of range"]

end DecodeError

/-- The interleaved sample values behind a header.  The full scale of integer
samples is a 64-bit power of two. -/
def readSamples (format : Format) (count : Nat) (bytes : Bytes) :
    Except DecodeError (Signal α) :=
  match format.encoding with
  | .float =>
      match (readMany (readSingle format) count).run bytes with
      | .ok (patterns, _) => .ok (patterns.map ofSingle).toArray
      | .error cause => .error (.cannotReadSamples .float cause)
  | .integer =>
      if 64 < format.bits then .error .scaleOutOfRange
      else
        match (readMany (readCode format) count).run bytes with
        | .ok (codes, _) => .ok (codes.map (ofCode format.bits)).toArray
        | .error cause => .error (.cannotReadSamples .integer cause)

def decodeBytes (path : String) (bytes : Bytes) : Except DecodeError (Recording α) :=
  match readHeader.run bytes with
  | .error cause => .error (.cannotOpen path cause)
  | .ok ((format, count), rest) => do
      let interleaved ← readSamples format count rest
      return ⟨mixToMono interleaved format.channels, format.sampleRate⟩

def decode (fileSystem : FileSystem) (path : String) :
    Except DecodeError (Recording α) :=
  match fileSystem.read path with
  | .error error => .error (.cannotOpen path (.file error))
  | .ok bytes => decodeBytes path bytes

end Glottis.Wave
