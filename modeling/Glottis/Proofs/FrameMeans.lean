import Mathlib
import Glottis.Proofs.QuantizedSamples
import Glottis.Proofs.SavedRecordings
import Glottis.Proofs.StoredSamples
import Glottis.Proofs.WaveFormats
import Glottis.Proofs.WaveHeaders

/-!
# Means of frames

An integer recording in exact arithmetic.  Each code is read as a fraction of the full scale of
its bits, which lies in the half-open range from minus one to one, and each frame of the file
becomes the mean of its channels, so no sample is lost and none leaves the range.
-/

namespace Glottis.Wave

variable {format : Format} {data : Bytes} {count : Nat}

/-! ## Fractions of full scale -/

theorem ofCode_eq_div (bits : Nat) (code : Int) :
    (ofCode bits code : ℝ) = code / 2 ^ (bits - 1) := by
  have hscale : ((Nat.pow 2 (bits - 1) : Nat) : ℝ) = 2 ^ (bits - 1) := by
    exact_mod_cast rfl
  rw [ofCode, Scalar.ofInt_real, hscale, mul_one_div]

/-- A code uses one bit for its sign and the others for its size. -/
theorem code_bounds (hholds : format.HoldsCodes) {container : Bytes}
    (hlength : container.length ≤ format.width) :
    -(2 ^ (format.bits - 1)) ≤ format.code container ∧
      format.code container < 2 ^ (format.bits - 1) := by
  obtain ⟨channels, sampleRate, width, bits, encoding⟩ := format
  simp only [Format.HoldsCodes, List.mem_cons, Prod.mk.injEq, List.not_mem_nil, or_false] at hholds
  by_cases hwidth : width = 1
  · have hbyte : ofLittleEndian container < 256 :=
      (ofLittleEndian_lt container).trans_le
        (Nat.pow_le_pow_right (by decide) (hlength.trans hwidth.le))
    obtain rfl : bits = 8 := by omega
    simp only [Format.code, if_pos hwidth]
    omega
  · obtain ⟨half, rfl⟩ : ∃ half, bits = half + 1 := ⟨bits - 1, by omega⟩
    have hpositive : 0 < 2 ^ (half + 1) := Nat.two_pow_pos _
    have hlow := Int.le_bmod (x := (ofLittleEndian container : Int)) hpositive
    have hhigh := Int.bmod_lt (x := (ofLittleEndian container : Int)) hpositive
    simp only [Format.code, if_neg hwidth, Nat.add_sub_cancel]
    rw [Nat.pow_succ'] at hlow hhigh ⊢
    push_cast at hlow hhigh ⊢
    omega

/-- The code of a stored sample is a fraction of full scale. -/
theorem fraction_mem_Ico (hholds : format.HoldsCodes) (data : Bytes) (index : Nat) :
    (format.code (format.container data index) : ℝ) / 2 ^ (format.bits - 1) ∈ Set.Ico (-1) 1 := by
  have hlength : (format.container data index).length ≤ format.width := List.length_take_le _ _
  obtain ⟨hlow, hhigh⟩ := code_bounds hholds hlength
  have hscale : (0 : ℝ) < 2 ^ (format.bits - 1) := by positivity
  have hlow' : -(2 ^ (format.bits - 1)) ≤ (format.code (format.container data index) : ℝ) := by
    exact_mod_cast hlow
  have hhigh' : (format.code (format.container data index) : ℝ) < 2 ^ (format.bits - 1) := by
    exact_mod_cast hhigh
  rw [Set.mem_Ico, le_div_iff₀ hscale, div_lt_one hscale]
  exact ⟨by linarith, hhigh'⟩

theorem sample_interleaved {index : Nat} (hindex : index < count) :
    (format.interleaved data count : Signal ℝ).sample index =
      (format.code (format.container data index) : ℝ) / 2 ^ (format.bits - 1) := by
  rw [Format.interleaved, Signal.sample_tabulate, if_pos hindex, ofCode_eq_div]

/-! ## Mixing channels -/

variable {interleaved : Signal ℝ} {channels : Nat}

/-- Mixing whole frames keeps one sample of each. -/
theorem size_mixToMono_mul (hframes : interleaved.size % channels = 0) :
    (mixToMono interleaved channels).size * channels = interleaved.size := by
  rw [mixToMono]
  split
  case isTrue hmono => rw [hmono, mul_one]
  case isFalse => rw [Signal.size_tabulate, Nat.div_mul_cancel (Nat.dvd_of_mod_eq_zero hframes)]

/-- A mixed sample is the mean of its frame. -/
theorem sample_mixToMono {frame : Nat} (hframe : frame < (mixToMono interleaved channels).size) :
    (mixToMono interleaved channels).sample frame =
      (∑ channel ∈ Finset.range channels, interleaved.sample (frame * channels + channel)) /
        channels := by
  rw [mixToMono] at hframe ⊢
  split
  case isTrue hmono => simp [hmono]
  case isFalse hmany =>
    rw [if_neg hmany, Signal.size_tabulate] at hframe
    rw [Signal.sample_tabulate, if_pos hframe, sumRange_eq_sum]

/-- The mean of values that lie in the range of a sample lies in it. -/
theorem mean_mem_Ico (hchannels : 0 < channels) {value : Nat → ℝ}
    (hvalue : ∀ channel, value channel ∈ Set.Ico (-1) 1) :
    (∑ channel ∈ Finset.range channels, value channel) / channels ∈ Set.Ico (-1) 1 := by
  have hcount : (0 : ℝ) < channels := Nat.cast_pos.mpr hchannels
  have hweights : ∑ _channel ∈ Finset.range channels, (channels : ℝ)⁻¹ = 1 := by
    rw [Finset.sum_const, Finset.card_range, nsmul_eq_mul, mul_inv_cancel₀ hcount.ne']
  have hmean := (convex_Ico (-1 : ℝ) 1).sum_mem (fun _ _ => inv_nonneg.mpr hcount.le) hweights
    fun channel (_ : channel ∈ Finset.range channels) => hvalue channel
  rwa [← Finset.smul_sum, smul_eq_mul, inv_mul_eq_div] at hmean

/-! ## Decoded files -/

/-- What a file stores behind an integer header is decoded exactly if the full scale is in range
and every container of a kind that holds codes is there.  The recording then has one sample for
each frame of the data chunk: the mean over the channels of the codes as fractions of the full
scale of their bits, which is at least minus one and less than one. -/
theorem decoded_recording_is_mean_of_frames {fileSystem : FileSystem} {path : String}
    {bytes : Bytes} (hread : fileSystem.read path = .ok bytes)
    (hheader : readHeader.run bytes = .ok ((format, count), data))
    (hinteger : format.encoding = .integer) :
    EndsWithData bytes format count data ∧
    ((∃ recording : Recording ℝ, decode fileSystem path = .ok recording) ↔
      format.bits ≤ 64 ∧ format.Readable count data) ∧
    ∀ recording : Recording ℝ, decode fileSystem path = .ok recording →
      recording.sampleRate = format.sampleRate ∧
      recording.samples.size * format.channels = count ∧
      ∀ frame < recording.samples.size,
        recording.samples.sample frame =
          (∑ channel ∈ Finset.range format.channels,
            (format.code (format.container data (frame * format.channels + channel)) : ℝ) /
              2 ^ (format.bits - 1)) / format.channels ∧
        recording.samples.sample frame ∈ Set.Ico (-1) 1 := by
  have hends := endsWithData_of_run_readHeader hheader
  obtain ⟨_, _, hcommon, hdescribes⟩ := exists_describes_of_run_readHeader hheader
  have hchannels := (hdescribes.isUsable hcommon).channels_pos
  refine ⟨hends, ?_, fun recording hdecode => ?_⟩
  · simp only [decode_eq_ok_iff hread hheader hinteger]
    exact ⟨fun ⟨_, hbits, hreadable, _⟩ => ⟨hbits, hreadable⟩,
      fun ⟨hbits, hreadable⟩ => ⟨_, hbits, hreadable, rfl⟩⟩
  · obtain ⟨-, hreadable, rfl⟩ := (decode_eq_ok_iff hread hheader hinteger).mp hdecode
    have hsize : (format.interleaved data count : Signal ℝ).size = count :=
      Signal.size_tabulate _ _
    have hframes : (mixToMono (format.interleaved data count : Signal ℝ) format.channels).size *
        format.channels = count := by
      rw [size_mixToMono_mul (by rw [hsize]; exact hends.whole_frames), hsize]
    refine ⟨rfl, hframes, fun frame hframe => ?_⟩
    -- The containers of a frame are among those that are stored.
    have hstored : ∀ channel < format.channels, frame * format.channels + channel < count := by
      intro channel hchannel
      calc
        frame * format.channels + channel < (frame + 1) * format.channels := by
          rw [Nat.succ_mul]; omega
        _ ≤ count := hframes ▸ Nat.mul_le_mul_right _ hframe
    have hholds : format.HoldsCodes := by
      have hsome := hstored 0 hchannels
      exact (hreadable.resolve_left (by omega)).1
    have hsample : Signal.sample (mixToMono (format.interleaved data count) format.channels) frame =
        (∑ channel ∈ Finset.range format.channels,
          (format.code (format.container data (frame * format.channels + channel)) : ℝ) /
            2 ^ (format.bits - 1)) / format.channels := by
      rw [sample_mixToMono hframe]
      refine congrArg (· / (format.channels : ℝ)) (Finset.sum_congr rfl fun channel hchannel => ?_)
      exact sample_interleaved (hstored channel (Finset.mem_range.mp hchannel))
    refine ⟨hsample, ?_⟩
    rw [hsample]
    exact mean_mem_Ico hchannels fun channel => fraction_mem_Ico hholds data _

/-! ### Twenty-four bits in four bytes -/

/-- Two frames of two channels whose highest bytes are not used. -/
def paddedData : Bytes :=
  [0x00, 0x00, 0x80, 0x7f, 0x00, 0x00, 0x40, 0x00, 0xff, 0xff, 0xff, 0x00, 0x01, 0x00, 0x00, 0x55]

def paddedCommon : CommonFormat := ⟨0xfffe, 2, 8000, 64000, 8, 32⟩

def paddedFile : Bytes :=
  riff 76 (chunk "fmt " (paddedCommon.toBytes ++ extension 24 3) ++ chunk "data" paddedData)

theorem run_readHeader_paddedFile :
    readHeader.run paddedFile = .ok ((⟨2, 8000, 4, 24, .integer⟩, 4), paddedData) := by
  have hfits : paddedCommon.Fits := by constructor <;> decide
  have hcommon : paddedCommon.IsConsistent := by constructor <;> decide
  have hlength : (paddedCommon.toBytes ++ extension 24 3).length = 40 := rfl
  have hread (rest : Bytes) :
      (readFormat (paddedCommon.toBytes ++ extension 24 3).length).run
        (paddedCommon.toBytes ++ extension 24 3 ++ rest) =
        .ok (paddedCommon.toFormat 24 .integer, rest) := by
    rw [hlength]
    exact run_readFormat_extensible hfits hcommon rfl (by decide) (by decide) 3 rest
  exact run_readHeader_chunks (by rw [hlength]; decide) (by decide) hread rfl rfl

/-- The two frames are decoded to their means, with the sign of the twenty-fourth bit. -/
theorem decoded_recording_is_mean_of_frames_of_padded :
    ((⟨[]⟩ : FileSystem).put "o.wav" paddedFile).read "o.wav" = .ok paddedFile ∧
      readHeader.run paddedFile = .ok ((⟨2, 8000, 4, 24, .integer⟩, 4), paddedData) ∧
      ∃ recording : Recording ℝ,
        decode ((⟨[]⟩ : FileSystem).put "o.wav" paddedFile) "o.wav" = .ok recording ∧
        recording.samples.size = 2 ∧ recording.samples.sample 0 = -1 / 4 ∧
        recording.samples.sample 1 = 0 := by
  have hread := FileSystem.read_put checkCreate_without_entries paddedFile
  obtain ⟨-, haccepted, hdecoded⟩ :=
    decoded_recording_is_mean_of_frames hread run_readHeader_paddedFile rfl
  obtain ⟨recording, hdecode⟩ := haccepted.mpr ⟨by decide, by decide⟩
  obtain ⟨-, hsize, hsample⟩ := hdecoded recording hdecode
  have htwo : recording.samples.size = 2 := by
    change recording.samples.size * 2 = 4 at hsize
    omega
  refine ⟨hread, run_readHeader_paddedFile, recording, hdecode, htwo, ?_, ?_⟩
  · rw [(hsample 0 (by omega)).1]
    have hleft : Format.code ⟨2, 8000, 4, 24, .integer⟩
        (Format.container ⟨2, 8000, 4, 24, .integer⟩ paddedData 0) = -8388608 := by decide
    have hright : Format.code ⟨2, 8000, 4, 24, .integer⟩
        (Format.container ⟨2, 8000, 4, 24, .integer⟩ paddedData 1) = 4194304 := by decide
    norm_num [Finset.sum_range_succ, hleft, hright]
  · rw [(hsample 1 (by omega)).1]
    have hleft : Format.code ⟨2, 8000, 4, 24, .integer⟩
        (Format.container ⟨2, 8000, 4, 24, .integer⟩ paddedData 2) = -1 := by decide
    have hright : Format.code ⟨2, 8000, 4, 24, .integer⟩
        (Format.container ⟨2, 8000, 4, 24, .integer⟩ paddedData 3) = 1 := by decide
    norm_num [Finset.sum_range_succ, hleft, hright]

end Glottis.Wave
