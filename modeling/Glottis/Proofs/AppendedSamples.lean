import Mathlib
import Glottis.Proofs.BlockMeans
import Glottis.Proofs.MultiProductCycles

/-!
# Appended samples

The multi-scale product of a recording does not change where the recording is continued:
each of its samples depends on one block, and whole blocks are never moved.  Turning points
are decided by neighbouring samples, the last index excluded, so those of the continued
product start with those found before, and the cycles between them are the same cycles.
None of this depends on the arithmetic, which may round.
-/

namespace Glottis

variable {α : Type} [Scalar α]

namespace Signal

theorem sample_append_left (first second : Signal α) {index : Nat} (hindex : index < first.size) :
    sample (first ++ second) index = sample first index := by
  rw [sample_eq_getElem _ hindex, sample_eq_getElem _ (by rw [Array.size_append]; omega),
    Array.getElem_append_left hindex]

theorem sample_append_right (first second : Signal α) (index : Nat) :
    sample (first ++ second) (first.size + index) = sample second index := by
  cases Nat.lt_or_ge index second.size with
  | inl hindex =>
      rw [sample_eq_getElem _ hindex, sample_eq_getElem _ (by rw [Array.size_append]; omega),
        Array.getElem_append_right (Nat.le_add_right _ _)]
      congr 1
      omega
  | inr hindex =>
      rw [sample_of_size_le _ hindex, sample_of_size_le _ (by rw [Array.size_append]; omega)]

theorem allFinite_append (first second : Signal α) :
    allFinite (first ++ second) = (allFinite first && allFinite second) :=
  Array.all_append

/-- One signal is what another one starts with. -/
structure IsStartOf (start signal : Signal α) : Prop where
  size_le : start.size ≤ signal.size
  sample_eq : ∀ index < start.size, signal.sample index = start.sample index

theorem IsStartOf.map {start signal : Signal α} (hstart : start.IsStartOf signal) (f : α → α) :
    Signal.IsStartOf (start.map f) (signal.map f) where
  size_le := by
    rw [Array.size_map, Array.size_map]
    exact hstart.size_le
  sample_eq := by
    intro index hindex
    have hlower : index < start.size := by rwa [Array.size_map] at hindex
    have hupper : index < signal.size := hlower.trans_le hstart.size_le
    have hsample := hstart.sample_eq index hlower
    rw [sample_eq_getElem _ hlower, sample_eq_getElem _ hupper] at hsample
    rw [sample_eq_getElem _ hindex, sample_eq_getElem _ (by rwa [Array.size_map]),
      Array.getElem_map, Array.getElem_map, hsample]

end Signal

/-! ## Turning points -/

namespace Extremum

variable {start signal : Signal α}

theorem slope_eq_of_isStartOf (hstart : start.IsStartOf signal) (hsize : 2 ≤ start.size)
    {index : Nat} (hindex : index < start.size) : slope signal index = slope start index := by
  rw [slope, slope, hstart.sample_eq 0 (by omega), hstart.sample_eq 1 (by omega),
    hstart.sample_eq index hindex, hstart.sample_eq (index - 1) (by omega)]

theorem bend_eq_of_isStartOf (hstart : start.IsStartOf signal) (hsize : 3 ≤ start.size)
    {index : Nat} (hindex : index < start.size) : bend signal index = bend start index := by
  rw [bend, bend, slope_eq_of_isStartOf hstart (by omega) (by omega),
    slope_eq_of_isStartOf hstart (by omega) (by omega)]

/-- Samples behind the end of a signal add turning points behind those found in it. -/
theorem find_prefix_find (hstart : start.IsStartOf signal) (extremum : Extremum) :
    find start extremum <+: find signal extremum := by
  by_cases hshort : start.size < 3
  · rw [find, if_pos hshort]
    exact List.nil_prefix
  · have hsize := hstart.size_le
    have hsplit : signal.size - 1 = (start.size - 1) + (signal.size - start.size) := by omega
    rw [find, if_neg hshort, find, if_neg (by omega), hsplit, List.range_add, List.filter_append]
    have hsame : ∀ index ∈ List.range (start.size - 1),
        decide (slope start index * slope start (index + 1) ≤ 0 ∧
            bend start (index + 1) * extremum.sign < 0) =
          decide (slope signal index * slope signal (index + 1) ≤ 0 ∧
            bend signal (index + 1) * extremum.sign < 0) := by
      intro index hindex
      rw [List.mem_range] at hindex
      rw [slope_eq_of_isStartOf hstart (by omega) (by omega),
        slope_eq_of_isStartOf hstart (by omega) (by omega),
        bend_eq_of_isStartOf hstart (by omega) (by omega)]
    rw [List.filter_congr hsame]
    exact List.prefix_append _ _

end Extremum

namespace MultiProduct

/-! ## Cycles -/

variable {start product : Signal α}

theorem closures_prefix_closures (hstart : start.IsStartOf product) :
    closures start <+: closures product :=
  Extremum.find_prefix_find (hstart.map _) .maximum

/-- The search for the maximum of a window reads no sample behind the window. -/
theorem offsetOfMaximum_eq_of_isStartOf (hstart : start.IsStartOf product) (first : Nat)
    {last : Nat} (hlast : last < start.size) :
    offsetOfMaximum product first last = offsetOfMaximum start first last := by
  have hfold : ∀ count ≤ last + 1 - first,
      count.fold (fun offset _ best => largerOffset product first offset best) 0 =
          count.fold (fun offset _ best => largerOffset start first offset best) 0 ∧
        count.fold (fun offset _ best => largerOffset start first offset best) 0 ≤ count := by
    intro count hcount
    induction count with
    | zero => exact ⟨rfl, le_rfl⟩
    | succ count ih =>
        obtain ⟨hsame, hbest⟩ := ih (by omega)
        rw [Nat.fold_succ, Nat.fold_succ, hsame]
        generalize count.fold (fun offset _ best => largerOffset start first offset best) 0 = best
          at hbest
        rw [largerOffset, largerOffset, hstart.sample_eq _ (by omega),
          hstart.sample_eq _ (by omega)]
        refine ⟨rfl, ?_⟩
        split
        · exact Nat.le_succ count
        · exact hbest.trans (Nat.le_succ count)
  exact (hfold _ le_rfl).1

theorem cycle_eq_of_isStartOf (hstart : start.IsStartOf product) (closure : Nat)
    {nextClosure : Nat} (hnext : nextClosure < start.size) :
    cycle product closure nextClosure = cycle start closure nextClosure := by
  rw [cycle, cycle, offsetOfMaximum_eq_of_isStartOf hstart _ hnext]

/-- More closures add cycles behind those of the closures before them. -/
theorem cycles_prefix_cycles (hstart : start.IsStartOf product) {earlier all : List Nat}
    (hearlier : ∀ closure ∈ earlier, closure < start.size) (hcontinued : earlier <+: all) :
    cycles start earlier <+: cycles product all := by
  obtain ⟨later, rfl⟩ := hcontinued
  induction earlier with
  | nil => exact List.nil_prefix
  | cons closure earlier ih =>
      cases earlier with
      | nil => exact List.nil_prefix
      | cons nextClosure earlier =>
          have hrest := ih fun closure hclosure =>
            hearlier closure (List.mem_cons_of_mem _ hclosure)
          have hnext := hearlier nextClosure (List.mem_cons_of_mem _ List.mem_cons_self)
          rw [List.cons_append, List.cons_append, cycles, cycles,
            cycle_eq_of_isStartOf hstart closure hnext]
          exact List.prefix_cons_inj _ |>.mpr hrest

/-! ## The product -/

section Product

variable {first second : Signal α}

theorem blockMean_append_left {stage place : Nat} (hblock : 2 ^ stage * (place + 1) ≤ first.size) :
    blockMean (first ++ second) stage place = blockMean first stage place := by
  have hfirst : blockMean (first ++ second) stage (0 + place) = blockMean first stage place := by
    apply blockMean_congr
    intro index _ hindex
    rw [Nat.mul_zero, Nat.zero_add, Signal.sample_append_left _ _ (hindex.trans_le hblock)]
  rwa [Nat.zero_add] at hfirst

/-- Whole blocks in front of a signal move its blocks by whole places. -/
theorem blockMean_append_right {stage : Nat} (hdvd : 2 ^ stage ∣ first.size) (place : Nat) :
    blockMean (first ++ second) stage (first.size / 2 ^ stage + place) =
      blockMean second stage place := by
  apply blockMean_congr
  intro index _ _
  rw [Nat.mul_div_cancel' hdvd, Signal.sample_append_right]

theorem blockProduct_append_left {stages length : Nat} (hlength : length ≤ first.size)
    (hdvd : 2 ^ stages ∣ length) {index : Nat} (hindex : index < length) :
    blockProduct (first ++ second) stages index = blockProduct first stages index := by
  induction stages with
  | zero => rfl
  | succ stages ih =>
      have hblock : 2 ^ (stages + 1) * (index / 2 ^ (stages + 1) + 1) ≤ first.size :=
        (blockEnd_le hdvd hindex).trans hlength
      rw [blockProduct, blockProduct, ih (Dvd.dvd.trans (pow_dvd_pow 2 (Nat.le_succ stages)) hdvd),
        blockMean_append_left hblock]

theorem blockProduct_append_right {stages : Nat} (hdvd : 2 ^ stages ∣ first.size) (index : Nat) :
    blockProduct (first ++ second) stages (first.size + index) =
      blockProduct second stages index := by
  induction stages with
  | zero => rfl
  | succ stages ih =>
      rw [blockProduct, blockProduct, ih (Dvd.dvd.trans (pow_dvd_pow 2 (Nat.le_succ stages)) hdvd),
        Nat.add_div_of_dvd_right hdvd, blockMean_append_right hdvd]

variable (first second)

omit [Scalar α] in
theorem usedLength_append_of_dvd {levels : Nat} (hdvd : blockLength levels ∣ first.size) :
    usedLength levels (first ++ second).size = first.size + usedLength levels second.size := by
  obtain ⟨blocks, hblocks⟩ := hdvd
  rw [Array.size_append, hblocks, usedLength, usedLength,
    Nat.mul_add_div (blockLength_pos levels), Nat.add_mul, mul_comm blocks]

/-- The product of a continued signal starts with the product of the signal. -/
theorem multiScaleProduct_isStartOf (levels : Nat) :
    (multiScaleProduct first levels).IsStartOf (multiScaleProduct (first ++ second) levels) := by
  have hused : usedLength levels first.size ≤ usedLength levels (first ++ second).size := by
    rw [Array.size_append]
    exact Nat.mul_le_mul_right _ (Nat.div_le_div_right (Nat.le_add_right _ _))
  constructor
  · rwa [size_multiScaleProduct, size_multiScaleProduct]
  · intro index hindex
    rw [size_multiScaleProduct] at hindex
    rw [sample_multiScaleProduct _ _ (hindex.trans_le hused), sample_multiScaleProduct _ _ hindex]
    exact blockProduct_append_left (usedLength_le levels first.size)
      (two_pow_dvd_usedLength levels first.size) hindex

/-- The product of two signals one after the other is that of each of them, if the second
starts with a block. -/
theorem multiScaleProduct_append {levels : Nat} (hdvd : blockLength levels ∣ first.size) :
    multiScaleProduct (first ++ second) levels =
      multiScaleProduct first levels ++ multiScaleProduct second levels := by
  have hfirst : usedLength levels first.size = first.size := Nat.div_mul_cancel hdvd
  have hsize := usedLength_append_of_dvd first second hdvd
  have hproduct : (multiScaleProduct first levels).size = first.size := by
    rw [size_multiScaleProduct, hfirst]
  apply Signal.ext_sample
  · rw [Array.size_append, hproduct, size_multiScaleProduct, size_multiScaleProduct, hsize]
  · intro index hindex
    rw [size_multiScaleProduct, hsize] at hindex
    cases Nat.lt_or_ge index first.size with
    | inl hlower =>
        rw [Signal.sample_append_left _ _ (by rwa [hproduct])]
        exact (multiScaleProduct_isStartOf first second levels).sample_eq index
          (by rwa [hproduct])
    | inr hupper =>
        obtain ⟨offset, rfl⟩ := Nat.exists_eq_add_of_le hupper
        rw [sample_multiScaleProduct _ _ (by rwa [hsize]),
          blockProduct_append_right ((two_pow_dvd_blockLength levels).trans hdvd)]
        conv_rhs => rw [← hproduct]
        rw [Signal.sample_append_right,
          sample_multiScaleProduct _ _ (Nat.lt_of_add_lt_add_left hindex)]

end Product

theorem Detector.detect_eq (detector : Detector) {signal : Signal α} {sampleRate : α}
    (hrate : Scalar.isPositive sampleRate = true) (hfinite : signal.allFinite = true) :
    detector.detect signal sampleRate =
      .ok (cycles (multiScaleProduct signal detector.levels)
        (closures (multiScaleProduct signal detector.levels))) := by
  rw [Detector.detect, require_bind_of hrate, require_bind_of hfinite]
  rfl

/-- A continued recording keeps its cycles: those of the recording come first, and further
ones follow.  Where the first part is a whole number of blocks, the product of the whole is
the product of the first part followed by that of the second, whatever the samples are. -/
theorem detect_append (detector : Detector) (first second : Signal α) :
    (∀ sampleRate : α, Scalar.isPositive sampleRate = true → first.allFinite = true →
        second.allFinite = true →
          ∃ earlier all, detector.detect first sampleRate = .ok earlier ∧
            detector.detect (first ++ second) sampleRate = .ok all ∧ earlier <+: all) ∧
      (max 64 (2 ^ (detector.levels - 1)) ∣ first.size →
        multiScaleProduct (first ++ second) detector.levels =
          multiScaleProduct first detector.levels ++
            multiScaleProduct second detector.levels) := by
  refine ⟨fun sampleRate hrate hfirst hsecond => ?_, fun hdvd => ?_⟩
  · have hall : (first ++ second : Signal α).allFinite = true := by
      rw [Signal.allFinite_append, hfirst, hsecond, Bool.and_self]
    have hstart := multiScaleProduct_isStartOf first second detector.levels
    refine ⟨_, _, detector.detect_eq hrate hfirst, detector.detect_eq hrate hall, ?_⟩
    refine cycles_prefix_cycles hstart (fun closure hclosure => ?_)
      (closures_prefix_closures hstart)
    have hlast := Extremum.succ_lt_size_of_mem_find hclosure
    rw [Array.size_map] at hlast
    exact Nat.lt_of_succ_lt hlast
  · apply multiScaleProduct_append
    rwa [blockLength, shortestBlock, min_eq_left detector.levels_mem.2]

def sawtooth : Signal Float := .tabulate 64 fun index => ((index % 8 : Nat) : Float)

theorem detect_append_of_sawtooth :
    (∃ earlier all, Detector.standard.detect sawtooth 1 = .ok earlier ∧
        Detector.standard.detect (sawtooth ++ #[1, 0, 1]) 1 = .ok all ∧ earlier <+: all) ∧
      multiScaleProduct (sawtooth ++ sawtooth) 4 =
        multiScaleProduct sawtooth 4 ++ multiScaleProduct sawtooth 4 := by
  have hrate : Scalar.isPositive (1 : Float) = true := by decide +kernel
  have hsawtooth : sawtooth.allFinite = true := by decide +kernel
  have hmore : Signal.allFinite (#[1, 0, 1] : Signal Float) = true := by decide +kernel
  have hblock : max 64 (2 ^ (4 - 1)) ∣ sawtooth.size := by
    rw [sawtooth, Signal.size_tabulate]
    decide
  exact ⟨(detect_append Detector.standard sawtooth #[1, 0, 1]).1 1 hrate hsawtooth hmore,
    (detect_append Detector.standard sawtooth sawtooth).2 hblock⟩

end MultiProduct

end Glottis
