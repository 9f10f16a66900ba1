import Mathlib
import Glottis.Proofs.BlockMeans
import Glottis.Proofs.ExactArithmetic

/-!
# Means of aligned blocks

In exact arithmetic the mean of two means over halves is the mean over the whole, so every
factor of the multi-scale product is the average of the aligned block that contains the
sample.  The decomposition reads and multiplies inside its arrays only: a run that refuses
every read and every slice outside of them has the same result.
-/

namespace Glottis.MultiProduct

/-! ## Averages -/

/-- The average of the aligned block of `2 ^ stage` samples that contains an index. -/
noncomputable def alignedMean (signal : Signal ℝ) (stage index : Nat) : ℝ :=
  (∑ place ∈ Finset.Ico (2 ^ stage * (index / 2 ^ stage)) (2 ^ stage * (index / 2 ^ stage + 1)),
    signal.sample place) / 2 ^ stage

/-- A mean of means is the average of the block. -/
theorem blockMean_eq_average (signal : Signal ℝ) (stage place : Nat) :
    blockMean signal stage place =
      (∑ index ∈ Finset.Ico (2 ^ stage * place) (2 ^ stage * (place + 1)),
        signal.sample index) / 2 ^ stage := by
  induction stage generalizing place with
  | zero => simp [blockMean]
  | succ stage ih =>
      have hlower : 2 ^ (stage + 1) * place = 2 ^ stage * (2 * place) := by
        rw [pow_succ, mul_assoc]
      have hupper : 2 ^ (stage + 1) * (place + 1) = 2 ^ stage * (2 * place + 1 + 1) := by
        rw [pow_succ, mul_assoc]
        rfl
      have hhalves := Finset.sum_Ico_consecutive signal.sample
        (Nat.mul_le_mul_left (2 ^ stage) (Nat.le_add_right (2 * place) 1))
        (Nat.mul_le_mul_left (2 ^ stage) (Nat.le_add_right (2 * place + 1) 1))
      have htwo : (2.0 : ℝ) = 2 := by norm_num
      rw [blockMean, ih, ih, hlower, hupper, ← hhalves, htwo, pow_succ]
      field_simp
      ring

theorem blockProduct_eq_prod (signal : Signal ℝ) (stages index : Nat) :
    blockProduct signal stages index =
      ∏ stage ∈ Finset.Icc 1 stages, alignedMean signal stage index := by
  induction stages with
  | zero => rfl
  | succ stages ih =>
      rw [blockProduct, ih, Finset.prod_Icc_succ_top (Nat.le_add_left 1 stages),
        blockMean_eq_average, alignedMean]

/-! ## Reads and slices inside the arrays -/

section Checked

variable {α : Type} [Scalar α]

/-- The signal of `length` values, each of which has to exist. -/
def tabulate? : (length : Nat) → (Nat → Option α) → Option (Signal α)
  | 0, _ => some #[]
  | length + 1, value? => do
      let values ← tabulate? length value?
      let value ← value? length
      return values.push value

def pairMeans? (width : Nat) (signal : Signal α) : Option (Signal α) :=
  tabulate? width fun place => do
    let first ← signal[2 * place]?
    let second ← signal[2 * place + 1]?
    return first + (second - first) / 2.0

/-- A product with the samples of a slice multiplied by a mean; a slice that does not lie
inside is refused. -/
def multiplySlice? (product : Signal α) (first last : Nat) (mean : α) : Option (Signal α) :=
  if first ≤ last ∧ last ≤ product.size then
    some (.tabulate product.size fun index =>
      if first ≤ index ∧ index < last then product.sample index * mean else product.sample index)
  else none

def multiplySlices? (width : Nat) (means : Signal α) : (count : Nat) → Signal α → Option (Signal α)
  | 0, product => some product
  | count + 1, product => do
      let multiplied ← multiplySlices? width means count product
      let mean ← means[count]?
      multiplySlice? multiplied (width * count) (width * (count + 1)) mean

def multiplyStages? : (remaining width : Nat) → (means product : Signal α) → Option (Signal α)
  | 0, _, _, product => some product
  | remaining + 1, width, means, product => do
      let next ← pairMeans? (product.size / width) means
      let multiplied ← multiplySlices? width next next.size product
      multiplyStages? remaining (2 * width) next multiplied

/-- The multi-scale product with every read and every slice checked. -/
def multiScaleProduct? (signal : Signal α) (levels : Nat) : Option (Signal α) := do
  let length := usedLength levels signal.size
  let start ← tabulate? length fun index => signal[index]?
  multiplyStages? (min levels maxLevels - 1) 2 start (.tabulate length fun _ => 1)

omit [Scalar α] in
theorem tabulate?_eq_some {length : Nat} {value? : Nat → Option α} {value : Nat → α}
    (hvalue : ∀ index < length, value? index = some (value index)) :
    tabulate? length value? = some (.tabulate length value) := by
  induction length with
  | zero => rfl
  | succ length ih =>
      have hvalues := ih fun index hindex => hvalue index (Nat.lt_succ_of_lt hindex)
      rw [tabulate?, hvalues, hvalue length (Nat.lt_succ_self length), Signal.tabulate,
        Signal.tabulate, Array.ofFn_succ]
      rfl

/-- The pairs up to half the length of a signal are inside. -/
theorem pairMeans?_eq_some (signal : Signal α) :
    pairMeans? (signal.size / 2) signal = some (pairMeans signal) := by
  apply tabulate?_eq_some
  intro place hplace
  rw [Signal.getElem?_eq_some_sample _ (by omega), Signal.getElem?_eq_some_sample _ (by omega)]
  rfl

/-- After some slices the samples in front of their end are multiplied, each by the mean of
its slice, and the others are not. -/
theorem multiplySlices?_eq_some {width count : Nat} {means product : Signal α}
    (hcount : count ≤ means.size) (hsize : width * means.size ≤ product.size) :
    multiplySlices? width means count product =
      some (.tabulate product.size fun index =>
        if index < width * count then product.sample index * means.sample (index / width)
        else product.sample index) := by
  induction count with
  | zero =>
      rw [multiplySlices?, Option.some.injEq]
      apply Signal.ext_sample
      · rw [Signal.size_tabulate]
      · intro index hindex
        rw [Signal.sample_tabulate, if_pos hindex, Nat.mul_zero, if_neg (Nat.not_lt_zero index)]
  | succ count ih =>
      have hlast : width * (count + 1) ≤ product.size :=
        (Nat.mul_le_mul_left width hcount).trans hsize
      rw [multiplySlices?, ih (Nat.le_of_succ_le hcount), Signal.getElem?_eq_some_sample _ hcount]
      change multiplySlice? _ _ _ _ = _
      rw [multiplySlice?, Signal.size_tabulate,
        if_pos ⟨Nat.mul_le_mul_left width (Nat.le_succ count), hlast⟩, Option.some.injEq]
      apply Signal.ext_sample
      · rw [Signal.size_tabulate, Signal.size_tabulate]
      · intro index hindex
        rw [Signal.size_tabulate] at hindex
        rw [Signal.sample_tabulate, Signal.sample_tabulate, Signal.sample_tabulate, if_pos hindex,
          if_pos hindex, if_pos hindex]
        by_cases hearlier : index < width * count
        · rw [if_neg (fun hslice => Nat.not_lt.mpr hslice.1 hearlier), if_pos hearlier,
            if_pos (hearlier.trans_le (Nat.mul_le_mul_left width (Nat.le_succ count)))]
        · rw [not_lt] at hearlier
          by_cases hslice : index < width * (count + 1)
          · have hplace : index / width = count :=
              Nat.div_eq_of_lt_le (by rwa [Nat.mul_comm]) (by rwa [Nat.mul_comm])
            rw [if_pos ⟨hearlier, hslice⟩, if_neg (Nat.not_lt.mpr hearlier), if_pos hslice, hplace]
          · rw [if_neg (fun hboth => hslice hboth.2), if_neg (Nat.not_lt.mpr hearlier),
              if_neg hslice]

/-- Where the means cover the product, their slices multiply all of it. -/
theorem multiplySlices?_all {width : Nat} {means product : Signal α}
    (hsize : product.size = width * means.size) :
    multiplySlices? width means means.size product =
      some (.tabulate product.size fun index =>
        product.sample index * means.sample (index / width)) := by
  rw [multiplySlices?_eq_some le_rfl hsize.ge, Option.some.injEq]
  apply Signal.ext_sample
  · rw [Signal.size_tabulate, Signal.size_tabulate]
  · intro index hindex
    rw [Signal.size_tabulate] at hindex
    rw [Signal.sample_tabulate, Signal.sample_tabulate, if_pos hindex, if_pos hindex,
      if_pos (hindex.trans_eq hsize)]

/-- The checked stages succeed where the means divide into the remaining blocks. -/
theorem multiplyStages?_eq_some {remaining stage : Nat} {means product : Signal α}
    (hsize : product.size = 2 ^ stage * means.size) (hdvd : 2 ^ remaining ∣ means.size) :
    multiplyStages? remaining (2 ^ (stage + 1)) means product =
      some (multiplyStages remaining (2 ^ (stage + 1)) means product) := by
  induction remaining generalizing stage means product with
  | zero => rfl
  | succ remaining ih =>
      obtain ⟨hwidth, hnextDvd⟩ := size_pairMeans_of_dvd hsize hdvd
      have hplaces : product.size / 2 ^ (stage + 1) = means.size / 2 := by
        rw [hwidth, Nat.mul_div_cancel_left _ (Nat.two_pow_pos _), pairMeans,
          Signal.size_tabulate]
      rw [multiplyStages?, hplaces, pairMeans?_eq_some]
      change multiplySlices? _ _ _ _ >>= _ = _
      rw [multiplySlices?_all hwidth, multiplyStages, ← pow_succ']
      exact ih (by rw [Signal.size_tabulate, hwidth]) hnextDvd

/-- The decomposition never leaves its arrays. -/
theorem multiScaleProduct?_eq_some (signal : Signal α) (levels : Nat) :
    multiScaleProduct? signal levels = some (multiScaleProduct signal levels) := by
  have hused : usedLength levels signal.size ≤ signal.size := Nat.div_mul_le_self _ _
  have hstart : (tabulate? (usedLength levels signal.size) fun index => signal[index]?) =
      some (.tabulate (usedLength levels signal.size) signal.sample) :=
    tabulate?_eq_some fun index hindex =>
      Signal.getElem?_eq_some_sample signal (hindex.trans_le hused)
  have hdvd : 2 ^ (min levels maxLevels - 1) ∣
      (Signal.tabulate (usedLength levels signal.size) signal.sample).size := by
    rw [Signal.size_tabulate]
    exact two_pow_dvd_usedLength levels signal.size
  have hstages := @multiplyStages?_eq_some α _ (min levels maxLevels - 1) 0
    (.tabulate (usedLength levels signal.size) signal.sample)
    (.tabulate (usedLength levels signal.size) fun _ => 1)
    (by rw [Signal.size_tabulate, Signal.size_tabulate, pow_zero, one_mul]) hdvd
  rw [multiScaleProduct?, hstart]
  exact hstages

end Checked

/-! ## The product of the averages -/

/-- The product has a whole number of blocks and is taken inside the arrays.  Each of its
samples is the product, over the stages, of the averages of the aligned blocks of the signal
that contain it, all of which end within that length. -/
theorem multiScaleProduct_eq_prod_alignedMean (signal : Signal ℝ) {levels : Nat}
    (hlevels : levels ≤ maxLevels) :
    multiScaleProduct? signal levels = some (multiScaleProduct signal levels) ∧
    (multiScaleProduct signal levels).size =
      signal.size / max 64 (2 ^ (levels - 1)) * max 64 (2 ^ (levels - 1)) ∧
    ∀ index < (multiScaleProduct signal levels).size,
      (multiScaleProduct signal levels).sample index =
        ∏ stage ∈ Finset.Icc 1 (levels - 1), alignedMean signal stage index ∧
      ∀ stage ∈ Finset.Icc 1 (levels - 1),
        2 ^ stage * (index / 2 ^ stage + 1) ≤ (multiScaleProduct signal levels).size := by
  have hdepth : min levels maxLevels = levels := min_eq_left hlevels
  refine ⟨multiScaleProduct?_eq_some signal levels, ?_, fun index hindex => ⟨?_, ?_⟩⟩
  · rw [size_multiScaleProduct, usedLength, blockLength, hdepth, shortestBlock]
    rfl
  · rw [size_multiScaleProduct] at hindex
    rw [sample_multiScaleProduct _ _ hindex, hdepth, blockProduct_eq_prod]
  · intro stage hstage
    have hdvd := two_pow_dvd_usedLength levels signal.size
    rw [hdepth] at hdvd
    rw [size_multiScaleProduct] at hindex ⊢
    exact blockEnd_le ((pow_dvd_pow 2 (Finset.mem_Icc.mp hstage).2).trans hdvd) hindex

/-- Of the samples `0, 1, 2, …` the fifth lies in a pair with mean 4.5 and in a block of
four with mean 5.5. -/
theorem multiScaleProduct_eq_prod_alignedMean_of_ramp :
    3 ≤ maxLevels ∧
      (multiScaleProduct (.tabulate 64 fun index => (index : ℝ)) 3).sample 4 = 4.5 * 5.5 := by
  have hlevels : 3 ≤ maxLevels := by decide
  obtain ⟨-, hsize, hsample⟩ := multiScaleProduct_eq_prod_alignedMean
    (.tabulate 64 fun index => (index : ℝ)) hlevels
  rw [Signal.size_tabulate] at hsize
  refine ⟨hlevels, ?_⟩
  have hpair : alignedMean (.tabulate 64 fun index => (index : ℝ)) 1 4 = 4.5 := by
    have hblock : Finset.Ico (2 ^ 1 * (4 / 2 ^ 1)) (2 ^ 1 * (4 / 2 ^ 1 + 1)) = {4, 5} := by decide
    rw [alignedMean, hblock]
    norm_num [Signal.sample_tabulate]
  have hfour : alignedMean (.tabulate 64 fun index => (index : ℝ)) 2 4 = 5.5 := by
    have hblock : Finset.Ico (2 ^ 2 * (4 / 2 ^ 2)) (2 ^ 2 * (4 / 2 ^ 2 + 1)) = {4, 5, 6, 7} := by
      decide
    rw [alignedMean, hblock]
    norm_num [Signal.sample_tabulate]
  rw [(hsample 4 (by rw [hsize]; decide)).1, Finset.prod_Icc_succ_top (by decide),
    Finset.Icc_self, Finset.prod_singleton, hpair, hfour]

end Glottis.MultiProduct
