import Mathlib
import Glottis.MultiProduct

/-!
# Block means

The decomposition replaces neighbouring means by their mean, stage after stage, and
multiplies the means of all stages.  A sample of the product is therefore a product of
means over the aligned blocks of two, four and more samples that contain it.  This holds
in whatever arithmetic the means are taken; only the division of indices is used.
-/

namespace Glottis.MultiProduct

variable {α : Type} [Scalar α]

/-- The mean of the aligned block of `2 ^ stage` samples at a place, taken from the means
of the two halves of the block. -/
def blockMean (signal : Signal α) : (stage place : Nat) → α
  | 0, place => signal.sample place
  | stage + 1, place =>
      blockMean signal stage (2 * place) +
        (blockMean signal stage (2 * place + 1) - blockMean signal stage (2 * place)) / 2.0

/-- The product of the means of the blocks that contain an index, from blocks of two
samples to blocks of `2 ^ stages` samples. -/
def blockProduct (signal : Signal α) : (stages index : Nat) → α
  | 0, _ => 1
  | stages + 1, index =>
      blockProduct signal stages index * blockMean signal (stages + 1) (index / 2 ^ (stages + 1))

/-- A block mean depends on the samples of its block only, wherever the block lies. -/
theorem blockMean_congr {left right : Signal α} (stage shift place : Nat)
    (hsample : ∀ index, 2 ^ stage * place ≤ index → index < 2 ^ stage * (place + 1) →
      left.sample (2 ^ stage * shift + index) = right.sample index) :
    blockMean left stage (shift + place) = blockMean right stage place := by
  induction stage generalizing shift place with
  | zero =>
      have hplace := hsample place (by omega) (by omega)
      rwa [pow_zero, one_mul] at hplace
  | succ stage ih =>
      have hblock : 2 ^ (stage + 1) * shift = 2 ^ stage * (2 * shift) := by
        rw [pow_succ, mul_assoc]
      have hhalf : ∀ half, half = 2 * place ∨ half = 2 * place + 1 →
          blockMean left stage (2 * shift + half) = blockMean right stage half := by
        intro half hhalf
        apply ih
        intro index hlower hupper
        rw [← hblock]
        apply hsample index
        · calc
            2 ^ (stage + 1) * place = 2 ^ stage * (2 * place) := by rw [pow_succ, mul_assoc]
            _ ≤ 2 ^ stage * half := Nat.mul_le_mul_left _ (by omega)
            _ ≤ index := hlower
        · calc
            index < 2 ^ stage * (half + 1) := hupper
            _ ≤ 2 ^ stage * (2 * (place + 1)) := Nat.mul_le_mul_left _ (by omega)
            _ = 2 ^ (stage + 1) * (place + 1) := by rw [pow_succ, mul_assoc]
      simp only [blockMean]
      rw [show 2 * (shift + place) + 1 = 2 * shift + (2 * place + 1) by omega, Nat.mul_add,
        hhalf _ (.inl rfl), hhalf _ (.inr rfl)]

/-! ## The stages of the decomposition -/

/-- Half as many means of blocks twice as long cover the same product, as long as there are
stages left. -/
theorem size_pairMeans_of_dvd {means product : Signal α} {remaining stage : Nat}
    (hsize : product.size = 2 ^ stage * means.size) (hdvd : 2 ^ (remaining + 1) ∣ means.size) :
    product.size = 2 ^ (stage + 1) * (pairMeans means).size ∧
      2 ^ remaining ∣ (pairMeans means).size := by
  obtain ⟨blocks, hblocks⟩ := hdvd
  have hnext : (pairMeans means).size = 2 ^ remaining * blocks := by
    rw [pairMeans, Signal.size_tabulate, hblocks, pow_succ, mul_right_comm,
      Nat.mul_div_cancel _ two_pos]
  refine ⟨?_, blocks, hnext⟩
  rw [hsize, hblocks, hnext, pow_succ, pow_succ]
  ring

/-- The next stage takes the means of twice as long blocks. -/
theorem sample_pairMeans {signal means : Signal α} {stage : Nat}
    (hmeans : ∀ place < means.size, means.sample place = blockMean signal stage place)
    {place : Nat} (hplace : place < (pairMeans means).size) :
    (pairMeans means).sample place = blockMean signal (stage + 1) place := by
  rw [pairMeans, Signal.size_tabulate] at hplace
  rw [pairMeans, Signal.sample_tabulate, if_pos hplace, hmeans _ (by omega), hmeans _ (by omega),
    blockMean]

/-- One more stage multiplies the product by the means of the next blocks. -/
theorem sample_multiplied {signal means product : Signal α} {stage : Nat}
    (hmeans : ∀ place < means.size, means.sample place = blockMean signal (stage + 1) place)
    (hproduct : ∀ index < product.size, product.sample index = blockProduct signal stage index)
    (hsize : product.size = 2 ^ (stage + 1) * means.size) {index : Nat}
    (hindex : index < product.size) :
    product.sample index * means.sample (index / 2 ^ (stage + 1)) =
      blockProduct signal (stage + 1) index := by
  have hplace : index / 2 ^ (stage + 1) < means.size := by
    rw [Nat.div_lt_iff_lt_mul (Nat.two_pow_pos _), mul_comm, ← hsize]
    exact hindex
  rw [hproduct index hindex, hmeans _ hplace, blockProduct]

/-- From the means and the product of some stages the remaining ones lead to the product
of all stages. -/
theorem sample_multiplyStages {signal means product : Signal α} {remaining stage : Nat}
    (hmeans : ∀ place < means.size, means.sample place = blockMean signal stage place)
    (hproduct : ∀ index < product.size, product.sample index = blockProduct signal stage index)
    (hsize : product.size = 2 ^ stage * means.size) (hdvd : 2 ^ remaining ∣ means.size)
    {index : Nat} (hindex : index < product.size) :
    (multiplyStages remaining (2 ^ (stage + 1)) means product).sample index =
      blockProduct signal (stage + remaining) index := by
  induction remaining generalizing stage means product with
  | zero => exact hproduct index hindex
  | succ remaining ih =>
      obtain ⟨hwidth, hnextDvd⟩ := size_pairMeans_of_dvd hsize hdvd
      have hnextMeans : ∀ place < (pairMeans means).size,
          (pairMeans means).sample place = blockMean signal (stage + 1) place :=
        fun place hplace => sample_pairMeans hmeans hplace
      rw [multiplyStages, ← pow_succ', Nat.add_comm remaining 1, ← Nat.add_assoc]
      refine ih hnextMeans (fun index hindex => ?_) ?_ hnextDvd ?_
      · rw [Signal.size_tabulate] at hindex
        rw [Signal.sample_tabulate, if_pos hindex]
        exact sample_multiplied hnextMeans hproduct hwidth hindex
      · rw [Signal.size_tabulate, hwidth]
      · rwa [Signal.size_tabulate]

/-! ## The product -/

/-- An aligned block that starts in a whole number of blocks ends there too. -/
theorem blockEnd_le {width length index : Nat} (hdvd : width ∣ length) (hindex : index < length) :
    width * (index / width + 1) ≤ length := by
  obtain ⟨blocks, rfl⟩ := hdvd
  exact Nat.mul_le_mul_left width (Nat.div_lt_of_lt_mul hindex)

theorem blockLength_pos (levels : Nat) : 0 < blockLength levels :=
  lt_of_lt_of_le (by decide) (Nat.le_max_left shortestBlock _)

/-- The widest block and the shortest one are powers of two, and so is the longer of both. -/
theorem blockLength_eq_two_pow (levels : Nat) :
    blockLength levels = 2 ^ max 6 (min levels maxLevels - 1) := by
  change max (2 ^ 6) (2 ^ (min levels maxLevels - 1)) = _
  exact (Monotone.map_max (pow_right_mono₀ one_le_two)).symm

/-- A signal is cut to a whole number of the longest blocks. -/
theorem two_pow_dvd_blockLength (levels : Nat) :
    2 ^ (min levels maxLevels - 1) ∣ blockLength levels := by
  rw [blockLength_eq_two_pow]
  exact pow_dvd_pow 2 (le_max_right _ _)

theorem two_pow_dvd_usedLength (levels length : Nat) :
    2 ^ (min levels maxLevels - 1) ∣ usedLength levels length :=
  Dvd.dvd.mul_left (two_pow_dvd_blockLength levels) _

/-- A sample of the product is the product of the means of the blocks that contain it. -/
theorem sample_multiScaleProduct (signal : Signal α) (levels : Nat) {index : Nat}
    (hindex : index < usedLength levels signal.size) :
    (multiScaleProduct signal levels).sample index =
      blockProduct signal (min levels maxLevels - 1) index := by
  rw [multiScaleProduct]
  generalize hlength : usedLength levels signal.size = length at hindex
  have hmeans : ∀ place < (Signal.tabulate length signal.sample).size,
      (Signal.tabulate length signal.sample).sample place = blockMean signal 0 place := by
    intro place hplace
    rw [Signal.size_tabulate] at hplace
    rw [Signal.sample_tabulate, if_pos hplace, blockMean]
  have hproduct : ∀ index < (Signal.tabulate length fun _ => (1 : α)).size,
      (Signal.tabulate length fun _ => (1 : α)).sample index = blockProduct signal 0 index := by
    intro index hindex
    rw [Signal.size_tabulate] at hindex
    rw [Signal.sample_tabulate, if_pos hindex, blockProduct]
  have hdvd : 2 ^ (min levels maxLevels - 1) ∣ (Signal.tabulate length signal.sample).size := by
    rw [Signal.size_tabulate, ← hlength]
    exact two_pow_dvd_usedLength levels signal.size
  have hstages := sample_multiplyStages hmeans hproduct
    (by rw [Signal.size_tabulate, Signal.size_tabulate, pow_zero, one_mul]) hdvd
    (by rwa [Signal.size_tabulate])
  rwa [Nat.zero_add, Nat.zero_add, pow_one] at hstages

/-- With two levels a sample of the product is the mean of its pair. -/
theorem sample_multiScaleProduct_two (signal : Signal α) {index : Nat}
    (hindex : index < usedLength 2 signal.size) :
    (multiScaleProduct signal 2).sample index =
      1 * (signal.sample (2 * (index / 2)) +
        (signal.sample (2 * (index / 2) + 1) - signal.sample (2 * (index / 2))) / 2.0) := by
  rw [sample_multiScaleProduct _ _ hindex]
  rfl

end Glottis.MultiProduct
