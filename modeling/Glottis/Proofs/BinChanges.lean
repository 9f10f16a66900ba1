import Mathlib
import Glottis.Proofs.AppendedSamples
import Glottis.Proofs.BlockMeans
import Glottis.Proofs.ExactArithmetic
import Glottis.Proofs.MultiProductCycles

/-!
# Changes from bin to bin

The narrowest blocks of the decomposition have two samples, so the multi-scale product is
level over every bin of two.  A closure therefore never lies inside a level stretch: it is
the first sample of a bin that is lower than the one before, or the last sample of a bin
that is lower than the next.  A product that rises from its first bin has one closure more,
at the first index, where the slope before the signal repeats the level first bin.
-/

namespace Glottis.MultiProduct

/-! ## Bins -/

section Bins

variable {α : Type} [Scalar α]

/-- The samples of a signal are equal in neighbouring pairs. -/
structure IsPaired (product : Signal α) : Prop where
  even : 2 * (product.size / 2) = product.size
  sample_eq : ∀ place < product.size / 2,
    product.sample (2 * place + 1) = product.sample (2 * place)

def bin (product : Signal α) (place : Nat) : α := product.sample (2 * place)

/-- Both samples of a pair lie in the same blocks. -/
theorem blockProduct_pair (signal : Signal α) (stages place : Nat) :
    blockProduct signal stages (2 * place + 1) = blockProduct signal stages (2 * place) := by
  induction stages with
  | zero => rfl
  | succ stages ih =>
      have hblock : (2 * place + 1) / 2 ^ (stages + 1) = 2 * place / 2 ^ (stages + 1) := by
        rw [pow_succ', ← Nat.div_div_eq_div_mul, ← Nat.div_div_eq_div_mul]
        congr 1
        omega
      rw [blockProduct, blockProduct, ih, hblock]

theorem isPaired_multiScaleProduct (signal : Signal α) (levels : Nat) :
    IsPaired (multiScaleProduct signal levels) := by
  have heven : 2 ∣ usedLength levels signal.size := by
    rw [usedLength, blockLength_eq_two_pow]
    exact Dvd.dvd.mul_left (dvd_pow_self 2 (by omega)) _
  constructor
  · rw [size_multiScaleProduct]
    exact Nat.mul_div_cancel' heven
  · intro place hplace
    rw [size_multiScaleProduct] at hplace
    rw [sample_multiScaleProduct _ _ (by omega), sample_multiScaleProduct _ _ (by omega),
      blockProduct_pair]

/-- A product with any sample has at least a whole block. -/
theorem four_le_size_multiScaleProduct {signal : Signal α} {levels : Nat}
    (hsome : 0 < (multiScaleProduct signal levels).size) :
    4 ≤ (multiScaleProduct signal levels).size := by
  rw [size_multiScaleProduct, usedLength] at hsome ⊢
  calc
    4 ≤ shortestBlock := by decide
    _ ≤ blockLength levels := Nat.le_max_left _ _
    _ ≤ signal.size / blockLength levels * blockLength levels :=
      Nat.le_mul_of_pos_left _ (Nat.pos_of_mul_pos_right hsome)

end Bins

/-! ## Closures at the edges of bins -/

variable {product : Signal ℝ}

/-- The bins that are lower than the bin before. -/
noncomputable def falls (product : Signal ℝ) : Finset Nat :=
  (Finset.Ico 1 (product.size / 2)).filter fun place => bin product place < bin product (place - 1)

/-- The bins that are lower than the next bin. -/
noncomputable def rises (product : Signal ℝ) : Finset Nat :=
  (Finset.range (product.size / 2 - 1)).filter fun place =>
    bin product place < bin product (place + 1)

/-- The first samples of the bins to which the product falls, the last samples of the bins
from which it rises, and the first index if it rises from the first bin. -/
noncomputable def changeInstants (product : Signal ℝ) : Finset Nat :=
  (falls product).image (fun place => 2 * place) ∪
    (rises product).image (fun place => 2 * place + 1) ∪
      if bin product 0 < bin product 1 then {0} else ∅

/-- The number of bins that differ from the one before, and one more if the second is
higher than the first. -/
noncomputable def changeCount (product : Signal ℝ) : Nat :=
  ((Finset.Ico 1 (product.size / 2)).filter fun place =>
    bin product (place - 1) ≠ bin product place).card +
      if bin product 0 < bin product 1 then 1 else 0

theorem mem_falls_iff {place : Nat} :
    place ∈ falls product ↔
      1 ≤ place ∧ place < product.size / 2 ∧ bin product place < bin product (place - 1) := by
  rw [falls, Finset.mem_filter, Finset.mem_Ico, and_assoc]

theorem mem_rises_iff {place : Nat} :
    place ∈ rises product ↔
      place + 1 < product.size / 2 ∧ bin product place < bin product (place + 1) := by
  rw [rises, Finset.mem_filter, Finset.mem_range, Nat.lt_sub_iff_add_lt]

theorem mem_changeInstants_iff {index : Nat} :
    index ∈ changeInstants product ↔
      (∃ place ∈ falls product, 2 * place = index) ∨
        (∃ place ∈ rises product, 2 * place + 1 = index) ∨
          index = 0 ∧ bin product 0 < bin product 1 := by
  have hzero : index ∈ (if bin product 0 < bin product 1 then {0} else ∅ : Finset Nat) ↔
      index = 0 ∧ bin product 0 < bin product 1 := by
    split
    case isTrue hrise => simp [hrise]
    case isFalse hrise => simp [hrise]
  rw [changeInstants, Finset.mem_union, Finset.mem_union, hzero, Finset.mem_image,
    Finset.mem_image, or_assoc]

/-- Each bin that differs from the one before is lower than it or rises from it. -/
theorem card_falls_add_card_rises (product : Signal ℝ) :
    (falls product).card + (rises product).card =
      ((Finset.Ico 1 (product.size / 2)).filter fun place =>
        bin product (place - 1) ≠ bin product place).card := by
  have hdisjoint : Disjoint (falls product) ((rises product).image Nat.succ) := by
    rw [Finset.disjoint_left]
    intro place hfall hrise
    obtain ⟨before, hbefore, rfl⟩ := Finset.mem_image.mp hrise
    exact lt_asymm (mem_falls_iff.mp hfall).2.2 (mem_rises_iff.mp hbefore).2
  rw [← Finset.card_image_of_injective (rises product) Nat.succ_injective,
    ← Finset.card_union_of_disjoint hdisjoint]
  congr 1
  ext place
  rw [Finset.mem_union, Finset.mem_image, Finset.mem_filter, Finset.mem_Ico, mem_falls_iff]
  constructor
  · rintro (⟨hpositive, hplace, hfall⟩ | ⟨before, hrise, rfl⟩)
    · exact ⟨⟨hpositive, hplace⟩, hfall.ne'⟩
    · obtain ⟨hplace, hrise⟩ := mem_rises_iff.mp hrise
      exact ⟨⟨Nat.le_add_left 1 before, hplace⟩, hrise.ne⟩
  · rintro ⟨⟨hpositive, hplace⟩, hchange⟩
    cases lt_or_gt_of_ne hchange with
    | inl hrise =>
        refine .inr ⟨place - 1, mem_rises_iff.mpr ?_, Nat.succ_pred_eq_of_pos hpositive⟩
        rw [Nat.sub_add_cancel hpositive]
        exact ⟨hplace, hrise⟩
    | inr hfall => exact .inl ⟨hpositive, hplace, hfall⟩

theorem card_changeInstants (product : Signal ℝ) :
    (changeInstants product).card = changeCount product := by
  have hodd : Disjoint ((falls product).image fun place => 2 * place)
      ((rises product).image fun place => 2 * place + 1) := by
    rw [Finset.disjoint_left]
    intro index hfall hrise
    obtain ⟨lower, -, rfl⟩ := Finset.mem_image.mp hfall
    obtain ⟨before, -, hequal⟩ := Finset.mem_image.mp hrise
    omega
  have hzero : Disjoint (((falls product).image fun place => 2 * place) ∪
        (rises product).image fun place => 2 * place + 1)
      (if bin product 0 < bin product 1 then {0} else ∅) := by
    split
    case isTrue =>
      rw [Finset.disjoint_singleton_right, Finset.mem_union, Finset.mem_image, Finset.mem_image]
      rintro (⟨place, hfall, hequal⟩ | ⟨place, -, hequal⟩)
      · have hpositive := (mem_falls_iff.mp hfall).1
        omega
      · omega
    case isFalse => exact Finset.disjoint_empty_right _
  have hdouble : Function.Injective fun place : Nat => 2 * place :=
    fun left right hequal => Nat.eq_of_mul_eq_mul_left two_pos hequal
  have hdoubleSucc : Function.Injective fun place : Nat => 2 * place + 1 :=
    fun left right hequal => hdouble (Nat.succ_injective hequal)
  rw [changeInstants, Finset.card_union_of_disjoint hzero, Finset.card_union_of_disjoint hodd,
    Finset.card_image_of_injective _ hdouble, Finset.card_image_of_injective _ hdoubleSucc,
    card_falls_add_card_rises, changeCount]
  congr 1
  split
  · rfl
  · rfl

namespace IsPaired

theorem even_mem_closures_iff (hpaired : IsPaired product) (place : Nat) :
    2 * (place + 1) ∈ closures product ↔
      place + 1 < product.size / 2 ∧ bin product (place + 1) < bin product place := by
  have heven := hpaired.even
  rw [show 2 * (place + 1) = 2 * place + 1 + 1 by omega, succ_mem_closures_iff]
  constructor
  · rintro ⟨hsize, -, -, hstrict⟩
    have hlevel := hpaired.sample_eq place (by omega)
    have hnext : product.sample (2 * place + 1 + 2) = product.sample (2 * place + 1 + 1) :=
      hpaired.sample_eq (place + 1) (by omega)
    rw [hnext, hlevel] at hstrict
    exact ⟨by omega, hstrict.resolve_right (lt_irrefl _)⟩
  · rintro ⟨hsize, hfall⟩
    have hlevel := hpaired.sample_eq place (by omega)
    have hnext : product.sample (2 * place + 1 + 2) = product.sample (2 * place + 1 + 1) :=
      hpaired.sample_eq (place + 1) (by omega)
    rw [hnext, hlevel]
    exact ⟨by omega, hfall.le, le_rfl, .inl hfall⟩

theorem odd_mem_closures_iff (hpaired : IsPaired product) (place : Nat) :
    2 * place + 1 ∈ closures product ↔
      place + 1 < product.size / 2 ∧ bin product place < bin product (place + 1) := by
  have heven := hpaired.even
  rw [succ_mem_closures_iff]
  constructor
  · rintro ⟨hsize, -, -, hstrict⟩
    have hlevel := hpaired.sample_eq place (by omega)
    rw [hlevel] at hstrict
    exact ⟨by omega, hstrict.resolve_left (lt_irrefl _)⟩
  · rintro ⟨hsize, hrise⟩
    have hlevel := hpaired.sample_eq place (by omega)
    rw [hlevel]
    exact ⟨by omega, le_rfl, hrise.le, .inr hrise⟩

theorem zero_mem_closures_iff (hpaired : IsPaired product) (hsize : 4 ≤ product.size) :
    0 ∈ closures product ↔ bin product 0 < bin product 1 := by
  have hlevel : product.sample 1 = product.sample 0 := hpaired.sample_eq 0 (by omega)
  rw [MultiProduct.zero_mem_closures_iff, hlevel]
  constructor
  · rintro ⟨-, -, hrise⟩
    exact hrise
  · intro hrise
    exact ⟨by omega, rfl, hrise⟩

/-- The closures of a paired product are its changes. -/
theorem mem_closures_iff (hpaired : IsPaired product) (hsize : 4 ≤ product.size) (index : Nat) :
    index ∈ closures product ↔ index ∈ changeInstants product := by
  rw [mem_changeInstants_iff]
  obtain ⟨place, rfl | rfl⟩ := index.even_or_odd'
  · cases place with
    | zero =>
        rw [Nat.mul_zero, hpaired.zero_mem_closures_iff hsize]
        constructor
        · exact fun hrise => .inr (.inr ⟨rfl, hrise⟩)
        · rintro (⟨place, hfall, hzero⟩ | ⟨place, -, hzero⟩ | ⟨-, hrise⟩)
          · have hpositive := (mem_falls_iff.mp hfall).1
            omega
          · omega
          · exact hrise
    | succ place =>
        rw [hpaired.even_mem_closures_iff]
        constructor
        · exact fun hfall =>
            .inl ⟨place + 1, mem_falls_iff.mpr ⟨Nat.le_add_left 1 place, hfall⟩, rfl⟩
        · rintro (⟨other, hfall, hother⟩ | ⟨other, -, hother⟩ | ⟨hzero, -⟩)
          · obtain rfl : other = place + 1 := by omega
            exact (mem_falls_iff.mp hfall).2
          · omega
          · omega
  · rw [hpaired.odd_mem_closures_iff, ← mem_rises_iff]
    constructor
    · exact fun hrise => .inr (.inl ⟨place, hrise, rfl⟩)
    · rintro (⟨other, -, hother⟩ | ⟨other, hrise, hother⟩ | ⟨hzero, -⟩)
      · omega
      · obtain rfl : other = place := by omega
        exact hrise
      · omega

/-- The closures are the changes in ascending order. -/
theorem closures_eq_sort (hpaired : IsPaired product) (hsize : 4 ≤ product.size) :
    closures product = (changeInstants product).sort := by
  have hclosures : (closures product).Pairwise (· < ·) := Extremum.pairwise_find _ _
  refine hclosures.eq_of_mem_iff (changeInstants product).sortedLT_sort.pairwise fun index => ?_
  rw [hpaired.mem_closures_iff hsize, Finset.mem_sort]

end IsPaired

/-! ## The closures of a detector -/

/-- The product is level over bins of two samples, and its closures are its changes from bin
to bin in ascending order.  There is a cycle for every closure but the last, whatever the
sample rate. -/
theorem closures_eq_sort_changeInstants (detector : Detector) (signal : Signal ℝ)
    (hsome : 0 < (multiScaleProduct signal detector.levels).size) :
    IsPaired (multiScaleProduct signal detector.levels) ∧
    closures (multiScaleProduct signal detector.levels) =
      (changeInstants (multiScaleProduct signal detector.levels)).sort ∧
    (closures (multiScaleProduct signal detector.levels)).length =
      changeCount (multiScaleProduct signal detector.levels) ∧
    ∀ sampleRate : ℝ, 0 < sampleRate →
      ∃ found, detector.detect signal sampleRate = .ok found ∧
        found = cycles (multiScaleProduct signal detector.levels)
          (changeInstants (multiScaleProduct signal detector.levels)).sort ∧
        found.length = changeCount (multiScaleProduct signal detector.levels) - 1 := by
  have hpaired := isPaired_multiScaleProduct signal detector.levels
  have hclosures := hpaired.closures_eq_sort (four_le_size_multiScaleProduct hsome)
  have hcount : (closures (multiScaleProduct signal detector.levels)).length =
      changeCount (multiScaleProduct signal detector.levels) := by
    rw [hclosures, Finset.length_sort, card_changeInstants]
  refine ⟨hpaired, hclosures, hcount, fun sampleRate hrate => ?_⟩
  refine ⟨_, detector.detect_eq ((Scalar.isPositive_real_iff sampleRate).mpr hrate)
    signal.allFinite_real, ?_, ?_⟩
  · rw [hclosures]
  · rw [length_cycles, hcount]

/-! ### A level stretch of six samples -/

noncomputable def plateau : Signal ℝ :=
  .tabulate 64 fun index => if 4 ≤ index ∧ index < 10 then 1 else 0

theorem size_multiScaleProduct_plateau : (multiScaleProduct plateau 2).size = 64 := by
  rw [size_multiScaleProduct, plateau, Signal.size_tabulate]
  rfl

/-- The means of the pairs are the samples of the stretch itself. -/
theorem sample_multiScaleProduct_plateau {index : Nat} (hindex : index < 64) :
    (multiScaleProduct plateau 2).sample index = if 4 ≤ index ∧ index < 10 then 1 else 0 := by
  have hsample : ∀ place < 64,
      plateau.sample place = if 4 ≤ place ∧ place < 10 then 1 else 0 := by
    intro place hplace
    rw [plateau, Signal.sample_tabulate, if_pos hplace]
  rw [sample_multiScaleProduct_two _
      (by rwa [← size_multiScaleProduct, size_multiScaleProduct_plateau]),
    hsample _ (by omega), hsample _ (by omega)]
  by_cases hstretch : 4 ≤ index ∧ index < 10
  · rw [if_pos hstretch, if_pos (by omega), if_pos (by omega)]
    norm_num
  · rw [if_neg hstretch, if_neg (by omega), if_neg (by omega)]
    norm_num

/-- The stretch begins behind its neighbour on the left and is over at its neighbour on the
right. -/
theorem changeInstants_plateau : changeInstants (multiScaleProduct plateau 2) = {3, 10} := by
  have hbins : (multiScaleProduct plateau 2).size / 2 = 32 := by
    rw [size_multiScaleProduct_plateau]
  have hbin : ∀ place < 32, bin (multiScaleProduct plateau 2) place =
      if 2 ≤ place ∧ place < 5 then 1 else 0 := by
    intro place hplace
    rw [bin, sample_multiScaleProduct_plateau (by omega)]
    exact if_congr (by omega) rfl rfl
  have hlt : ∀ left < 32, ∀ right < 32,
      (bin (multiScaleProduct plateau 2) left < bin (multiScaleProduct plateau 2) right ↔
        ¬(2 ≤ left ∧ left < 5) ∧ 2 ≤ right ∧ right < 5) := by
    intro left hleft right hright
    rw [hbin left hleft, hbin right hright]
    split <;> split <;> simp [*]
  ext index
  rw [mem_changeInstants_iff, hlt 0 (by omega) 1 (by omega), Finset.mem_insert,
    Finset.mem_singleton]
  constructor
  · rintro (⟨place, hfall, rfl⟩ | ⟨place, hrise, rfl⟩ | ⟨-, hrise⟩)
    · obtain ⟨hpositive, hplace, hfall⟩ := mem_falls_iff.mp hfall
      rw [hlt _ (by omega) _ (by omega)] at hfall
      omega
    · obtain ⟨hplace, hrise⟩ := mem_rises_iff.mp hrise
      rw [hlt _ (by omega) _ (by omega)] at hrise
      omega
    · omega
  · rintro (rfl | rfl)
    · refine .inr (.inl ⟨1, mem_rises_iff.mpr ⟨by omega, ?_⟩, rfl⟩)
      rw [hlt 1 (by omega) 2 (by omega)]
      decide
    · refine .inl ⟨5, mem_falls_iff.mpr ⟨by omega, by omega, ?_⟩, rfl⟩
      rw [hlt 5 (by omega) 4 (by omega)]
      decide

theorem sort_changeInstants_plateau :
    (changeInstants (multiScaleProduct plateau 2)).sort = [3, 10] := by
  rw [changeInstants_plateau, Finset.sort_insert (· ≤ ·) (by decide) (by decide),
    Finset.sort_singleton]

/-- The stretch has two changes, which make one cycle. -/
theorem closures_eq_sort_changeInstants_plateau :
    0 < (multiScaleProduct plateau 2).size ∧
      closures (multiScaleProduct plateau 2) = [3, 10] ∧
      ∃ found, (⟨2, by decide⟩ : Detector).detect plateau 16000 = .ok found ∧
        found.length = 1 := by
  have hsome : 0 < (multiScaleProduct plateau 2).size := by
    rw [size_multiScaleProduct_plateau]
    decide
  obtain ⟨-, hclosures, -, hdetect⟩ :=
    closures_eq_sort_changeInstants ⟨2, by decide⟩ plateau hsome
  obtain ⟨found, hfound, -, hcount⟩ := hdetect 16000 (by norm_num)
  refine ⟨hsome, ?_, found, hfound, ?_⟩
  · rw [hclosures, sort_changeInstants_plateau]
  · rw [hcount, ← card_changeInstants, changeInstants_plateau]
    rfl

end Glottis.MultiProduct
