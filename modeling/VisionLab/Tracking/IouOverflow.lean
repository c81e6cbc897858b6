import Mathlib.Data.Int.ConditionallyCompleteOrder
import Mathlib.Data.Int.Interval
import VisionLab.Lib.Overlap
import VisionLab.Lib.Word
import VisionLab.Tracking.IouMatching

/-! The overlap of two boxes as an `int` of 32 bits computes it, against the overlap of the sets of
their pixels. The sum of the areas may leave the word; the union comes back into it, or it turns
negative and the overlap is taken for none. -/
namespace VisionLab

/-- Machine integers, and an exact quotient. -/
def Arithmetic.int32 : Arithmetic := ⟨Word.signed 32, fun n d => n / d⟩

namespace Rect

noncomputable def pixels (r : Rect) : Finset (ℤ × ℤ) :=
  Finset.Ico r.x (r.x + r.width) ×ˢ Finset.Ico r.y (r.y + r.height)

/-- A box as the filter gives it, with edges and an area that an `int` holds. -/
structure FitsInt (r : Rect) : Prop where
  width_pos : 1 ≤ r.width
  height_pos : 1 ≤ r.height
  left_fits : -2 ^ 31 ≤ r.x
  right_fits : r.x + r.width < 2 ^ 31
  top_fits : -2 ^ 31 ≤ r.y
  bottom_fits : r.y + r.height < 2 ^ 31
  area_fits : r.area < 2 ^ 31

variable {a b r : Rect}

theorem mem_pixels {p : ℤ × ℤ} : p ∈ r.pixels ↔
    (r.x ≤ p.1 ∧ p.1 < r.x + r.width) ∧ r.y ≤ p.2 ∧ p.2 < r.y + r.height := by
  simp only [pixels, Finset.mem_product, Finset.mem_Ico]

theorem not_empty (w : 1 ≤ r.width) (h : 1 ≤ r.height) : r.empty = false := by
  simp only [empty, Bool.or_eq_false_iff, decide_eq_false_iff_not]
  omega

theorem pixels_nonempty (w : 1 ≤ r.width) (h : 1 ≤ r.height) : r.pixels.Nonempty :=
  ⟨(r.x, r.y), mem_pixels.mpr (by omega)⟩

theorem card_pixels (w : 0 ≤ r.width) (h : 0 ≤ r.height) : (r.pixels.card : ℤ) = r.area := by
  simp only [pixels, Finset.card_product, Int.card_Ico, area]
  push_cast
  congr <;> omega

theorem pixels_inter (ha : a.empty = false) (hb : b.empty = false) :
    (a.inter b).pixels = a.pixels ∩ b.pixels := by
  ext p
  simp only [Finset.mem_inter, inter, ha, hb, Bool.false_or]
  split
  · rename_i apart
    simp only [empty, Bool.or_eq_true, decide_eq_true_eq] at apart
    simp only [mem_pixels]
    omega
  · simp only [mem_pixels]
    omega

theorem inter_extent (ha : a.empty = false) (hb : b.empty = false) :
    0 ≤ (a.inter b).width ∧ 0 ≤ (a.inter b).height := by
  simp only [inter, ha, hb, Bool.false_or]
  split
  · exact ⟨le_refl 0, le_refl 0⟩
  · rename_i apart
    simp only [empty, Bool.or_eq_true, decide_eq_true_eq] at apart
    dsimp only at apart ⊢
    omega

theorem pixels_inj (wa : 1 ≤ a.width) (ha : 1 ≤ a.height) (wb : 1 ≤ b.width) (hb : 1 ≤ b.height) :
    a.pixels = b.pixels ↔ a = b := by
  constructor
  · intro same
    have corner (p : ℤ × ℤ) : p ∈ a.pixels ↔ p ∈ b.pixels := by rw [same]
    simp only [mem_pixels] at corner
    have first := corner (a.x, a.y)
    have last := corner (a.x + a.width - 1, a.y + a.height - 1)
    have first' := corner (b.x, b.y)
    have last' := corner (b.x + b.width - 1, b.y + b.height - 1)
    obtain ⟨ax, ay, aw, ah⟩ := a
    obtain ⟨bx, by', bw, bh⟩ := b
    simp only at *
    simp only [Rect.mk.injEq]
    omega
  · rintro rfl
    rfl

theorem FitsInt.not_empty (fits : r.FitsInt) : r.empty = false :=
  Rect.not_empty fits.width_pos fits.height_pos

theorem FitsInt.nonempty (fits : r.FitsInt) : r.pixels.Nonempty :=
  pixels_nonempty fits.width_pos fits.height_pos

theorem FitsInt.card_eq (fits : r.FitsInt) : (r.pixels.card : ℤ) = r.area :=
  card_pixels (by have := fits.width_pos; omega) (by have := fits.height_pos; omega)

theorem FitsInt.area_pos (fits : r.FitsInt) : 0 < r.area :=
  mul_pos fits.width_pos fits.height_pos

theorem FitsInt.card_inter_eq (ha : a.FitsInt) (hb : b.FitsInt) :
    ((a.pixels ∩ b.pixels).card : ℤ) = (a.inter b).area := by
  have extent := inter_extent ha.not_empty hb.not_empty
  rw [← pixels_inter ha.not_empty hb.not_empty, card_pixels extent.1 extent.2]

end Rect

section Overflow

variable {a b : Rect}

theorem int32_of_fits {n : ℤ} (low : -2 ^ 31 ≤ n) (high : n < 2 ^ 31) :
    Arithmetic.int32.int n = n :=
  @Word.signed_of_fits 31 n (by simpa using low) (by simpa using high)

theorem int32_of_wraps {n : ℤ} (low : 2 ^ 31 ≤ n) (high : n < 2 ^ 32) :
    Arithmetic.int32.int n < 0 :=
  @Word.signed_of_wraps 31 n (by simpa using low) (by simpa using high)

/-- A sum that leaves the word comes back with the subtraction. -/
theorem int32_sub (m n : ℤ) :
    Arithmetic.int32.int (Arithmetic.int32.int m - n) = Arithmetic.int32.int (m - n) := by
  simp only [Arithmetic.int32, Word.signed]
  exact Int.bmod_sub_bmod

theorem card_union_eq (ha : a.FitsInt) (hb : b.FitsInt) :
    ((a.pixels ∪ b.pixels).card : ℤ) = a.area + b.area - (a.inter b).area := by
  have both := Finset.card_union_add_card_inter a.pixels b.pixels
  have first := ha.card_eq
  have second := hb.card_eq
  have common := ha.card_inter_eq hb
  omega

theorem inter_area_bounds (ha : a.FitsInt) (hb : b.FitsInt) :
    0 ≤ (a.inter b).area ∧ (a.inter b).area ≤ a.area := by
  have part : (a.pixels ∩ b.pixels).card ≤ a.pixels.card :=
    Finset.card_le_card Finset.inter_subset_left
  have first := ha.card_eq
  have common := ha.card_inter_eq hb
  omega

theorem intersectionOverUnion_int32 (ha : a.FitsInt) (hb : b.FitsInt) :
    intersectionOverUnion .int32 a b =
      if (a.pixels ∪ b.pixels).card < 2 ^ 31 then Overlap.ratio a.pixels b.pixels else 0 := by
  obtain ⟨low, high⟩ := inter_area_bounds ha hb
  have union := card_union_eq ha hb
  have common := ha.card_inter_eq hb
  have fits_a := ha.area_fits
  have fits_b := hb.area_fits
  have pos_b := hb.area_pos
  have word_a := int32_of_fits (n := a.area) (by have := ha.area_pos; omega) fits_a
  have word_b := int32_of_fits (n := b.area) (by omega) fits_b
  have word_inter := int32_of_fits (n := (a.inter b).area) (by omega) (by omega)
  simp only [intersectionOverUnion, ha.not_empty, hb.not_empty, Bool.or_self, Bool.false_eq_true,
    if_false, word_a, word_b, word_inter, int32_sub, ← union]
  by_cases apart : (a.inter b).area ≤ 0
  · have nothing : (a.pixels ∩ b.pixels).card = 0 := by omega
    simp only [if_pos apart, Overlap.ratio, nothing, Nat.cast_zero, zero_div, ite_self]
  · rw [if_neg apart]
    by_cases small : (a.pixels ∪ b.pixels).card < 2 ^ 31
    · have word := int32_of_fits (n := ((a.pixels ∪ b.pixels).card : ℤ)) (by omega) (by omega)
      have positive : ¬ ((a.pixels ∪ b.pixels).card : ℤ) ≤ 0 := by omega
      rw [word, if_neg positive, if_pos small, ← common]
      simp only [Arithmetic.int32, Overlap.ratio, Int.cast_natCast]
    · have wrapped := int32_of_wraps (n := ((a.pixels ∪ b.pixels).card : ℤ)) (by omega) (by omega)
      rw [if_pos (le_of_lt wrapped), if_neg small]

/-- The machine's overlap is the share of common pixels, with all that follows from it. -/
structure IouExact (m : Arithmetic) (a b : Rect) : Prop where
  ratio : intersectionOverUnion m a b =
    ((a.pixels ∩ b.pixels).card : ℚ) / (a.pixels ∪ b.pixels).card
  symmetric : intersectionOverUnion m a b = intersectionOverUnion m b a
  bounds : 0 ≤ intersectionOverUnion m a b ∧ intersectionOverUnion m a b ≤ 1
  one_iff : intersectionOverUnion m a b = 1 ↔ a = b
  zero_iff : intersectionOverUnion m a b = 0 ↔ Disjoint a.pixels b.pixels

theorem iouExact_of_ratio {m : Arithmetic} (ha : a.FitsInt) (hb : b.FitsInt)
    (here : intersectionOverUnion m a b = Overlap.ratio a.pixels b.pixels)
    (there : intersectionOverUnion m b a = Overlap.ratio b.pixels a.pixels) : IouExact m a b := by
  constructor
  case ratio => exact here
  case symmetric => rw [here, there, Overlap.ratio_comm]
  case bounds =>
    rw [here]
    exact ⟨Overlap.ratio_nonneg _ _, Overlap.ratio_le_one _ _⟩
  case one_iff =>
    rw [here, Overlap.ratio_eq_one ha.nonempty,
      Rect.pixels_inj ha.width_pos ha.height_pos hb.width_pos hb.height_pos]
  case zero_iff => rw [here, Overlap.ratio_eq_zero ha.nonempty]

/-- Machine integers give the overlap of two boxes exactly when there is none, or when the two
together have fewer pixels than an `int` can count. -/
theorem iouExact_int32_iff (a b : Rect) (ha : a.FitsInt) (hb : b.FitsInt) :
    IouExact .int32 a b ↔
      Disjoint a.pixels b.pixels ∨ (a.pixels ∪ b.pixels).card < 2 ^ 31 := by
  have value := intersectionOverUnion_int32 ha hb
  have value' := intersectionOverUnion_int32 hb ha
  rw [Finset.union_comm] at value'
  constructor
  · intro exact_
    by_cases small : (a.pixels ∪ b.pixels).card < 2 ^ 31
    · exact Or.inr small
    · rw [if_neg small] at value
      exact Or.inl (exact_.zero_iff.mp value)
  · intro within
    by_cases small : (a.pixels ∪ b.pixels).card < 2 ^ 31
    · rw [if_pos small] at value value'
      exact iouExact_of_ratio ha hb value value'
    · have apart := within.resolve_right small
      rw [if_neg small] at value value'
      exact iouExact_of_ratio ha hb
        (value.trans ((Overlap.ratio_eq_zero ha.nonempty).mpr apart).symm)
        (value'.trans ((Overlap.ratio_eq_zero hb.nonempty).mpr apart.symm).symm)

theorem not_iouExact_of_zero {m : Arithmetic} {p : ℤ × ℤ}
    (none_ : intersectionOverUnion m a b = 0) (first : p ∈ a.pixels) (second : p ∈ b.pixels) :
    ¬ IouExact m a b := by
  intro exact_
  exact Finset.disjoint_left.mp (exact_.zero_iff.mp none_) first second

/-- Two boxes that cross each other, one of them partly left of and above the frame. -/
theorem iouExact_crossed : (⟨-3, -2, 7, 5⟩ : Rect).FitsInt ∧ (⟨1, -1, 6, 9⟩ : Rect).FitsInt ∧
    IouExact .int32 ⟨-3, -2, 7, 5⟩ ⟨1, -1, 6, 9⟩ := by
  have first : (⟨-3, -2, 7, 5⟩ : Rect).FitsInt := by constructor <;> decide
  have second : (⟨1, -1, 6, 9⟩ : Rect).FitsInt := by constructor <;> decide
  refine ⟨first, second, (iouExact_int32_iff _ _ first second).mpr (Or.inr ?_)⟩
  decide +kernel

/-- A box and the same box moved a little: they have more than 99 percent of their pixels in common,
and `int` takes it for none. -/
theorem not_iouExact_large :
    (⟨0, 0, 46340, 46340⟩ : Rect).FitsInt ∧ (⟨200, 0, 46340, 46340⟩ : Rect).FitsInt ∧
      ¬ IouExact .int32 ⟨0, 0, 46340, 46340⟩ ⟨200, 0, 46340, 46340⟩ := by
  refine ⟨by constructor <;> decide, by constructor <;> decide, ?_⟩
  exact not_iouExact_of_zero (p := (200, 0)) (by decide +kernel) (by simp [Rect.mem_pixels])
    (by simp [Rect.mem_pixels])

end Overflow

end VisionLab
