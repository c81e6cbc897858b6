import Mathlib.Algebra.Order.Field.Basic
import Mathlib.Data.Finset.Card
import Mathlib.Data.Rat.Cast.Order

/-! How much two finite sets overlap: the share of the common elements among all of them. -/
namespace Overlap

variable {α : Type*} [DecidableEq α] {s t : Finset α}

def ratio (s t : Finset α) : ℚ := (s ∩ t).card / (s ∪ t).card

theorem ratio_comm (s t : Finset α) : ratio s t = ratio t s := by
  simp only [ratio, Finset.inter_comm s t, Finset.union_comm s t]

theorem ratio_nonneg (s t : Finset α) : 0 ≤ ratio s t :=
  div_nonneg (Nat.cast_nonneg _) (Nat.cast_nonneg _)

theorem ratio_le_one (s t : Finset α) : ratio s t ≤ 1 :=
  div_le_one_of_le₀ (Nat.cast_le.mpr (Finset.card_le_card Finset.inter_subset_union))
    (Nat.cast_nonneg _)

theorem union_card_pos (some_ : s.Nonempty) : 0 < (s ∪ t).card :=
  Finset.card_pos.mpr (some_.mono Finset.subset_union_left)

theorem ratio_eq_zero (some_ : s.Nonempty) : ratio s t = 0 ↔ Disjoint s t := by
  have all : ((s ∪ t).card : ℚ) ≠ 0 := Nat.cast_ne_zero.mpr (union_card_pos some_).ne'
  rw [ratio, div_eq_zero_iff, or_iff_left all, Nat.cast_eq_zero, Finset.card_eq_zero,
    Finset.disjoint_iff_inter_eq_empty]

theorem ratio_eq_one (some_ : s.Nonempty) : ratio s t = 1 ↔ s = t := by
  have all : ((s ∪ t).card : ℚ) ≠ 0 := Nat.cast_ne_zero.mpr (union_card_pos some_).ne'
  rw [ratio, div_eq_one_iff_eq all, Nat.cast_inj]
  constructor
  · intro full
    have same : s ∩ t = s ∪ t := Finset.eq_of_subset_of_card_le Finset.inter_subset_union full.ge
    exact inf_eq_sup.mp same
  · rintro rfl
    simp only [Finset.inter_self, Finset.union_self]

end Overlap
