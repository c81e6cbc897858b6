import Mathlib.Tactic.Linarith
import Mathlib.Tactic.Ring
import VisionLab.Rendering.Letterbox

/-! The frame as the item shows it, and the way from a point of one to the point of the other. Each
axis is one affine map of an interval; the letterbox is two of them with a common scale. -/
namespace VisionLab

namespace Letterbox

section Axis

variable {scale offset extent x : ℚ}

theorem axis_inside (positive : 0 < scale) :
    offset ≤ x ∧ x ≤ offset + extent * scale ↔
      0 ≤ (x - offset) / scale ∧ (x - offset) / scale ≤ extent := by
  have low : 0 ≤ (x - offset) / scale ↔ offset ≤ x := by
    rw [le_div_iff₀ positive, zero_mul, sub_nonneg]
  have high : (x - offset) / scale ≤ extent ↔ x ≤ offset + extent * scale := by
    rw [div_le_iff₀ positive, sub_le_iff_le_add, add_comm]
  rw [low, high]

theorem axis_there_and_back (positive : 0 < scale) :
    offset + (x - offset) / scale * scale = x := by
  have cancel : (x - offset) / scale * scale = x - offset := div_mul_cancel₀ _ positive.ne'
  linarith

theorem axis_back_and_there (positive : 0 < scale) : (offset + x * scale - offset) / scale = x := by
  have cancel : offset + x * scale - offset = x * scale := by ring
  rw [cancel, mul_div_cancel_right₀ _ positive.ne']

end Axis

def Contains (box : Letterbox) (itemX itemY : ℚ) : Prop :=
  (box.offsetX ≤ itemX ∧ itemX ≤ box.offsetX + box.contentW) ∧
    box.offsetY ≤ itemY ∧ itemY ≤ box.offsetY + box.contentH

def InFrame (frameW frameH : ℤ) (p : Point2f) : Prop :=
  (0 ≤ p.x ∧ p.x ≤ frameW) ∧ 0 ≤ p.y ∧ p.y ≤ frameH

/-- The content rectangle shows the whole frame in the item as large as it goes. -/
structure Fits (box : Letterbox) (itemW itemH : ℚ) (frameW frameH : ℤ) : Prop where
  inside : (0 ≤ box.offsetX ∧ box.offsetX + box.contentW ≤ itemW) ∧
    0 ≤ box.offsetY ∧ box.offsetY + box.contentH ≤ itemH
  centred : box.offsetX = itemW - (box.offsetX + box.contentW) ∧
    box.offsetY = itemH - (box.offsetY + box.contentH)
  visible : 0 < box.contentW ∧ 0 < box.contentH
  ratio : box.contentW / box.contentH = frameW / frameH
  touches : (box.offsetX = 0 ∧ box.offsetX + box.contentW = itemW) ∨
    (box.offsetY = 0 ∧ box.offsetY + box.contentH = itemH)

/-- The two maps are inverse to each other between the content rectangle and the frame. -/
structure Maps (box : Letterbox) (frameW frameH : ℤ) : Prop where
  succeeds : ∀ itemX itemY,
    (∃ p, box.itemToFrame itemX itemY frameW frameH = some p) ↔ box.Contains itemX itemY
  lands : ∀ itemX itemY p, box.itemToFrame itemX itemY frameW frameH = some p →
    InFrame frameW frameH p ∧ box.frameToItem p.x p.y = some ⟨itemX, itemY⟩
  returns : ∀ p, InFrame frameW frameH p →
    ∃ q, box.frameToItem p.x p.y = some q ∧ box.itemToFrame q.x q.y frameW frameH = some p

/-- What `computeLetterbox` gives for positive sizes. -/
structure Scaled (box : Letterbox) (itemW itemH : ℚ) (frameW frameH : ℤ) : Prop where
  scale_eq : box.scale = min (itemW / frameW) (itemH / frameH)
  contentW_eq : box.contentW = frameW * box.scale
  contentH_eq : box.contentH = frameH * box.scale
  offsetX_eq : box.offsetX = (itemW - box.contentW) * (1 / 2)
  offsetY_eq : box.offsetY = (itemH - box.contentH) * (1 / 2)

variable {box : Letterbox} {itemW itemH : ℚ} {frameW frameH : ℤ}

theorem computeLetterbox_scaled (hw : 0 < itemW) (hh : 0 < itemH) (fw : 0 < frameW)
    (fh : 0 < frameH) :
    (computeLetterbox itemW itemH frameW frameH).Scaled itemW itemH frameW frameH := by
  have valid : ¬ (itemW ≤ 0 ∨ itemH ≤ 0 ∨ frameW ≤ 0 ∨ frameH ≤ 0) := by
    simp only [not_or, not_le]
    exact ⟨hw, hh, fw, fh⟩
  simp only [computeLetterbox, if_neg valid]
  constructor <;> rfl

theorem Scaled.positive (scaled : box.Scaled itemW itemH frameW frameH) (hw : 0 < itemW)
    (hh : 0 < itemH) (fw : 0 < frameW) (fh : 0 < frameH) : 0 < box.scale := by
  rw [scaled.scale_eq]
  exact lt_min (div_pos hw (Int.cast_pos.mpr fw)) (div_pos hh (Int.cast_pos.mpr fh))

theorem Scaled.content_le (scaled : box.Scaled itemW itemH frameW frameH) (fw : 0 < frameW)
    (fh : 0 < frameH) :
    box.contentW ≤ itemW ∧ box.contentH ≤ itemH ∧
      (box.contentW = itemW ∨ box.contentH = itemH) := by
  have w : (0 : ℚ) < frameW := Int.cast_pos.mpr fw
  have h : (0 : ℚ) < frameH := Int.cast_pos.mpr fh
  have across : box.contentW ≤ itemW := by
    rw [scaled.contentW_eq, scaled.scale_eq, mul_comm, ← le_div_iff₀ w]
    exact min_le_left _ _
  have down : box.contentH ≤ itemH := by
    rw [scaled.contentH_eq, scaled.scale_eq, mul_comm, ← le_div_iff₀ h]
    exact min_le_right _ _
  refine ⟨across, down, ?_⟩
  cases min_choice (itemW / frameW) (itemH / frameH) with
  | inl narrow =>
    left
    rw [scaled.contentW_eq, scaled.scale_eq, narrow, mul_div_cancel₀ _ w.ne']
  | inr flat =>
    right
    rw [scaled.contentH_eq, scaled.scale_eq, flat, mul_div_cancel₀ _ h.ne']

theorem Scaled.fits (scaled : box.Scaled itemW itemH frameW frameH) (hw : 0 < itemW)
    (hh : 0 < itemH) (fw : 0 < frameW) (fh : 0 < frameH) : box.Fits itemW itemH frameW frameH := by
  have s := scaled.positive hw hh fw fh
  have w : (0 : ℚ) < frameW := Int.cast_pos.mpr fw
  have h : (0 : ℚ) < frameH := Int.cast_pos.mpr fh
  obtain ⟨across, down, full⟩ := scaled.content_le fw fh
  have left_ := scaled.offsetX_eq
  have top := scaled.offsetY_eq
  constructor
  case inside => constructor <;> constructor <;> linarith
  case centred => constructor <;> linarith
  case visible =>
    rw [scaled.contentW_eq, scaled.contentH_eq]
    exact ⟨mul_pos w s, mul_pos h s⟩
  case ratio =>
    rw [scaled.contentW_eq, scaled.contentH_eq]
    exact mul_div_mul_right _ _ s.ne'
  case touches =>
    cases full with
    | inl wide => left; constructor <;> linarith
    | inr high => right; constructor <;> linarith

theorem itemToFrame_eq_some {itemX itemY : ℚ} {p : Point2f} (positive : 0 < box.scale)
    (fw : 0 < frameW) (fh : 0 < frameH) :
    box.itemToFrame itemX itemY frameW frameH = some p ↔ box.Contains itemX itemY ∧
      p = ⟨(itemX - box.offsetX) / box.scale, (itemY - box.offsetY) / box.scale⟩ := by
  have valid : ¬ (box.scale ≤ 0 ∨ frameW ≤ 0 ∨ frameH ≤ 0) := by
    simp only [not_or, not_le]
    exact ⟨positive, fw, fh⟩
  by_cases before : itemX < box.offsetX ∨ itemY < box.offsetY
  · have out : ¬ box.Contains itemX itemY := by
      intro inside
      cases before with
      | inl left_ => exact absurd inside.1.1 (not_le.mpr left_)
      | inr above => exact absurd inside.2.1 (not_le.mpr above)
    simp only [itemToFrame, if_neg valid, if_pos before, out, false_and, reduceCtorEq]
  · by_cases behind : box.offsetX + box.contentW < itemX ∨ box.offsetY + box.contentH < itemY
    · have out : ¬ box.Contains itemX itemY := by
        intro inside
        cases behind with
        | inl right_ => exact absurd inside.1.2 (not_le.mpr right_)
        | inr below => exact absurd inside.2.2 (not_le.mpr below)
      simp only [itemToFrame, if_neg valid, if_neg before, if_pos behind, out, false_and,
        reduceCtorEq]
    · have inside : box.Contains itemX itemY := by
        simp only [not_or, not_lt] at before behind
        exact ⟨⟨before.1, behind.1⟩, before.2, behind.2⟩
      simp only [itemToFrame, if_neg valid, if_neg before, if_neg behind, inside, true_and,
        Option.some.injEq, eq_comm]

theorem frameToItem_eq {frameX frameY : ℚ} (positive : 0 < box.scale) :
    box.frameToItem frameX frameY =
      some ⟨box.offsetX + frameX * box.scale, box.offsetY + frameY * box.scale⟩ := by
  simp only [frameToItem, if_neg positive.ne']

/-- An item point is in the content exactly when its image is in the frame. -/
theorem Scaled.contains_iff (scaled : box.Scaled itemW itemH frameW frameH)
    (positive : 0 < box.scale) (itemX itemY : ℚ) :
    box.Contains itemX itemY ↔ InFrame frameW frameH
      ⟨(itemX - box.offsetX) / box.scale, (itemY - box.offsetY) / box.scale⟩ := by
  simp only [Contains, InFrame, scaled.contentW_eq, scaled.contentH_eq, axis_inside positive]

theorem Scaled.maps (scaled : box.Scaled itemW itemH frameW frameH) (positive : 0 < box.scale)
    (fw : 0 < frameW) (fh : 0 < frameH) : box.Maps frameW frameH := by
  constructor
  case succeeds =>
    intro itemX itemY
    constructor
    · rintro ⟨p, found⟩
      exact ((itemToFrame_eq_some positive fw fh).mp found).1
    · intro inside
      exact ⟨_, (itemToFrame_eq_some positive fw fh).mpr ⟨inside, rfl⟩⟩
  case lands =>
    intro itemX itemY p found
    obtain ⟨inside, rfl⟩ := (itemToFrame_eq_some positive fw fh).mp found
    refine ⟨(scaled.contains_iff positive itemX itemY).mp inside, ?_⟩
    rw [frameToItem_eq positive, axis_there_and_back positive, axis_there_and_back positive]
  case returns =>
    intro p within
    refine ⟨_, frameToItem_eq positive, (itemToFrame_eq_some positive fw fh).mpr ?_⟩
    have image : p = ⟨(box.offsetX + p.x * box.scale - box.offsetX) / box.scale,
        (box.offsetY + p.y * box.scale - box.offsetY) / box.scale⟩ := by
      rw [axis_back_and_there positive, axis_back_and_there positive]
    exact ⟨(scaled.contains_iff positive _ _).mpr (image ▸ within), image⟩

/-- The content rectangle fits the item, and the points of it and of the frame correspond. -/
theorem computeLetterbox_fits_and_maps (itemW itemH : ℚ) (frameW frameH : ℤ) (hw : 0 < itemW)
    (hh : 0 < itemH) (fw : 0 < frameW) (fh : 0 < frameH) :
    (computeLetterbox itemW itemH frameW frameH).Fits itemW itemH frameW frameH ∧
      (computeLetterbox itemW itemH frameW frameH).Maps frameW frameH := by
  have scaled := computeLetterbox_scaled hw hh fw fh
  exact ⟨scaled.fits hw hh fw fh, scaled.maps (scaled.positive hw hh fw fh) fw fh⟩

theorem computeLetterbox_wide :
    (0 : ℚ) < 800 ∧ (0 : ℚ) < 600 ∧ (0 : ℤ) < 1920 ∧ (0 : ℤ) < 1080 ∧
      (computeLetterbox 800 600 1920 1080).Fits 800 600 1920 1080 ∧
      (computeLetterbox 800 600 1920 1080).Maps 1920 1080 :=
  ⟨by decide, by decide, by decide, by decide,
    computeLetterbox_fits_and_maps 800 600 1920 1080 (by decide) (by decide) (by decide)
      (by decide)⟩

end Letterbox

end VisionLab
