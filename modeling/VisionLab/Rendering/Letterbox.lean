import VisionLab.Core.Types

/-! The frame inside the item that shows it: scaled as a whole, centred, with black bars where the
ratios differ. -/
namespace VisionLab

structure Letterbox where
  offsetX : ℚ := 0
  offsetY : ℚ := 0
  contentW : ℚ := 0
  contentH : ℚ := 0
  scale : ℚ := 1
  deriving DecidableEq, Repr

def computeLetterbox (itemW itemH : ℚ) (frameW frameH : ℤ) : Letterbox :=
  if itemW ≤ 0 ∨ itemH ≤ 0 ∨ frameW ≤ 0 ∨ frameH ≤ 0 then { scale := 0 }
  else
    let scale := min (itemW / frameW) (itemH / frameH)
    let contentW := frameW * scale
    let contentH := frameH * scale
    { offsetX := (itemW - contentW) * (1 / 2)
      offsetY := (itemH - contentH) * (1 / 2)
      contentW := contentW
      contentH := contentH
      scale := scale }

/-- `none` outside the video area. -/
def Letterbox.itemToFrame (box : Letterbox) (itemX itemY : ℚ) (frameW frameH : ℤ) :
    Option Point2f :=
  if box.scale ≤ 0 ∨ frameW ≤ 0 ∨ frameH ≤ 0 then none
  else if itemX < box.offsetX ∨ itemY < box.offsetY then none
  else if box.offsetX + box.contentW < itemX ∨ box.offsetY + box.contentH < itemY then none
  else some ⟨(itemX - box.offsetX) / box.scale, (itemY - box.offsetY) / box.scale⟩

def Letterbox.frameToItem (box : Letterbox) (frameX frameY : ℚ) : Option Point2f :=
  if box.scale = 0 then none
  else some ⟨box.offsetX + frameX * box.scale, box.offsetY + frameY * box.scale⟩

end VisionLab
