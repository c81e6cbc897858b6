import VisionLab.Detectors.YoloSafety

/-! The decoder of the face detector, which checks the number of columns that the YOLO decoder takes
for granted, and so stays inside every output of the network. -/
namespace VisionLab

/-- The output of the network: a matrix that owns its data, in the sizes of its dimensions. -/
structure SsdOutput (F : Type) where
  size : List ℕ
  data : List F
  owned : data.length = size.prod

namespace Ssd

variable {F : Type}

open SingleFloat

section Decoding

variable [SingleFloat F]

def kFaceClassId : ℤ := 0

/-- The rectangle with the two corners, in either order. -/
def rectOf (x1 y1 x2 y2 : ℤ) : Rect where
  x := min x1 x2
  y := min y1 y2
  width := Word.signed 32 (max x1 x2 - min x1 x2)
  height := Word.signed 32 (max y1 y2 - min y1 y2)

/-- One turn of the loop over the records, each `cols` floats long. -/
def decodeRecord (data : List F) (cols : ℕ) (frameSize : Size) (confidenceThreshold : F) (i : ℕ) :
    Except Checked.Fault (Option (FloatDetection F)) := do
  let record := i * cols
  let confidence ← Checked.get data (record + 2)
  if below confidence confidenceThreshold then
    return none
  let x1 := toInt (scaled (← Checked.get data (record + 3)) frameSize.width)
  let y1 := toInt (scaled (← Checked.get data (record + 4)) frameSize.height)
  let x2 := toInt (scaled (← Checked.get data (record + 5)) frameSize.width)
  let y2 := toInt (scaled (← Checked.get data (record + 6)) frameSize.height)
  let box := (rectOf x1 y1 x2 y2).inter ⟨0, 0, frameSize.width, frameSize.height⟩
  if box.empty then
    return none
  return some ⟨kFaceClassId, "Face", confidence, box⟩

def decodeDetections (output : SsdOutput F) (frameSize : Size) (confidenceThreshold : F) :
    Except Checked.Fault (List (FloatDetection F)) :=
  match output.size with
  | [_, _, count, cols] =>
    if count = 0 ∨ cols < 7 then .ok []
    else do
      let found ← (List.range count).mapM
        (decodeRecord output.data cols frameSize confidenceThreshold)
      return found.reduceOption
  | _ => .ok []

variable {frameSize : Size} {confidenceThreshold : F} {data : List F} {cols i : ℕ}

theorem decodeRecord_ok (columns : 7 ≤ cols) (whole : (i + 1) * cols ≤ data.length) :
    ∃ found, decodeRecord data cols frameSize confidenceThreshold i = .ok found := by
  rw [Nat.succ_mul] at whole
  have confidence := Checked.get_of_lt (by omega : i * cols + 2 < data.length)
  have x1 := Checked.get_of_lt (by omega : i * cols + 3 < data.length)
  have y1 := Checked.get_of_lt (by omega : i * cols + 4 < data.length)
  have x2 := Checked.get_of_lt (by omega : i * cols + 5 < data.length)
  have y2 := Checked.get_of_lt (by omega : i * cols + 6 < data.length)
  unfold decodeRecord
  simp only [bind, Except.bind, pure, Except.pure, confidence, x1, y1, x2, y2]
  split
  · exact ⟨_, rfl⟩
  · split
    · exact ⟨_, rfl⟩
    · exact ⟨_, rfl⟩

theorem decodeRecord_face {d : FloatDetection F}
    (done : decodeRecord data cols frameSize confidenceThreshold i = .ok (some d)) :
    below d.confidence confidenceThreshold = false ∧ Yolo.InFrame frameSize d.box ∧
      d.classId = kFaceClassId := by
  unfold decodeRecord at done
  obtain ⟨confidence, -, done⟩ := Checked.bind_eq_ok.mp done
  split at done
  · cases done
  · rename_i enough
    obtain ⟨x1, -, done⟩ := Checked.bind_eq_ok.mp done
    obtain ⟨y1, -, done⟩ := Checked.bind_eq_ok.mp done
    obtain ⟨x2, -, done⟩ := Checked.bind_eq_ok.mp done
    obtain ⟨y2, -, done⟩ := Checked.bind_eq_ok.mp done
    simp only at done
    split at done
    · cases done
    · rename_i area
      obtain rfl := Option.some.inj (Except.ok.inj done)
      refine ⟨by simpa using enough, ?_, rfl⟩
      have meet := Bool.eq_false_of_not_eq_true area
      obtain ⟨left, top, right, bottom⟩ := Rect.inter_inside meet
      simp only [Int.zero_add] at right bottom
      exact ⟨meet, left, top, right, bottom⟩

/-- Whatever sizes an output with any data has, it is read inside. -/
theorem decodeDetections_inside (output : SsdOutput F) (given : output.data ≠ [])
    (frameSize : Size) (confidenceThreshold : F) :
    ∃ detections, decodeDetections output frameSize confidenceThreshold = .ok detections ∧
      ∀ d ∈ detections, below d.confidence confidenceThreshold = false ∧
        Yolo.InFrame frameSize d.box ∧ d.classId = kFaceClassId := by
  have nothing : ∃ detections, (.ok [] : Except Checked.Fault (List (FloatDetection F))) =
      .ok detections ∧ ∀ d ∈ detections, below d.confidence confidenceThreshold = false ∧
        Yolo.InFrame frameSize d.box ∧ d.classId = kFaceClassId :=
    ⟨[], rfl, fun _ member => absurd member List.not_mem_nil⟩
  obtain ⟨size, data, owned⟩ := output
  unfold decodeDetections
  simp only
  split
  · rename_i batch channels count cols
    split
    · exact nothing
    · rename_i shaped
      have covers : count * cols ≤ data.length := by
        have some_ : 0 < data.length := List.length_pos_iff.mpr given
        simp only [List.prod_cons, List.prod_nil, Nat.mul_one] at owned
        rw [owned] at some_ ⊢
        have batches := Nat.pos_of_mul_pos_right some_
        have inner := Nat.pos_of_mul_pos_left some_
        have planes := Nat.pos_of_mul_pos_right inner
        calc count * cols ≤ channels * (count * cols) := Nat.le_mul_of_pos_left _ planes
          _ ≤ batch * (channels * (count * cols)) := Nat.le_mul_of_pos_left _ batches
      have turns : ∀ i ∈ List.range count, ∃ found,
          decodeRecord data cols frameSize confidenceThreshold i = .ok found := by
        intro i inside
        apply decodeRecord_ok (by omega)
        exact (Nat.mul_le_mul_right cols (List.mem_range.mp inside)).trans covers
      obtain ⟨found, all⟩ := Checked.exists_mapM.mpr turns
      refine ⟨found.reduceOption, Checked.bind_eq_ok.mpr ⟨found, all, rfl⟩, ?_⟩
      intro d member
      obtain ⟨i, -, done⟩ := Checked.mem_mapM all (List.reduceOption_mem_iff.mp member)
      exact decodeRecord_face done
  · exact nothing

end Decoding

def oneFace : SsdOutput (Option ℚ) where
  size := [1, 1, 1, 7]
  data := [some 0, some 1, some (9 / 10), some (-1 / 4), some (1 / 4), some (1 / 2), some (3 / 4)]
  owned := rfl

theorem oneFace_inside : ∃ detections,
    @decodeDetections _ Yolo.exactFloat oneFace ⟨200, 100⟩ (some (3 / 5)) = .ok detections ∧
      ∀ d ∈ detections, @below _ Yolo.exactFloat d.confidence (some (3 / 5)) = false ∧
        Yolo.InFrame ⟨200, 100⟩ d.box ∧ d.classId = kFaceClassId :=
  @decodeDetections_inside _ Yolo.exactFloat oneFace (List.cons_ne_nil _ _) ⟨200, 100⟩
    (some (3 / 5))

end Ssd

end VisionLab
