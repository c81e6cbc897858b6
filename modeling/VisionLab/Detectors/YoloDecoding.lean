import VisionLab.Core.Types
import VisionLab.Lib.Checked
import VisionLab.Lib.Word

/-! From the tensors of a YOLO model to detections. A tensor is read through a matrix that is laid on
its data; every read knows where the data ends, and a read outside it ends the decoding. The floats
are whatever the tensor holds, numbers or not. -/
namespace VisionLab

/-- Single precision numbers as the decoder uses them. -/
class SingleFloat (F : Type) where
  isNaN : F → Bool
  below : F → F → Bool
  atLeast : F → F → Bool
  times : F → F → F
  scaled : F → ℤ → F
  toInt : F → ℤ
  compares : ∀ a b, isNaN a = false → isNaN b = false → below a b = false → atLeast a b = true

/-- The two OpenCV functions of the decoder. `minMaxLoc` gives the largest element of a row and its
column, `NMSBoxes` the boxes that remain; it filters them by score first, which no score passes that
cannot be compared with the threshold. -/
class OpenCv (F : Type) [SingleFloat F] where
  minMaxLoc : List F → F × ℤ
  NMSBoxes : List Rect → List F → F → F → List ℤ
  minMaxLoc_inside : ∀ row : List F, row ≠ [] → 0 ≤ (minMaxLoc row).2 ∧ (minMaxLoc row).2 < row.length
  NMSBoxes_valid : ∀ boxes scores score nms, ∀ idx ∈ NMSBoxes boxes scores score nms,
    0 ≤ idx ∧ idx < boxes.length
  NMSBoxes_compared : ∀ boxes scores score nms (idx : ℕ) (x : F),
    (idx : ℤ) ∈ NMSBoxes boxes scores score nms → scores[idx]? = some x →
      SingleFloat.isNaN x = false ∧ SingleFloat.isNaN score = false

structure Size where
  width : ℤ
  height : ℤ
  deriving DecidableEq, Repr

structure TensorView (F : Type) where
  data : List F
  shape : List ℤ
  deriving DecidableEq, Repr

structure InferResult (F : Type) where
  ok : Bool := false
  error : String := ""
  outputs : List (TensorView F) := []

/-- A matrix on the data of a tensor, row after row; it does not know how long the data is. -/
structure YoloRows (F : Type) where
  rows : ℕ
  cols : ℕ
  data : List F
  deriving DecidableEq, Repr

/-- A `Detection` with its confidence as the float it is. -/
structure FloatDetection (F : Type) where
  classId : ℤ
  label : String
  confidence : F
  box : Rect
  deriving DecidableEq, Repr

structure YoloCandidate (F : Type) where
  box : Rect
  confidence : F
  classId : ℤ
  deriving DecidableEq, Repr

namespace Yolo

variable {F : Type}

def expectedSize (shape : List ℤ) : ℤ :=
  shape.foldl (fun expected dim => Word.signed 64 (expected * dim)) 1

/-- The dimensions go through `int`. -/
def matrixOn (data : List F) (rows cols : ℤ) : Option (YoloRows F) :=
  let rows := Word.signed 32 rows
  let cols := Word.signed 32 cols
  if rows ≤ 0 ∨ cols ≤ 0 then none else some ⟨rows.toNat, cols.toNat, data⟩

def asYoloRows (tensor : TensorView F) : Option (YoloRows F) :=
  let expected := expectedSize tensor.shape
  if expected ≤ 0 ∨ (tensor.data.length : ℤ) ≠ expected then none
  else
    match tensor.shape with
    | [rows, cols] => matrixOn tensor.data rows cols
    | [batch, rows, cols] => if batch = 1 then matrixOn tensor.data rows cols else none
    | _ => none

section Decoding

open SingleFloat OpenCv

variable [SingleFloat F] [OpenCv F]

def boxAt (frameSize : Size) (x y width height : F) : Rect :=
  let cx := toInt (scaled x frameSize.width)
  let cy := toInt (scaled y frameSize.height)
  let w := toInt (scaled width frameSize.width)
  let h := toInt (scaled height frameSize.height)
  let whole : Rect := ⟨Word.signed 32 (cx - w.tdiv 2), Word.signed 32 (cy - h.tdiv 2), w, h⟩
  whole.inter ⟨0, 0, frameSize.width, frameSize.height⟩

/-- One turn of the loop over the rows: `none` where it goes on with the next row. -/
def decodeRow (frameSize : Size) (confidenceThreshold : F) (out : YoloRows F) (i : ℕ) :
    Except Checked.Fault (Option (YoloCandidate F)) := do
  let data := i * out.cols
  let objectness ← Checked.get out.data (data + 4)
  if below objectness confidenceThreshold then
    return none
  let scores ← Checked.segment out.data (data + 5) (out.cols - 5)
  let (classScore, classId) := minMaxLoc scores
  let confidence := times objectness classScore
  if below confidence confidenceThreshold then
    return none
  let box := boxAt frameSize (← Checked.get out.data data) (← Checked.get out.data (data + 1))
    (← Checked.get out.data (data + 2)) (← Checked.get out.data (data + 3))
  if box.empty then
    return none
  return some ⟨box, confidence, classId⟩

/-- `operator[]` with an `int`; a negative one lies far outside. -/
def candidateAt (candidates : List (YoloCandidate F)) (idx : ℤ) :
    Except Checked.Fault (YoloCandidate F) :=
  if 0 ≤ idx then Checked.get candidates idx.toNat
  else .error (.outside (Word.unsigned 64 idx))

def labelOf (classNames : List String) (classId : ℤ) : String :=
  (classNames[Word.unsigned 64 classId]?).getD ("class_" ++ toString classId)

def detectionAt (classNames : List String) (candidates : List (YoloCandidate F)) (idx : ℤ) :
    Except Checked.Fault (FloatDetection F) := do
  let candidate ← candidateAt candidates idx
  return {
    classId := candidate.classId
    label := labelOf classNames candidate.classId
    confidence := candidate.confidence
    box := candidate.box }

def decodeDetections (outputs : List (YoloRows F)) (frameSize : Size) (classNames : List String)
    (confidenceThreshold nmsThreshold : F) : Except Checked.Fault (List (FloatDetection F)) := do
  let found ← outputs.mapM (fun out =>
    (List.range out.rows).mapM (decodeRow frameSize confidenceThreshold out))
  let candidates := found.flatten.reduceOption
  let indices := NMSBoxes (candidates.map YoloCandidate.box)
    (candidates.map YoloCandidate.confidence) confidenceThreshold nmsThreshold
  indices.mapM (detectionAt classNames candidates)

end Decoding

end Yolo

structure InferenceEngine (F : Type) where
  ready : Bool
  infer : Mat → InferResult F

structure YoloDetector (F : Type) where
  m_engine : Option (InferenceEngine F)
  inputWidth : ℤ := 320
  inputHeight : ℤ := 320
  confidenceThreshold : F
  nmsThreshold : F
  m_classNames : List String := []

namespace YoloDetector

variable {F : Type} [SingleFloat F] [OpenCv F]

def isReady (d : YoloDetector F) : Bool :=
  match d.m_engine with
  | none => false
  | some engine => engine.ready

def detect (d : YoloDetector F) (image : Mat) : Except Checked.Fault (List (FloatDetection F)) :=
  match d.m_engine with
  | none => .ok []
  | some engine =>
    if !d.isReady || image.empty then .ok []
    -- the preprocessing makes no input for such a size
    else if d.inputWidth ≤ 0 ∨ d.inputHeight ≤ 0 then .ok []
    else
      let inferred := engine.infer image
      if !inferred.ok then .ok []
      else
        match inferred.outputs.mapM Yolo.asYoloRows with
        | none => .ok []
        | some outputs =>
          Yolo.decodeDetections outputs ⟨image.cols, image.rows⟩ d.m_classNames
            d.confidenceThreshold d.nmsThreshold

end YoloDetector

end VisionLab
