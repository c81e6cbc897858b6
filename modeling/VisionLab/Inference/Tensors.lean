import VisionLab.Detectors.YoloDecoding

/-! What the engines say of their tensors. -/
namespace VisionLab

structure DeviceInfo where
  name : String := ""
  deviceId : ℤ := 0
  gpu : Bool := false
  deriving DecidableEq, Repr

structure TensorMetadata where
  name : String := ""
  shape : List ℤ := []
  dtype : String := ""
  deriving DecidableEq, Repr

abbrev Message := { text : String // text ≠ "" }

/-- The product of the dimensions in 64 bits, and `-1` where one of them is open. -/
def elementCount (shape : List ℤ) : ℤ :=
  if shape.any (fun dim => dim < 0) then -1
  else shape.foldl (fun count dim => Word.signed 64 (count * dim)) 1

def TensorView.zeros {F : Type} (zero : F) (shape : List ℤ) : TensorView F where
  data := List.replicate (elementCount shape).toNat zero
  shape := shape

def TensorView.Whole {F : Type} (view : TensorView F) : Prop :=
  (view.data.length : ℤ) = elementCount view.shape

/-- Whatever goes wrong is explained. -/
def Spoken {α : Type} (x : Except String α) : Prop := Checked.FailsIn (fun reason => reason ≠ "") x

theorem Spoken.ok {α : Type} (a : α) : Spoken (.ok a) := Checked.FailsIn.ok a

theorem Spoken.error {α : Type} {text : String} (spoken : text ≠ "") :
    Spoken (.error text : Except String α) := Checked.FailsIn.error spoken

theorem Spoken.unless {α : Type} {c : Prop} [Decidable c] {text : String} {x : Except String α}
    (spoken : text ≠ "") (rest : Spoken x) : Spoken (if c then .error text else x) :=
  Checked.FailsIn.ite (fun _ => .error spoken) (fun _ => rest)

theorem spoken_or {text : String} (spoken : text ≠ "") (first : String) :
    (if first = "" then text else first) ≠ "" := by
  split
  · exact spoken
  · assumption

theorem spoken_append {front : String} (spoken : front ≠ "") (rest : String) :
    front ++ rest ≠ "" := by
  intro silent
  exact spoken (String.append_eq_empty_iff.mp silent).1

end VisionLab
