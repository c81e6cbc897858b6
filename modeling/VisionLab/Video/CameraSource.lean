import VisionLab.Pipeline.Fakes

/-! The camera as a video source, and what the pipeline may rely on: who opens a source has a device
until it is closed, and reading neither opens nor closes it. -/
namespace VisionLab

/-- The part of `cv::VideoCapture` that the camera uses. Opening reports whether there is a device
afterwards, and taking a frame keeps the device whether or not a frame comes. -/
class VideoCapture (V : Type) where
  open_ : V → ℤ → Bool × V
  isOpened : V → Bool
  take : V → Mat × V
  release : V → V
  open_opened : ∀ capture index, isOpened (open_ capture index).2 = (open_ capture index).1
  take_opened : ∀ capture, isOpened (take capture).2 = isOpened capture
  release_opened : ∀ capture, isOpened (release capture) = false

/-- A source that says whether it holds its device. -/
class DeviceSource (σ : Type) [IVideoSource σ] where
  isOpen : σ → Bool
  opened : ∀ source : σ, (IVideoSource.open_ source).1 = true →
    isOpen (IVideoSource.open_ source).2 = true
  refused : ∀ source : σ, isOpen source = false → (IVideoSource.open_ source).1 = false →
    isOpen (IVideoSource.open_ source).2 = false
  read : ∀ source : σ, isOpen (IVideoSource.read source).2 = isOpen source
  closed : ∀ source : σ, isOpen (IVideoSource.close source) = false

structure CameraSource (V : Type) where
  deviceIndex : ℤ := 0
  capture : V
  lastError : String := ""

namespace CameraSource

variable {V : Type} [VideoCapture V]

/- To open once more does nothing. -/
def open_ (c : CameraSource V) : Bool × CameraSource V :=
  if VideoCapture.isOpened c.capture then (true, c)
  else
    match VideoCapture.open_ c.capture c.deviceIndex with
    | (false, capture) =>
      (false,
        { c with
          capture := capture
          lastError := "无法打开摄像头设备 " ++ toString c.deviceIndex })
    | (true, capture) => (true, { c with capture := capture, lastError := "" })

def read (c : CameraSource V) : Option Mat × CameraSource V :=
  if !VideoCapture.isOpened c.capture then (none, { c with lastError := "read 调用前源未打开" })
  else
    let (frame, capture) := VideoCapture.take c.capture
    if frame.empty then
      (none, { c with capture := capture, lastError := "读帧失败或视频流结束" })
    else (some frame, { c with capture := capture })

def close (c : CameraSource V) : CameraSource V :=
  if VideoCapture.isOpened c.capture then { c with capture := VideoCapture.release c.capture } else c

def isOpen (c : CameraSource V) : Bool := VideoCapture.isOpened c.capture

def sourceId (c : CameraSource V) : String := "camera:" ++ toString c.deviceIndex

instance : IVideoSource (CameraSource V) where
  open_ := open_
  read := read
  close := close
  sourceId := sourceId

theorem open_isOpen (c : CameraSource V) : c.open_.2.isOpen = c.open_.1 := by
  unfold open_ isOpen
  split
  · assumption
  · have reported := VideoCapture.open_opened c.capture c.deviceIndex
    split
    · rename_i answer
      rw [answer] at reported
      exact reported
    · rename_i answer
      rw [answer] at reported
      exact reported

theorem read_isOpen (c : CameraSource V) : c.read.2.isOpen = c.isOpen := by
  unfold read isOpen
  split
  · rfl
  · simp only
    split <;> exact VideoCapture.take_opened c.capture

theorem close_isOpen (c : CameraSource V) : c.close.isOpen = false := by
  unfold close isOpen
  split
  · exact VideoCapture.release_opened c.capture
  · simp_all

instance : DeviceSource (CameraSource V) where
  isOpen := isOpen
  opened c succeeded := (open_isOpen c).trans succeeded
  refused c _ failed := (open_isOpen c).trans failed
  read := read_isOpen
  closed := close_isOpen

end CameraSource

/-- A capture of the device 0, which gives one grey pixel for as long as it is open. -/
structure PixelCapture where
  opened : Bool := false
  deriving DecidableEq, Repr

instance : VideoCapture PixelCapture where
  open_ _ index := (decide (index = 0), { opened := decide (index = 0) })
  isOpened capture := capture.opened
  take capture := (if capture.opened then ⟨1, 1, [128, 128, 128]⟩ else {}, capture)
  release _ := {}
  open_opened _ _ := rfl
  take_opened _ := rfl
  release_opened _ := rfl

namespace FakeVideoSource

instance : DeviceSource FakeVideoSource where
  isOpen s := s.isOpen
  opened s succeeded := by
    simp only [IVideoSource.open_] at succeeded ⊢
    split <;> simp_all
  refused s shut failed := by
    simp only [IVideoSource.open_] at failed ⊢
    split <;> simp_all
  read s := by
    simp only [IVideoSource.read, FakeVideoSource.read]
    split
    · rfl
    · split
      · split <;> rfl
      · rfl
  closed _ := rfl

end FakeVideoSource

end VisionLab
