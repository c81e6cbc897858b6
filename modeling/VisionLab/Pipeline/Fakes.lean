import VisionLab.Pipeline.VisionPipeline

/-! The fakes of the test suite: a scripted source, a detector that finds one box in every frame,
a tracker that numbers the boxes of a frame, and a rule that reports every track. -/
namespace VisionLab

structure FakeVideoSource where
  frameCount : ℕ
  id : String := "fake:0"
  openSucceeds : Bool := true
  loop : Bool := false
  width : ℕ := 4
  height : ℕ := 4
  isOpen : Bool := false
  readCount : ℕ := 0
  deriving DecidableEq, Repr

namespace FakeVideoSource

def frame (s : FakeVideoSource) (readCount : ℕ) : Mat where
  rows := s.height
  cols := s.width
  bytes := (List.replicate (s.width * s.height) [BitVec.ofNat 8 (readCount % 255), 0, 0]).flatten

def read (s : FakeVideoSource) : Option Mat × FakeVideoSource :=
  if !s.isOpen then (none, s)
  else if s.frameCount ≤ s.readCount then
    if !s.loop || s.frameCount == 0 then (none, s)
    else (some (s.frame 0), { s with readCount := 1 })
  else (some (s.frame s.readCount), { s with readCount := s.readCount + 1 })

instance : IVideoSource FakeVideoSource where
  open_ s :=
    if s.openSucceeds then (true, { s with isOpen := true, readCount := 0 }) else (false, s)
  read := read
  close s := { s with isOpen := false }
  sourceId s := s.id

end FakeVideoSource

structure FakeDetector where
  label : String := "fake-object"
  ready : Bool := true
  callCount : ℕ := 0
  deriving DecidableEq, Repr

def FakeDetector.detect (d : FakeDetector) (frame : FramePacket) : List Detection :=
  if !d.ready || frame.image.empty then []
  else [{ classId := 1, label := d.label, confidence := 9 / 10, box := ⟨1, 2, 3, 4⟩ }]

instance : IDetector FakeDetector where
  isReady d := d.ready
  detect d frame := (.ok (d.detect frame), { d with callCount := d.callCount + 1 })

structure FakeTracker where
  stats : TrackerStats := {}
  resetCount : ℕ := 0
  deriving DecidableEq, Repr

def FakeTracker.track (index : ℕ) (detection : Detection) : Track where
  trackId := index + 1
  classId := detection.classId
  label := detection.label
  confidence := detection.confidence
  box := detection.box
  state := .confirmed

instance : ITracker FakeTracker where
  update t detections _ :=
    (.ok (detections.mapIdx FakeTracker.track),
      { t with
        stats := { t.stats with
          createdTracks := t.stats.createdTracks + detections.length
          activeTracks := detections.length } })
  reset t := { stats := {}, resetCount := t.resetCount + 1 }
  stats t := t.stats

structure FakeRule where
  id : String := "fake"
  resetCount : ℕ := 0
  deriving DecidableEq, Repr

def FakeRule.event (r : FakeRule) (context : RuleContext) (track : Track) : VisionEvent where
  ruleId := r.id
  sourceId := context.sourceId
  trackId := track.trackId
  classId := track.classId
  label := track.label
  confidence := track.confidence
  box := track.box
  frameId := context.frameId
  timestamp := context.timestamp
  message := "fake"

instance : IRule FakeRule where
  id r := r.id
  evaluate r tracks context := (.ok (tracks.map (r.event context)), r)
  reset r := { r with resetCount := r.resetCount + 1 }

def Renderers.plain : Renderers where
  tracks image _ := .ok image
  detections image _ := .ok image
  toRgb image := .ok image

/-- The fakes wired as the program wires its pipeline, with a detector for two of the modes. -/
def fakePipeline : VisionPipeline FakeVideoSource FakeDetector FakeTracker FakeRule where
  source := some { frameCount := 8 }
  detectors
    | .face => some { label := "face" }
    | .object => some {}
    | _ => none
  tracker := some {}
  rules := some { entries := [{ rule := {} }] }

def fakeSession : Session FakeVideoSource FakeDetector FakeTracker FakeRule where
  pipeline :=
    { ({ fakePipeline with source := some { frameCount := 8, isOpen := true } } :
        VisionPipeline _ _ _ _).cleared with running := true }
  queue := .start 2 .dropOldest (by decide)

theorem fakePipeline_start : fakePipeline.start = .started fakeSession := rfl

end VisionLab
