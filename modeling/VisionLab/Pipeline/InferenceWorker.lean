import VisionLab.Analytics.RuleEngine
import VisionLab.Tracking.ByteTrackTracker

/-! The stages of the inference worker. A stage that throws has its result cleared; what it did to
the detector or the tracker before it threw stays. -/
namespace VisionLab

class IVideoSource (σ : Type) where
  open_ : σ → Bool × σ
  read : σ → Option Mat × σ
  close : σ → σ
  sourceId : σ → String

class IDetector (δ : Type) where
  isReady : δ → Bool
  detect : δ → FramePacket → Except CvException (List Detection) × δ

class ITracker (τ : Type) where
  update : τ → List Detection → TrackUpdateContext → Except CvException (List Track) × τ
  reset : τ → τ
  stats : τ → TrackerStats

instance {κ : Type} [KalmanBoxFilter κ] : ITracker (ByteTrackTracker κ) where
  update s detections context :=
    let after := s.update .exact detections context
    (.ok after.2, after.1)
  reset := ByteTrackTracker.reset
  stats s := s.stats

/-- What the render stage asks of the drawing code: boxes or trails over a copy of the frame, and
the conversion to RGB. -/
structure Renderers where
  tracks : Mat → List Track → Except CvException Mat
  detections : Mat → List Detection → Except CvException Mat
  toRgb : Mat → Except CvException Mat

structure PipelineStats where
  capturedFrames : ℕ := 0
  processedFrames : ℕ := 0
  droppedFrames : ℕ := 0
  captureQueueDepth : ℕ := 0
  activeTracks : ℕ := 0
  createdTracks : ℕ := 0
  lostTracks : ℕ := 0
  removedTracks : ℕ := 0
  eventsEmitted : ℕ := 0
  enabledRules : ℕ := 0
  deriving DecidableEq, Repr, Inhabited

namespace PipelineStats

def onCaptured (stats : PipelineStats) : PipelineStats :=
  { stats with capturedFrames := stats.capturedFrames + 1 }

def onDropped (stats : PipelineStats) (count : ℕ) : PipelineStats :=
  { stats with droppedFrames := stats.droppedFrames + count }

def onInferred (stats : PipelineStats) : PipelineStats :=
  { stats with processedFrames := stats.processedFrames + 1 }

def onTracked (stats : PipelineStats) (tracker : TrackerStats) : PipelineStats :=
  { stats with
    activeTracks := tracker.activeTracks
    createdTracks := tracker.createdTracks
    lostTracks := tracker.lostTracks
    removedTracks := tracker.removedTracks }

def onRuled (stats : PipelineStats) (rules : RuleEngineStats) : PipelineStats :=
  { stats with eventsEmitted := rules.eventsEmitted, enabledRules := rules.enabledRules }

def setQueueDepth (stats : PipelineStats) (depth : ℕ) : PipelineStats :=
  { stats with captureQueueDepth := depth }

end PipelineStats

/-- The local variables of one iteration: the frame popped, what will be shown for it and the mode
that chose its detector. -/
structure InFlight where
  packet : FramePacket
  presented : PresentedFrame
  source : DetectionMode := .none

namespace InferenceWorker

def receive (packet : FramePacket) : InFlight where
  packet := packet
  presented :=
    { frameId := packet.frameId
      captureTimestamp := packet.captureTimestamp
      sourceId := packet.sourceId }

def trackContext (packet : FramePacket) : TrackUpdateContext where
  frameId := packet.frameId
  timestamp := packet.captureTimestamp

def ruleContext (packet : FramePacket) : RuleContext where
  frameId := packet.frameId
  timestamp := packet.captureTimestamp
  sourceId := packet.sourceId

variable {δ τ : Type} [IDetector δ] [ITracker τ]

def detect (detector : Option δ) (packet : FramePacket) : List Detection × Option δ :=
  match detector with
  | none => ([], none)
  | some detector =>
    if IDetector.isReady detector then
      match IDetector.detect detector packet with
      | (.ok detections, detector) => (detections, some detector)
      | (.error _, detector) => ([], some detector)
    else ([], some detector)

def track (tracker : τ) (f : InFlight) : List Track × τ :=
  match ITracker.update tracker f.presented.detections (trackContext f.packet) with
  | (.ok tracks, tracker) => (tracks, tracker)
  | (.error _, tracker) => ([], tracker)

def annotate (draw : Renderers) (f : InFlight) : Except CvException Mat :=
  if f.presented.tracks.isEmpty then draw.detections f.packet.image f.presented.detections
  else draw.tracks f.packet.image f.presented.tracks

/- An empty frame is published without a picture, and so is one that the drawing code rejects. -/
def render (draw : Renderers) (f : InFlight) : PresentedFrame :=
  if f.packet.image.empty then f.presented
  else
    match (annotate draw f).bind draw.toRgb with
    | .ok rgb => { f.presented with rgb := rgb }
    | .error _ => f.presented

theorem render_frameId (draw : Renderers) (f : InFlight) :
    (render draw f).frameId = f.presented.frameId := by
  unfold render
  split
  · rfl
  · split <;> rfl

end InferenceWorker

end VisionLab
