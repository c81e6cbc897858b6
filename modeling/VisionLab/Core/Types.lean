import Mathlib.Data.Rat.Cast.Order

/-! Plain data of the application: boxes, detections, tracks, rule events and frames.
Coordinates, confidences and durations are exact rationals, integers are unbounded and a time
point is a number of nanoseconds. A latency measured on the clock is read by no modelled
function and is left out. -/
namespace VisionLab

structure Rect where
  x : ℤ := 0
  y : ℤ := 0
  width : ℤ := 0
  height : ℤ := 0
  deriving DecidableEq, Repr, Inhabited

def Rect.empty (r : Rect) : Bool := decide (r.width ≤ 0) || decide (r.height ≤ 0)
def Rect.area (r : Rect) : ℤ := r.width * r.height

/-- The overlap `a & b`; the default rectangle when the two do not meet. -/
def Rect.inter (a b : Rect) : Rect :=
  let left := max a.x b.x
  let top := max a.y b.y
  let overlap : Rect :=
    ⟨left, top, min (a.x + a.width) (b.x + b.width) - left,
      min (a.y + a.height) (b.y + b.height) - top⟩
  if a.empty || b.empty || overlap.empty then {} else overlap

structure Point2f where
  x : ℚ := 0
  y : ℚ := 0
  deriving DecidableEq, Repr, Inhabited

/-- An image is read only through its emptiness; the pixels are carried along. -/
structure Mat where
  rows : ℕ := 0
  cols : ℕ := 0
  bytes : List (BitVec 8) := []
  deriving DecidableEq, Repr, Inhabited

def Mat.empty (m : Mat) : Bool := m.rows == 0 || m.cols == 0

abbrev TimePoint := ℤ

def secondsBetween (previous current : TimePoint) : ℚ := (current - previous : ℤ) / 1000000000

/-- The one exception type the workers catch, with its text. -/
structure CvException where
  what : String
  deriving DecidableEq, Repr

inductive DetectionMode where
  | none | face | object | motion
  deriving DecidableEq, Repr, Inhabited

def kFaceModeLabel : String := "Face Detection"
def kObjectModeLabel : String := "Object Detection"
def kMotionModeLabel : String := "Motion Detection"

/- An unknown label falls to `none`, which runs no detector. -/
def detectionModeFromLabel (label : String) : DetectionMode :=
  if label = kFaceModeLabel then .face
  else if label = kObjectModeLabel then .object
  else if label = kMotionModeLabel then .motion
  else .none

theorem detectionModeFromLabel_face (label : String) :
    detectionModeFromLabel label = .face ↔ label = kFaceModeLabel := by
  unfold detectionModeFromLabel
  split
  · simp_all
  · rename_i other
    constructor
    · intro h
      split at h
      · contradiction
      · split at h <;> contradiction
    · intro h
      exact absurd h other

structure Detection where
  classId : ℤ := -1
  label : String := ""
  confidence : ℚ := 0
  box : Rect := {}
  deriving DecidableEq, Repr, Inhabited

inductive TrackState where
  | tentative | confirmed | lost
  deriving DecidableEq, Repr, Inhabited

structure TrackPoint where
  frameId : ℤ := 0
  timestamp : TimePoint := 0
  centroid : Point2f := {}
  box : Rect := {}
  deriving DecidableEq, Repr, Inhabited

structure Track where
  trackId : ℕ := 0
  classId : ℤ := -1
  label : String := ""
  confidence : ℚ := 0
  box : Rect := {}
  state : TrackState := .tentative
  firstSeen : TimePoint := 0
  lastSeen : TimePoint := 0
  age : ℤ := 0
  hits : ℤ := 0
  timeSinceUpdate : ℤ := 0
  trajectory : List TrackPoint := []
  deriving DecidableEq, Repr, Inhabited

structure TrackerConfig where
  highThresh : ℚ := 6 / 10
  lowThresh : ℚ := 1 / 10
  matchIou : ℚ := 5 / 10
  maxLostFrames : ℤ := 30
  minHits : ℤ := 3
  maxTrajectoryPoints : ℕ := 30
  deriving DecidableEq, Repr

structure TrackerStats where
  activeTracks : ℕ := 0
  createdTracks : ℕ := 0
  lostTracks : ℕ := 0
  removedTracks : ℕ := 0
  deriving DecidableEq, Repr, Inhabited

structure TrackUpdateContext where
  frameId : ℤ := 0
  timestamp : TimePoint := 0
  deriving DecidableEq, Repr, Inhabited

inductive EventType where
  | roiIntrusion | lineCrossing | loitering | counting
  deriving DecidableEq, Repr, Inhabited

inductive CrossingDirection where
  | none | forward | reverse
  deriving DecidableEq, Repr, Inhabited

structure RuleContext where
  frameId : ℤ := 0
  timestamp : TimePoint := 0
  sourceId : String := ""
  deriving DecidableEq, Repr, Inhabited

structure VisionEvent where
  eventId : ℕ := 0
  type : EventType := .roiIntrusion
  ruleId : String := ""
  sourceId : String := ""
  trackId : ℕ := 0
  classId : ℤ := -1
  label : String := ""
  confidence : ℚ := 0
  box : Rect := {}
  frameId : ℤ := 0
  timestamp : TimePoint := 0
  message : String := ""
  snapshotRef : String := ""
  direction : CrossingDirection := .none
  countIn : ℕ := 0
  countOut : ℕ := 0
  occupancy : ℕ := 0
  deriving DecidableEq, Repr, Inhabited

structure RuleEngineStats where
  ruleCount : ℕ := 0
  enabledRules : ℕ := 0
  eventsEmitted : ℕ := 0
  deriving DecidableEq, Repr, Inhabited

structure FramePacket where
  frameId : ℤ := 0
  captureTimestamp : TimePoint := 0
  sourceId : String := ""
  image : Mat := {}
  deriving DecidableEq, Repr, Inhabited

structure PresentedFrame where
  frameId : ℤ := 0
  captureTimestamp : TimePoint := 0
  sourceId : String := ""
  rgb : Mat := {}
  detections : List Detection := []
  tracks : List Track := []
  events : List VisionEvent := []
  deriving DecidableEq, Repr, Inhabited

end VisionLab
