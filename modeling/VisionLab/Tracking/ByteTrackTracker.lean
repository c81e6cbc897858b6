import VisionLab.Tracking.IouMatching

/-! The tracker. The filter of a box is any deterministic object with the four operations the
tracker calls; the two association rounds keep the program's index lists and used-flags. -/
namespace VisionLab

/-- What the tracker asks of its box filter. -/
class KalmanBoxFilter (κ : Type) where
  init : Rect → κ
  predict : κ → ℚ → κ
  update : κ → Rect → κ
  box : κ → Rect

/-- The filter of a box that stands still: every measurement is believed. -/
instance stillBox : KalmanBoxFilter Rect where
  init box := box
  predict box _ := box
  update _ box := box
  box box := box

structure InternalTrack (κ : Type) where
  id : ℕ := 0
  kalman : κ
  classId : ℤ := -1
  label : String := ""
  confidence : ℚ := 0
  state : TrackState := .tentative
  firstSeen : TimePoint := 0
  lastSeen : TimePoint := 0
  age : ℤ := 1
  hits : ℤ := 1
  timeSinceUpdate : ℤ := 0
  trajectory : List TrackPoint := []
  deriving DecidableEq, Repr

structure ByteTrackTracker (κ : Type) where
  config : TrackerConfig
  stats : TrackerStats := {}
  tracks : List (InternalTrack κ) := []
  nextId : ℕ := 1
  lastTimestamp : Option TimePoint := none
  deriving DecidableEq, Repr

def kDefaultDt : ℚ := 1 / 30

def deltaSeconds (previous : Option TimePoint) (current : TimePoint) : ℚ :=
  match previous with
  | none => kDefaultDt
  | some previous =>
    let dt := secondsBetween previous current
    if 0 < dt then dt else kDefaultDt

def centroidOf (box : Rect) : Point2f := ⟨box.x + box.width * (1 / 2), box.y + box.height * (1 / 2)⟩

def unmatched (used : List Bool) (n : ℕ) : List ℕ :=
  (List.range n).filter (fun i => !used.getD i false)

/-- The local variables of the association. `applied` records every call of `applyDetection`, as
the index of the detection and the position of the track; the program does not keep it. -/
structure Round (κ : Type) where
  tracks : List (InternalTrack κ)
  trackUsed : List Bool
  detUsed : List Bool
  applied : List (ℕ × ℕ) := []

namespace ByteTrackTracker

variable {κ : Type} [KalmanBoxFilter κ]

def toPublic (track : InternalTrack κ) : Track where
  trackId := track.id
  classId := track.classId
  label := track.label
  confidence := track.confidence
  box := KalmanBoxFilter.box track.kalman
  state := track.state
  firstSeen := track.firstSeen
  lastSeen := track.lastSeen
  age := track.age
  hits := track.hits
  timeSinceUpdate := track.timeSinceUpdate
  trajectory := track.trajectory

def appendTrajectory (config : TrackerConfig) (context : TrackUpdateContext)
    (track : InternalTrack κ) : InternalTrack κ :=
  let box := KalmanBoxFilter.box track.kalman
  let point : TrackPoint := ⟨context.frameId, context.timestamp, centroidOf box, box⟩
  let grown := track.trajectory ++ [point]
  -- pop_front while the size is over the limit
  { track with trajectory := grown.drop (grown.length - config.maxTrajectoryPoints) }

def applyDetection (config : TrackerConfig) (context : TrackUpdateContext) (detection : Detection)
    (track : InternalTrack κ) : InternalTrack κ :=
  { track with
    kalman := KalmanBoxFilter.update track.kalman detection.box
    label := detection.label
    confidence := detection.confidence
    lastSeen := context.timestamp
    hits := track.hits + 1
    timeSinceUpdate := 0
    state := if config.minHits ≤ track.hits + 1 then .confirmed else track.state }

def predictTrack (dt : ℚ) (track : InternalTrack κ) : InternalTrack κ :=
  { track with kalman := KalmanBoxFilter.predict track.kalman dt, age := track.age + 1 }

def isHigh (config : TrackerConfig) (detection : Detection) : Bool :=
  decide (config.highThresh < detection.confidence)

def isLow (config : TrackerConfig) (detection : Detection) : Bool :=
  !isHigh config detection && decide (config.lowThresh < detection.confidence)

def highIndices (config : TrackerConfig) (detections : List Detection) : List ℕ :=
  (List.range detections.length).filter (fun i => isHigh config (detections.getD i {}))

def lowIndices (config : TrackerConfig) (detections : List Detection) : List ℕ :=
  (List.range detections.length).filter (fun i => isLow config (detections.getD i {}))

def detectionAt (detections : List Detection) (detIndices : List ℕ) (pos : ℕ) : Detection :=
  detections.getD (detIndices.getD pos 0) {}

def applyMatch (config : TrackerConfig) (detections : List Detection)
    (context : TrackUpdateContext) (detIndices : List ℕ) (round : Round κ)
    (detPos trackPos : ℕ) : Round κ where
  tracks := round.tracks.modify trackPos
    (applyDetection config context (detectionAt detections detIndices detPos))
  trackUsed := round.trackUsed.set trackPos true
  detUsed := round.detUsed.set detPos true
  applied := round.applied ++ [(detIndices.getD detPos 0, trackPos)]

/-- The lambda `associate` of the update. -/
def associate (m : Arithmetic) (config : TrackerConfig) (detections : List Detection)
    (context : TrackUpdateContext) (detIndices : List ℕ) (round : Round κ) : Round κ :=
  let unmatchedDetPos := unmatched round.detUsed detIndices.length
  let unmatchedDets := unmatchedDetPos.map (detectionAt detections detIndices)
  let unmatchedTrackPos := unmatched round.trackUsed round.tracks.length
  let unmatchedTracks := unmatchedTrackPos.filterMap (fun t => round.tracks[t]?)
  let found := greedyIouAssociate m (unmatchedDets.map Detection.box)
    (unmatchedDets.map Detection.classId)
    (unmatchedTracks.map (fun track => KalmanBoxFilter.box track.kalman))
    (unmatchedTracks.map InternalTrack.classId) config.matchIou
  found.foldl
    (fun round association => applyMatch config detections context detIndices round
      (unmatchedDetPos.getD association.detectionIndex 0)
      (unmatchedTrackPos.getD association.trackIndex 0))
    round

/-- The loop over the tracks after the association: a matched track stays, a tentative one goes,
another one is lost and goes once it has been lost for too long. -/
def survive (config : TrackerConfig) : List (InternalTrack κ × Bool) → TrackerStats →
    List (InternalTrack κ) × TrackerStats
  | [], stats => ([], stats)
  | (track, true) :: rest, stats =>
    let (surviving, stats) := survive config rest stats
    (track :: surviving, stats)
  | (track, false) :: rest, stats =>
    if track.state = .tentative then
      survive config rest { stats with removedTracks := stats.removedTracks + 1 }
    else
      let stats := if track.state = .lost then stats
        else { stats with lostTracks := stats.lostTracks + 1 }
      let track := { track with state := .lost, timeSinceUpdate := track.timeSinceUpdate + 1 }
      if config.maxLostFrames < track.timeSinceUpdate then
        survive config rest { stats with removedTracks := stats.removedTracks + 1 }
      else
        let (surviving, stats) := survive config rest stats
        (track :: surviving, stats)

def newTrack (config : TrackerConfig) (context : TrackUpdateContext) (id : ℕ)
    (detection : Detection) : InternalTrack κ where
  id := id
  kalman := KalmanBoxFilter.init detection.box
  classId := detection.classId
  label := detection.label
  confidence := detection.confidence
  firstSeen := context.timestamp
  lastSeen := context.timestamp
  age := 1
  hits := 1
  state := if config.minHits ≤ 1 then .confirmed else .tentative

def createTrack (context : TrackUpdateContext) (s : ByteTrackTracker κ) (detection : Detection) :
    ByteTrackTracker κ :=
  { s with
    tracks := s.tracks ++ [newTrack s.config context s.nextId detection]
    nextId := s.nextId + 1
    stats := { s.stats with createdTracks := s.stats.createdTracks + 1 } }

def predicted (s : ByteTrackTracker κ) (context : TrackUpdateContext) : List (InternalTrack κ) :=
  s.tracks.map (predictTrack (deltaSeconds s.lastTimestamp context.timestamp))

def firstRound (m : Arithmetic) (s : ByteTrackTracker κ) (detections : List Detection)
    (context : TrackUpdateContext) : Round κ :=
  associate m s.config detections context (highIndices s.config detections)
    { tracks := s.predicted context
      trackUsed := List.replicate s.tracks.length false
      detUsed := List.replicate (highIndices s.config detections).length false }

def secondRound (m : Arithmetic) (s : ByteTrackTracker κ) (detections : List Detection)
    (context : TrackUpdateContext) : Round κ :=
  associate m s.config detections context (lowIndices s.config detections)
    { s.firstRound m detections context with
      detUsed := List.replicate (lowIndices s.config detections).length false }

def unmatchedHigh (m : Arithmetic) (s : ByteTrackTracker κ) (detections : List Detection)
    (context : TrackUpdateContext) : List Detection :=
  (unmatched (s.firstRound m detections context).detUsed
    (highIndices s.config detections).length).map
    (detectionAt detections (highIndices s.config detections))

def kept (m : Arithmetic) (s : ByteTrackTracker κ) (detections : List Detection)
    (context : TrackUpdateContext) : ByteTrackTracker κ :=
  let matched := s.secondRound m detections context
  let survivors := survive s.config (matched.tracks.zip matched.trackUsed) s.stats
  { s with tracks := survivors.1, stats := survivors.2, lastTimestamp := some context.timestamp }

@[simp] theorem kept_config (m : Arithmetic) (s : ByteTrackTracker κ) (detections : List Detection)
    (context : TrackUpdateContext) : (s.kept m detections context).config = s.config := by
  simp only [kept]

@[simp] theorem kept_nextId (m : Arithmetic) (s : ByteTrackTracker κ) (detections : List Detection)
    (context : TrackUpdateContext) : (s.kept m detections context).nextId = s.nextId := by
  simp only [kept]

@[simp] theorem kept_lastTimestamp (m : Arithmetic) (s : ByteTrackTracker κ)
    (detections : List Detection) (context : TrackUpdateContext) :
    (s.kept m detections context).lastTimestamp = some context.timestamp := by
  simp only [kept]

def grown (m : Arithmetic) (s : ByteTrackTracker κ) (detections : List Detection)
    (context : TrackUpdateContext) : ByteTrackTracker κ :=
  (s.unmatchedHigh m detections context).foldl (createTrack context)
    (s.kept m detections context)

def published (tracks : List (InternalTrack κ)) : List Track :=
  (tracks.filter (fun track => track.state ≠ .tentative)).map toPublic

def update (m : Arithmetic) (s : ByteTrackTracker κ) (detections : List Detection)
    (context : TrackUpdateContext) : ByteTrackTracker κ × List Track :=
  let grown := s.grown m detections context
  let tracks := grown.tracks.map (appendTrajectory s.config context)
  ({ grown with
      tracks := tracks
      stats := { grown.stats with activeTracks := (published tracks).length } },
    published tracks)

def reset (s : ByteTrackTracker κ) : ByteTrackTracker κ :=
  { s with tracks := [], nextId := 1, stats := {}, lastTimestamp := none }

/-- A run of updates, with what each of them returned. -/
def runUpdates (m : Arithmetic) (s : ByteTrackTracker κ) :
    List (List Detection × TrackUpdateContext) → ByteTrackTracker κ × List (List Track)
  | [] => (s, [])
  | (detections, context) :: frames =>
    let here := s.update m detections context
    let rest := runUpdates m here.1 frames
    (rest.1, here.2 :: rest.2)

end ByteTrackTracker

end VisionLab
