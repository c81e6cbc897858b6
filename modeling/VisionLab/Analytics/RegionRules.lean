import Mathlib.Data.Finset.Basic
import VisionLab.Analytics.RuleEngine
import VisionLab.Analytics.RuleGeometry
import VisionLab.Lib.Mealy

/-! The two rules that watch a polygon: intrusion into it, and staying in it for too long. -/
namespace VisionLab

/-- `cv::pointPolygonTest` without the distance: 1 inside, 0 on the edge, -1 outside. -/
class PointPolygonTest where
  pointPolygonTest : List Point2f → Point2f → ℤ

namespace PointPolygonTest

/-- How an edge from `a` to `b` meets the ray from the point to the right, or `none` where the
point lies on the edge. -/
def crosses (point a b : Point2f) : Option Bool :=
  if a.y ≤ point.y ∧ b.y ≤ point.y ∨ point.y < a.y ∧ point.y < b.y ∨
      a.x < point.x ∧ b.x < point.x then
    if point.y = b.y ∧ (point.x = b.x ∨ point.y = a.y ∧
        (a.x ≤ point.x ∧ point.x ≤ b.x ∨ b.x ≤ point.x ∧ point.x ≤ a.x)) then none
    else some false
  else
    let side := (point.y - a.y) * (b.x - a.x) - (point.x - a.x) * (b.y - a.y)
    if side = 0 then none
    else some (if b.y < a.y then decide (side < 0) else decide (0 < side))

/-- The test by the parity of the crossings, in exact arithmetic. -/
@[reducible] def parity : PointPolygonTest where
  pointPolygonTest polygon point :=
    match ((polygon.getLast?.toList ++ polygon).zip polygon).mapM
        (fun edge => crosses point edge.1 edge.2) with
    | none => 0
    | some crossed => if crossed.count true % 2 = 0 then -1 else 1

end PointPolygonTest

def pointInPolygon [PointPolygonTest] (point : Point2f) (polygon : List Point2f) : Bool :=
  if polygon.length < 3 then false
  else decide (0 ≤ PointPolygonTest.pointPolygonTest polygon point)

structure RoiConfig where
  ruleId : String := "roi"
  polygon : List Point2f := []
  classIds : List ℤ := []
  deriving DecidableEq, Repr

structure RoiIntrusionRule where
  config : RoiConfig
  inside : Finset ℕ := ∅

namespace RoiIntrusionRule

def makeIntrusionEvent (track : Track) (context : RuleContext) (ruleId : String) : VisionEvent where
  type := .roiIntrusion
  ruleId := ruleId
  sourceId := context.sourceId
  trackId := track.trackId
  classId := track.classId
  label := track.label
  confidence := track.confidence
  box := track.box
  frameId := context.frameId
  timestamp := context.timestamp
  message := "intrusion"

variable [PointPolygonTest]

def observe (context : RuleContext) (rule : RoiIntrusionRule) (track : Track) :
    List VisionEvent × RoiIntrusionRule :=
  let inside := classAllowed rule.config.classIds track.classId &&
    pointInPolygon (footPoint track.box) rule.config.polygon
  if !inside then ([], { rule with inside := rule.inside.erase track.trackId })
  else
    (if track.trackId ∈ rule.inside then []
      else [makeIntrusionEvent track context rule.config.ruleId],
      { rule with inside := insert track.trackId rule.inside })

def evaluate (rule : RoiIntrusionRule) (tracks : List Track) (context : RuleContext) :
    List VisionEvent × RoiIntrusionRule :=
  if rule.config.polygon.length < 3 then ([], rule)
  else
    let after := Mealy.run (observe context) rule tracks
    let seen := tracks.map Track.trackId
    (after.1.flatten,
      { after.2 with inside := after.2.inside.filter (fun id => id ∈ seen) })

omit [PointPolygonTest] in
def reset (rule : RoiIntrusionRule) : RoiIntrusionRule := { rule with inside := ∅ }

theorem evaluate_config (rule : RoiIntrusionRule) (tracks : List Track) (context : RuleContext) :
    (rule.evaluate tracks context).2.config = rule.config := by
  unfold evaluate
  split
  · rfl
  · refine Mealy.run_invariant (R := fun after : RoiIntrusionRule => after.config = rule.config)
      rfl ?_ tracks
    intro before track same
    unfold observe
    simp only
    split <;> exact same

end RoiIntrusionRule

structure LoiterConfig where
  ruleId : String := "loiter"
  polygon : List Point2f := []
  classIds : List ℤ := []
  loiterSeconds : ℚ := 5
  deriving DecidableEq, Repr

structure LoiteringRule.Stay where
  entered : TimePoint := 0
  emitted : Bool := false
  deriving DecidableEq, Repr

structure LoiteringRule where
  config : LoiterConfig
  stays : ℕ → Option LoiteringRule.Stay := fun _ => none

namespace LoiteringRule

def makeLoiterEvent (track : Track) (context : RuleContext) (ruleId : String) : VisionEvent where
  type := .loitering
  ruleId := ruleId
  sourceId := context.sourceId
  trackId := track.trackId
  classId := track.classId
  label := track.label
  confidence := track.confidence
  box := track.box
  frameId := context.frameId
  timestamp := context.timestamp
  message := "loitering"

variable [PointPolygonTest]

def observe (context : RuleContext) (rule : LoiteringRule) (track : Track) :
    List VisionEvent × LoiteringRule :=
  let inside := classAllowed rule.config.classIds track.classId &&
    pointInPolygon (footPoint track.box) rule.config.polygon
  if !inside then ([], { rule with stays := Function.update rule.stays track.trackId none })
  else
    let stay := (rule.stays track.trackId).getD { entered := context.timestamp }
    let due := !stay.emitted &&
      decide (rule.config.loiterSeconds ≤ secondsBetween stay.entered context.timestamp)
    (if due then [makeLoiterEvent track context rule.config.ruleId] else [],
      { rule with
        stays := Function.update rule.stays track.trackId
          (some { stay with emitted := stay.emitted || due }) })

def evaluate (rule : LoiteringRule) (tracks : List Track) (context : RuleContext) :
    List VisionEvent × LoiteringRule :=
  if rule.config.polygon.length < 3 ∨ rule.config.loiterSeconds ≤ 0 then ([], rule)
  else
    let after := Mealy.run (observe context) rule tracks
    let seen := tracks.map Track.trackId
    (after.1.flatten,
      { after.2 with stays := fun id => if id ∈ seen then after.2.stays id else none })

omit [PointPolygonTest] in
def reset (rule : LoiteringRule) : LoiteringRule := { rule with stays := fun _ => none }

theorem evaluate_config (rule : LoiteringRule) (tracks : List Track) (context : RuleContext) :
    (rule.evaluate tracks context).2.config = rule.config := by
  unfold evaluate
  split
  · rfl
  · refine Mealy.run_invariant (R := fun after : LoiteringRule => after.config = rule.config)
      rfl ?_ tracks
    intro before track same
    unfold observe
    simp only
    split <;> exact same

end LoiteringRule

end VisionLab
