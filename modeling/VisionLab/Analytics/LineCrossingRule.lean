import VisionLab.Analytics.RuleEngine
import VisionLab.Analytics.RuleGeometry

/-! The line-crossing rule. It keeps the last foot point of every track and compares it with the
one in the next frame. -/
namespace VisionLab

structure LineConfig where
  ruleId : String := "line"
  a : Point2f := {}
  b : Point2f := {}
  classIds : List ℤ := []
  deriving DecidableEq, Repr

abbrev FootMap := ℕ → Option Point2f

structure LineCrossingRule where
  config : LineConfig
  lastFoot : FootMap := fun _ => none

namespace LineCrossingRule

def makeCrossingEvent (track : Track) (context : RuleContext) (ruleId : String)
    (direction : CrossingDirection) : VisionEvent where
  type := .lineCrossing
  ruleId := ruleId
  sourceId := context.sourceId
  trackId := track.trackId
  classId := track.classId
  label := track.label
  confidence := track.confidence
  box := track.box
  frameId := context.frameId
  timestamp := context.timestamp
  direction := direction
  message := if direction = .forward then "A→B" else "B→A"

/-- The event for a track whose foot moves on from `previous`, if there is one. -/
def crossing (config : LineConfig) (context : RuleContext) (previous : Option Point2f)
    (track : Track) : List VisionEvent :=
  match previous with
  | none => []
  | some previous =>
    let direction := classifyCrossing previous (footPoint track.box) config.a config.b
    if direction = .none then []
    else [makeCrossingEvent track context config.ruleId direction]

def observe (config : LineConfig) (context : RuleContext) (state : FootMap × List VisionEvent)
    (track : Track) : FootMap × List VisionEvent :=
  if !classAllowed config.classIds track.classId then
    (Function.update state.1 track.trackId none, state.2)
  else
    (Function.update state.1 track.trackId (some (footPoint track.box)),
      state.2 ++ crossing config context (state.1 track.trackId) track)

def evaluate (rule : LineCrossingRule) (tracks : List Track) (context : RuleContext) :
    List VisionEvent × LineCrossingRule :=
  if samePoint rule.config.a rule.config.b then ([], rule)
  else
    let after := tracks.foldl (observe rule.config context) (rule.lastFoot, [])
    let seen := tracks.map Track.trackId
    (after.2, { rule with lastFoot := fun id => if id ∈ seen then after.1 id else none })

theorem evaluate_config (rule : LineCrossingRule) (tracks : List Track) (context : RuleContext) :
    (rule.evaluate tracks context).2.config = rule.config := by
  unfold evaluate
  split <;> rfl

def reset (rule : LineCrossingRule) : LineCrossingRule := { rule with lastFoot := fun _ => none }

instance : IRule LineCrossingRule where
  id rule := rule.config.ruleId
  evaluate rule tracks context :=
    let after := rule.evaluate tracks context
    (.ok after.1, after.2)
  reset := reset

def run (rule : LineCrossingRule) : List (List Track × RuleContext) →
    List VisionEvent × LineCrossingRule
  | [] => ([], rule)
  | (tracks, context) :: frames =>
    let here := rule.evaluate tracks context
    let rest := run here.2 frames
    (here.1 ++ rest.1, rest.2)

end LineCrossingRule

end VisionLab
