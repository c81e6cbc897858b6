import Mathlib.Data.Finset.Card
import VisionLab.Analytics.LineCrossingRule
import VisionLab.Lib.Mealy

/-! The counting rule. It classifies crossings as the line-crossing rule does, and keeps the set of
tracks that have come in and not gone out. -/
namespace VisionLab

structure CountConfig where
  ruleId : String := "count"
  a : Point2f := {}
  b : Point2f := {}
  classIds : List ℤ := []
  deriving DecidableEq, Repr

structure CountingRule where
  config : CountConfig := {}
  lastFoot : FootMap := fun _ => none
  inside : Finset ℕ := ∅
  countIn : ℕ := 0
  countOut : ℕ := 0

namespace CountingRule

def occupancy (rule : CountingRule) : ℕ := rule.inside.card

def acceptsClass (rule : CountingRule) (classId : ℤ) : Bool :=
  classAllowed rule.config.classIds classId

def makeEvent (rule : CountingRule) (track : Track) (context : RuleContext)
    (direction : CrossingDirection) (message : String) : VisionEvent where
  type := .counting
  ruleId := rule.config.ruleId
  sourceId := context.sourceId
  trackId := track.trackId
  classId := track.classId
  label := track.label
  confidence := track.confidence
  box := track.box
  frameId := context.frameId
  timestamp := context.timestamp
  message := message
  direction := direction
  countIn := rule.countIn
  countOut := rule.countOut
  occupancy := rule.inside.card

def enter (rule : CountingRule) (trackId : ℕ) : CountingRule :=
  { rule with countIn := rule.countIn + 1, inside := insert trackId rule.inside }

def leave (rule : CountingRule) (trackId : ℕ) : CountingRule :=
  { rule with countOut := rule.countOut + 1, inside := rule.inside.erase trackId }

/-- A class that the rule does not accept: the track is dropped without an event. -/
def reject (rule : CountingRule) (trackId : ℕ) : CountingRule :=
  { rule with
    lastFoot := Function.update rule.lastFoot trackId none
    inside := rule.inside.erase trackId }

def store (rule : CountingRule) (trackId : ℕ) (foot : Point2f) : CountingRule :=
  { rule with lastFoot := Function.update rule.lastFoot trackId (some foot) }

def direction (rule : CountingRule) (track : Track) : CrossingDirection :=
  match rule.lastFoot track.trackId with
  | none => .none
  | some previous => classifyCrossing previous (footPoint track.box) rule.config.a rule.config.b

/-- The two branches that count. -/
def count (rule : CountingRule) (context : RuleContext) (track : Track) :
    List VisionEvent × CountingRule :=
  if rule.direction track = .forward ∧ track.trackId ∉ rule.inside then
    let rule' := rule.enter track.trackId
    ([rule'.makeEvent track context (rule.direction track) "IN"], rule')
  else if rule.direction track = .reverse ∧ track.trackId ∈ rule.inside then
    let rule' := rule.leave track.trackId
    ([rule'.makeEvent track context (rule.direction track) "OUT"], rule')
  else ([], rule)

def observe (context : RuleContext) (rule : CountingRule) (track : Track) :
    List VisionEvent × CountingRule :=
  if !rule.acceptsClass track.classId then ([], rule.reject track.trackId)
  else
    let after := rule.count context track
    (after.1, after.2.store track.trackId (footPoint track.box))

/-- The loop over the last foot points, which drops the tracks not seen. -/
def purge (seen : List ℕ) (rule : CountingRule) : CountingRule :=
  { rule with
    lastFoot := fun id => if id ∈ seen then rule.lastFoot id else none
    inside := rule.inside.filter (fun id => id ∈ seen ∨ rule.lastFoot id = none) }

def evaluate (rule : CountingRule) (tracks : List Track) (context : RuleContext) :
    List VisionEvent × CountingRule :=
  if rule.config.a = rule.config.b then ([], rule)
  else
    let after := Mealy.run (observe context) rule tracks
    (after.1.flatten, after.2.purge (tracks.map Track.trackId))

theorem count_config (rule : CountingRule) (context : RuleContext) (track : Track) :
    (rule.count context track).2.config = rule.config := by
  unfold count
  split
  · rfl
  · split <;> rfl

theorem evaluate_config (rule : CountingRule) (tracks : List Track) (context : RuleContext) :
    (rule.evaluate tracks context).2.config = rule.config := by
  unfold evaluate
  split
  · rfl
  · refine Mealy.run_invariant (R := fun after : CountingRule => after.config = rule.config)
      rfl ?_ tracks
    intro before track same
    unfold observe
    split
    · exact same
    · exact (count_config before context track).trans same

def reset (rule : CountingRule) : CountingRule := { config := rule.config }

instance : IRule CountingRule where
  id rule := rule.config.ruleId
  evaluate rule tracks context :=
    let after := rule.evaluate tracks context
    (.ok after.1, after.2)
  reset := reset

end CountingRule

end VisionLab
