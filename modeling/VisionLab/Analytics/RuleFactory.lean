import VisionLab.Analytics.CountingRule
import VisionLab.Analytics.RegionRules
import VisionLab.Analytics.RuleSpec

/-! The four rules as one type, the factory that builds them, and what `reset` leaves of a rule. -/
namespace VisionLab

inductive Rule where
  | roiIntrusion (rule : RoiIntrusionRule)
  | lineCrossing (rule : LineCrossingRule)
  | loitering (rule : LoiteringRule)
  | counting (rule : CountingRule)

namespace Rule

variable [PointPolygonTest]

omit [PointPolygonTest] in
def id : Rule → String
  | .roiIntrusion rule => rule.config.ruleId
  | .lineCrossing rule => rule.config.ruleId
  | .loitering rule => rule.config.ruleId
  | .counting rule => rule.config.ruleId

def evaluate (rule : Rule) (tracks : List Track) (context : RuleContext) :
    List VisionEvent × Rule :=
  match rule with
  | .roiIntrusion rule => let after := rule.evaluate tracks context; (after.1, .roiIntrusion after.2)
  | .lineCrossing rule => let after := rule.evaluate tracks context; (after.1, .lineCrossing after.2)
  | .loitering rule => let after := rule.evaluate tracks context; (after.1, .loitering after.2)
  | .counting rule => let after := rule.evaluate tracks context; (after.1, .counting after.2)

omit [PointPolygonTest] in
def reset : Rule → Rule
  | .roiIntrusion rule => .roiIntrusion rule.reset
  | .lineCrossing rule => .lineCrossing rule.reset
  | .loitering rule => .loitering rule.reset
  | .counting rule => .counting rule.reset

instance : IRule Rule where
  id := id
  evaluate rule tracks context :=
    let after := rule.evaluate tracks context
    (.ok after.1, after.2)
  reset := reset

/-- The constructor calls of `makeRule`. -/
def build (spec : RuleSpec) : Rule :=
  match spec.kind with
  | .roiIntrusion => .roiIntrusion { config := ⟨spec.ruleId, spec.polygon, spec.classIds⟩ }
  | .lineCrossing => .lineCrossing { config := ⟨spec.ruleId, spec.a, spec.b, spec.classIds⟩ }
  | .loitering =>
    .loitering { config := ⟨spec.ruleId, spec.polygon, spec.classIds, spec.loiterSeconds⟩ }
  | .counting => .counting { config := ⟨spec.ruleId, spec.a, spec.b, spec.classIds⟩ }

omit [PointPolygonTest] in
theorem build_id (spec : RuleSpec) : (build spec).id = spec.ruleId := by
  unfold build
  split <;> rfl

instance : RuleFactory Rule := ⟨build, build_id⟩

/-- No evaluation leaves anything behind that `reset` does not clear. -/
theorem reset_evaluate (rule : Rule) (tracks : List Track) (context : RuleContext) :
    (rule.evaluate tracks context).2.reset = rule.reset := by
  cases rule with
  | roiIntrusion rule =>
    simp [evaluate, reset, RoiIntrusionRule.reset, rule.evaluate_config tracks context]
  | lineCrossing rule =>
    simp [evaluate, reset, LineCrossingRule.reset, rule.evaluate_config tracks context]
  | loitering rule =>
    simp [evaluate, reset, LoiteringRule.reset, rule.evaluate_config tracks context]
  | counting rule =>
    simp [evaluate, reset, CountingRule.reset, rule.evaluate_config tracks context]

omit [PointPolygonTest] in
theorem reset_reset (rule : Rule) : rule.reset.reset = rule.reset := by
  cases rule <;> rfl

omit [PointPolygonTest] in
theorem reset_id (rule : Rule) : rule.reset.id = rule.id := by
  cases rule <;> rfl

theorem evaluate_id (rule : Rule) (tracks : List Track) (context : RuleContext) :
    (rule.evaluate tracks context).2.id = rule.id := by
  rw [← reset_id, reset_evaluate, reset_id]

instance : StableId Rule := ⟨evaluate_id, reset_id⟩

end Rule

end VisionLab
