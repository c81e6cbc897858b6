import VisionLab.Analytics.RuleEngine
import VisionLab.Analytics.RuleGeometry

/-! The specifications that the user edits, and the rules made from them. -/
namespace VisionLab

inductive RuleKind where
  | roiIntrusion | lineCrossing | loitering | counting
  deriving DecidableEq, Repr, Inhabited

structure RuleSpec where
  ruleId : String := ""
  kind : RuleKind := .roiIntrusion
  enabled : Bool := true
  polygon : List Point2f := []
  a : Point2f := {}
  b : Point2f := {}
  classIds : List ℤ := []
  loiterSeconds : ℚ := 5
  deriving DecidableEq, Repr, Inhabited

/-- The constructors of the four rules, chosen by the kind of the specification. -/
class RuleFactory (ρ : Type) [IRule ρ] where
  build : RuleSpec → ρ
  build_id : ∀ spec, IRule.id (build spec) = spec.ruleId

/-- What `makeRule` asks of a specification before it builds the rule. -/
def RuleSpec.buildable (spec : RuleSpec) : Bool :=
  spec.ruleId ≠ "" &&
    match spec.kind with
    | .roiIntrusion => decide (3 ≤ spec.polygon.length)
    | .lineCrossing => !samePoint spec.a spec.b
    | .loitering => decide (3 ≤ spec.polygon.length) && decide (0 < spec.loiterSeconds)
    | .counting => !samePoint spec.a spec.b

def makeRule {ρ : Type} [IRule ρ] [RuleFactory ρ] (spec : RuleSpec) : Option ρ :=
  if spec.buildable then some (RuleFactory.build spec) else none

theorem makeRule_isSome {ρ : Type} [IRule ρ] [RuleFactory ρ] (spec : RuleSpec) :
    (makeRule spec : Option ρ).isSome = spec.buildable := by
  unfold makeRule
  cases spec.buildable <;> rfl

namespace RuleEngine

variable {ρ : Type} [IRule ρ]

def inject (e : RuleEngine ρ) (rule : ρ) (spec : RuleSpec) : RuleEngine ρ :=
  ((e.addRule rule).2.setEnabled spec.ruleId spec.enabled).2

end RuleEngine

end VisionLab
