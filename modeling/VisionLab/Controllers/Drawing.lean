import VisionLab.Controllers.VisionController
import VisionLab.Models.RuleModel
import VisionLab.Rendering.Letterbox
import VisionLab.Utilities.AppliedRules

/-! The drawing tools of the controller. A tool collects points into a draft, and a finished draft
becomes a rule of the list that the next start applies. The tools are for a stopped camera, which
all of them check but the one that finishes a draft. -/
namespace VisionLab

inductive DrawTool where
  | none | roi | line | loiter | count
  deriving DecidableEq, Repr, Inhabited

/-- The controller with what the drawing tools keep. -/
structure DrawingController (σ δ τ ρ : Type) extends VisionController σ δ τ ρ where
  frameWidth : ℤ := 0
  frameHeight : ℤ := 0
  drawTool : DrawTool := .none
  draft : List Point2f := []

namespace DrawingController

variable {σ δ τ ρ : Type}

def kindForTool : DrawTool → RuleKind
  | .line => .lineCrossing
  | .loiter => .loitering
  | .count => .counting
  | .roi | .none => .roiIntrusion

def polygon (tool : DrawTool) : Bool := tool = .roi || tool = .loiter

def setFrameSize (width height : ℤ) (c : DrawingController σ δ τ ρ) : DrawingController σ δ τ ρ :=
  { c with frameWidth := width, frameHeight := height }

def itemToFrame (x y itemW itemH : ℚ) (c : DrawingController σ δ τ ρ) : Option Point2f :=
  (computeLetterbox itemW itemH c.frameWidth c.frameHeight).itemToFrame x y c.frameWidth
    c.frameHeight

def clearDraft (c : DrawingController σ δ τ ρ) : DrawingController σ δ τ ρ :=
  { c with drawTool := .none, draft := [] }

def beginDraw (tool : DrawTool) (c : DrawingController σ δ τ ρ) : DrawingController σ δ τ ρ :=
  if c.running then c
  else if tool = c.drawTool ∧ tool ≠ .none then c
  else { c with drawTool := tool, draft := [] }

/-- The specification that the draft makes, once it has the points for it. -/
def drawn (c : DrawingController σ δ τ ρ) : Option RuleSpec :=
  if polygon c.drawTool then
    if 3 ≤ c.draft.length then
      some { kind := kindForTool c.drawTool, polygon := c.draft }
    else none
  else
    match c.draft with
    | a :: b :: _ => some { kind := kindForTool c.drawTool, a := a, b := b }
    | _ => none

section Calls

variable [PointPolygonTest]

def addSpec (spec : RuleSpec) (c : DrawingController σ δ τ ρ) : DrawingController σ δ τ ρ :=
  { c with ruleModel := (({ specs := c.ruleModel } : RuleModel).addSpec spec).2.specs }

def finishDraw (c : DrawingController σ δ τ ρ) : DrawingController σ δ τ ρ :=
  if c.drawTool = .none then c
  else
    match c.drawn with
    | none => c.clearDraft
    | some spec => (c.addSpec spec).clearDraft

def addDrawPoint (itemX itemY itemW itemH : ℚ) (c : DrawingController σ δ τ ρ) :
    DrawingController σ δ τ ρ :=
  if c.running ∨ c.drawTool = .none then c
  else
    match c.itemToFrame itemX itemY itemW itemH with
    | none => c
    | some point =>
      let c := { c with draft := c.draft ++ [point] }
      if (c.drawTool = .line ∨ c.drawTool = .count) ∧ 2 ≤ c.draft.length then c.finishDraw else c

omit [PointPolygonTest] in
def cancelDraw (c : DrawingController σ δ τ ρ) : DrawingController σ δ τ ρ :=
  if c.drawTool = .none ∧ c.draft = [] then c else c.clearDraft

inductive Call where
  | beginDraw (tool : DrawTool)
  | addDrawPoint (itemX itemY itemW itemH : ℚ)
  | finishDraw
  | cancelDraw
  | startCamera
  | stopCamera
  | setFrameSize (width height : ℤ)

omit [PointPolygonTest] in
def Call.draws : Call → Bool
  | .beginDraw _ | .addDrawPoint _ _ _ _ | .finishDraw | .cancelDraw => true
  | .startCamera | .stopCamera | .setFrameSize _ _ => false

variable [IVideoSource σ] [ITracker τ] [IRule ρ] [RuleFactory ρ]

def step (c : DrawingController σ δ τ ρ) : Call → DrawingController σ δ τ ρ
  | .beginDraw tool => c.beginDraw tool
  | .addDrawPoint itemX itemY itemW itemH => c.addDrawPoint itemX itemY itemW itemH
  | .finishDraw => c.finishDraw
  | .cancelDraw => c.cancelDraw
  | .startCamera => { c with toVisionController := c.toVisionController.startCamera }
  | .stopCamera => { c with toVisionController := c.toVisionController.stopCamera }
  | .setFrameSize width height => c.setFrameSize width height

end Calls

end DrawingController

end VisionLab
