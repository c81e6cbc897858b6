import VisionLab.Controllers.Drawing

/-! The rules on display against the rules of the running session. A start applies the list as it
stands; from then on only a draft that is finished while the camera runs changes the list, and
nothing brings that change to the camera. -/
namespace VisionLab

/- What the camera manager keeps of the applied specifications. -/

namespace CameraManager

variable {σ δ τ ρ : Type} [IVideoSource σ] [ITracker τ] [IRule ρ] [RuleFactory ρ]

omit [RuleFactory ρ] in
theorem startPipeline_specs (c : CameraManager σ δ τ ρ) (p : VisionPipeline σ δ τ ρ) :
    (c.startPipeline p).camera.ruleSpecs = c.ruleSpecs := by
  unfold startPipeline
  split <;> rfl

theorem start_specs (c : CameraManager σ δ τ ρ) : c.start.camera.ruleSpecs = c.ruleSpecs := by
  unfold start
  split
  · rfl
  · split
    · rfl
    · split
      · rfl
      · exact startPipeline_specs c.injectRules _

omit [IVideoSource σ] [ITracker τ] in
theorem applyRuleSpecs_specs (c : CameraManager σ δ τ ρ) {specs : List RuleSpec}
    (buildable : ∀ spec ∈ specs, spec.buildable = true) :
    (c.applyRuleSpecs specs).2.ruleSpecs = if c.isRunning then c.ruleSpecs else specs := by
  cases running : c.isRunning with
  | true => simp [applyRuleSpecs, running]
  | false =>
    have applied := (c.applyRuleSpecs_fst specs running).mpr (by simpa [makeRule_isSome] using buildable)
    rw [(applyRuleSpecs_applied applied).2]
    rfl

end CameraManager

namespace RuleModel

variable [PointPolygonTest]

theorem append_accepted {m : RuleModel} {spec : RuleSpec} (buildable : spec.buildable = true) :
    m.append spec = (true, { specs := m.specs ++ [spec] }) := by
  have built : (makeRule spec : Option Rule) = some (RuleFactory.build spec) := if_pos buildable
  simp [append, built]

theorem addSpec_accepted (m : RuleModel) (spec : RuleSpec) :
    ∀ other ∈ (m.addSpec spec).2.specs, other ∈ m.specs ∨ other.buildable = true := by
  have appended : ∀ spec : RuleSpec, ∀ other ∈ (m.append spec).2.specs,
      other ∈ m.specs ∨ other.buildable = true := by
    intro spec other member
    cases buildable : spec.buildable with
    | true =>
      rw [append_accepted buildable] at member
      rcases List.mem_append.mp member with before | own
      · exact Or.inl before
      · rw [List.mem_singleton.mp own]
        exact Or.inr buildable
    | false =>
      have refused : ¬(makeRule spec : Option Rule).isSome := by simp [makeRule_isSome, buildable]
      rw [append_refused refused] at member
      exact Or.inl member
  unfold addSpec
  split
  · exact appended _
  · split
    · exact fun other member => Or.inl member
    · exact appended _

theorem addSpec_unnamed (m : RuleModel) (spec : RuleSpec) (unnamed : spec.ruleId = "")
    (rest : ({ spec with ruleId := m.allocateId spec.kind } : RuleSpec).buildable = true) :
    (m.addSpec spec).2.specs.length = m.specs.length + 1 := by
  simp [addSpec, unnamed, append_accepted rest]

end RuleModel

namespace DrawingController

variable {σ δ τ ρ : Type}

section Tools

variable [PointPolygonTest]

def ShortSegment (c : DrawingController σ δ τ ρ) : Prop :=
  c.drawTool ≠ .none → polygon c.drawTool = false → c.draft.length ≤ 1

/-- All that finishing a draft does: the tool is put away, and the list is left alone or takes up
the specification that was drawn. -/
theorem finishDraw_changes {c : DrawingController σ δ τ ρ} (held : c.drawTool ≠ .none) :
    c.finishDraw = c.clearDraft ∨
      ∃ spec, c.drawn = some spec ∧ c.finishDraw = (c.addSpec spec).clearDraft := by
  unfold finishDraw
  rw [if_neg held]
  split
  · exact Or.inl rfl
  · rename_i spec made
    exact Or.inr ⟨spec, made, rfl⟩

omit [PointPolygonTest] in
theorem drawn_points {c : DrawingController σ δ τ ρ} {spec : RuleSpec} (made : c.drawn = some spec) :
    polygon c.drawTool = true ∧ 3 ≤ c.draft.length ∨
      polygon c.drawTool = false ∧ 2 ≤ c.draft.length := by
  unfold drawn at made
  split at made
  · rename_i region
    split at made
    · rename_i enough
      exact Or.inl ⟨region, enough⟩
    · contradiction
  · rename_i segment
    split at made
    · rename_i a b rest points
      exact Or.inr ⟨by simpa using segment, by simp [points]⟩
    · contradiction

theorem finishDraw_region {c : DrawingController σ δ τ ρ} (region : polygon c.drawTool = true)
    (enough : 3 ≤ c.draft.length) :
    c.finishDraw.ruleModel.length = c.ruleModel.length + 1 := by
  have tool : c.drawTool ≠ .none := by
    intro none_
    simp [polygon, none_] at region
  have made : c.drawn = some { kind := kindForTool c.drawTool, polygon := c.draft } := by
    simp [drawn, region, enough]
  have kinds : c.drawTool = .roi ∨ c.drawTool = .loiter := by simpa [polygon] using region
  have grown := RuleModel.addSpec_unnamed { specs := c.ruleModel }
    { kind := kindForTool c.drawTool, polygon := c.draft } rfl (by
      rcases kinds with roi | loiter
      · simp [RuleSpec.buildable, kindForTool, roi, enough, RuleModel.allocateId_ne_empty]
      · simp [RuleSpec.buildable, kindForTool, loiter, enough, RuleModel.allocateId_ne_empty])
  simp only [finishDraw, if_neg tool, made, addSpec, clearDraft]
  exact grown

/-- What a call of the drawing tools leaves alone, and what it keeps of the rest. -/
structure Drawn (c after : DrawingController σ δ τ ρ) : Prop where
  camera : after.camera = c.camera
  running : after.running = c.running
  listed : ∀ spec ∈ after.ruleModel, spec ∈ c.ruleModel ∨ spec.buildable = true
  segment : after.ShortSegment

omit [PointPolygonTest] in
theorem drawn_clearDraft (c : DrawingController σ δ τ ρ) : Drawn c c.clearDraft where
  camera := rfl
  running := rfl
  listed := fun _ member => Or.inl member
  segment := fun tool => absurd rfl tool

omit [PointPolygonTest] in
theorem drawn_refl {c : DrawingController σ δ τ ρ} (short : c.ShortSegment) : Drawn c c where
  camera := rfl
  running := rfl
  listed := fun _ member => Or.inl member
  segment := short

theorem drawn_finishDraw {c : DrawingController σ δ τ ρ} (held : c.drawTool ≠ .none) :
    Drawn c c.finishDraw := by
  rcases finishDraw_changes held with cleared | ⟨spec, -, added⟩
  · rw [cleared]
    exact c.drawn_clearDraft
  · rw [added]
    exact ⟨rfl, rfl, RuleModel.addSpec_accepted { specs := c.ruleModel } spec,
      fun tool => absurd rfl tool⟩

theorem drawn_addDrawPoint {c : DrawingController σ δ τ ρ} (short : c.ShortSegment)
    (itemX itemY itemW itemH : ℚ) : Drawn c (c.addDrawPoint itemX itemY itemW itemH) := by
  unfold addDrawPoint
  split
  · exact drawn_refl short
  · rename_i ready
    have held : c.drawTool ≠ .none := fun none_ => ready (Or.inr none_)
    split
    · exact drawn_refl short
    · rename_i point _
      simp only
      split
      · have finished : Drawn _ (finishDraw { c with draft := c.draft ++ [point] }) :=
          drawn_finishDraw held
        exact ⟨finished.camera, finished.running, finished.listed, finished.segment⟩
      · rename_i few
        refine ⟨rfl, rfl, fun _ member => Or.inl member, ?_⟩
        intro _ segment
        have kinds : c.drawTool = .line ∨ c.drawTool = .count := by
          have region : polygon c.drawTool = false := segment
          cases tool : c.drawTool with
          | none => exact absurd tool held
          | line => exact Or.inl rfl
          | count => exact Or.inr rfl
          | roi => simp [polygon, tool] at region
          | loiter => simp [polygon, tool] at region
        have size : ¬2 ≤ (c.draft ++ [point]).length := fun full => few ⟨kinds, full⟩
        exact Nat.le_of_lt_succ (Nat.not_le.mp size)

variable [IVideoSource σ] [ITracker τ] [IRule ρ] [RuleFactory ρ]

theorem step_drawn {c : DrawingController σ δ τ ρ} (short : c.ShortSegment) {call : Call}
    (draws : call.draws = true) : Drawn c (c.step call) := by
  cases call with
  | beginDraw tool =>
    simp only [step, beginDraw]
    split
    · exact drawn_refl short
    · split
      · exact drawn_refl short
      · exact ⟨rfl, rfl, fun _ member => Or.inl member, fun _ _ => Nat.zero_le 1⟩
  | addDrawPoint itemX itemY itemW itemH => exact drawn_addDrawPoint short itemX itemY itemW itemH
  | finishDraw =>
    by_cases idle : c.drawTool = .none
    · have same : c.finishDraw = c := if_pos idle
      rw [step, same]
      exact drawn_refl short
    · exact drawn_finishDraw idle
  | cancelDraw =>
    simp only [step, cancelDraw]
    split
    · exact drawn_refl short
    · exact c.drawn_clearDraft
  | startCamera => contradiction
  | stopCamera => contradiction
  | setFrameSize width height => contradiction

/-- A draft that may not be finished while the camera runs: a region of three points or more. -/
def Harmless (c : DrawingController σ δ τ ρ) : Call → Prop
  | .finishDraw => c.running = true → polygon c.drawTool = true → c.draft.length < 3
  | _ => True

theorem step_running {c : DrawingController σ δ τ ρ} (short : c.ShortSegment)
    (running : c.running = true) {call : Call} (draws : call.draws = true) :
    (c.step call).ruleModel = c.ruleModel ↔ c.Harmless call := by
  cases call with
  | beginDraw tool => simp [step, beginDraw, running, Harmless]
  | addDrawPoint itemX itemY itemW itemH => simp [step, addDrawPoint, running, Harmless]
  | finishDraw =>
    constructor
    · intro same _ region
      by_contra enough
      have longer := finishDraw_region region (Nat.le_of_not_lt enough)
      have lengths := congrArg List.length same
      simp only [step] at lengths
      omega
    · intro harmless
      by_cases idle : c.drawTool = .none
      · have same : c.finishDraw = c := if_pos idle
        rw [step, same]
      · rcases finishDraw_changes idle with cleared | ⟨spec, made, -⟩
        · rw [step, cleared]
          rfl
        · rcases drawn_points made with ⟨region, enough⟩ | ⟨segment, two⟩
          · have few := harmless running region
            omega
          · have one := short idle segment
            omega
  | cancelDraw =>
    simp only [step, cancelDraw, Harmless, iff_true]
    split <;> rfl
  | startCamera => contradiction
  | stopCamera => contradiction
  | setFrameSize width height => contradiction

end Tools

def applied (c : DrawingController σ δ τ ρ) : Option (List RuleSpec) :=
  c.camera.map CameraManager.ruleSpecs

def stopped (c : DrawingController σ δ τ ρ) : Bool :=
  !c.running && !(c.camera.map CameraManager.isRunning).getD false

section Camera

variable [IVideoSource σ] [ITracker τ] [IRule ρ] [RuleFactory ρ]

theorem startCamera_applied {c : VisionController σ δ τ ρ}
    (buildable : ∀ spec ∈ c.ruleModel, spec.buildable = true) :
    c.startCamera.ruleModel = c.ruleModel ∧ (c.running = true → c.startCamera.running = true) ∧
      (c.camera = none ∧ c.startCamera = c ∨
        ∃ camera started, c.camera = some camera ∧ c.startCamera.camera = some started ∧
          started.ruleSpecs = if camera.isRunning then camera.ruleSpecs else c.ruleModel) := by
  unfold VisionController.startCamera
  cases here : c.camera with
  | none => exact ⟨rfl, id, Or.inl ⟨rfl, rfl⟩⟩
  | some camera =>
    have specs := CameraManager.start_specs (camera.applyRuleSpecs c.ruleModel).2
    rw [camera.applyRuleSpecs_specs buildable] at specs
    simp only
    split
    · exact ⟨rfl, fun _ => rfl, Or.inr ⟨camera, _, rfl, rfl, specs⟩⟩
    · exact ⟨rfl, id, Or.inr ⟨camera, _, rfl, rfl, specs⟩⟩
    · exact ⟨rfl, id, Or.inr ⟨camera, _, rfl, rfl, specs⟩⟩

end Camera

/-- A controller with what is noted of its run: whether the calls of the drawing tools have left
the list alone whenever the camera ran, and whether a session that began from the stopped state is
on. -/
structure Observed (σ δ τ ρ : Type) where
  controller : DrawingController σ δ τ ρ
  steady : Bool := true
  session : Bool := false

namespace Observed

variable [PointPolygonTest] [IVideoSource σ] [ITracker τ] [IRule ρ] [RuleFactory ρ]

def step (o : Observed σ δ τ ρ) (call : Call) : Observed σ δ τ ρ :=
  let after := o.controller.step call
  { controller := after
    steady := o.steady && (!(o.controller.running && call.draws) ||
      decide (after.ruleModel = o.controller.ruleModel))
    session :=
      match call with
      | .startCamera => o.session || (o.controller.stopped && after.running)
      | .stopCamera => false
      | _ => o.session }

omit [PointPolygonTest] [IVideoSource σ] [ITracker τ] [IRule ρ] [RuleFactory ρ] in
/-- The list has been left alone, and in a session it is the one that the camera manager holds. -/
def Fixed (o : Observed σ δ τ ρ) : Prop :=
  o.steady = true ∧ (o.session = true → o.controller.applied = some o.controller.ruleModel)

structure Sound (o : Observed σ δ τ ρ) : Prop where
  fixed : o.Fixed
  running : o.session = true → o.controller.running = true
  buildable : ∀ spec ∈ o.controller.ruleModel, spec.buildable = true
  segment : o.controller.ShortSegment

theorem step_draws {o : Observed σ δ τ ρ} (h : o.Sound) {call : Call} (draws : call.draws = true)
    (harmless : o.controller.Harmless call) : (o.step call).Sound := by
  obtain ⟨steady, shows⟩ := h.fixed
  have drawn := step_drawn h.segment draws
  have session : (o.step call).session = o.session := by cases call <;> first | rfl | contradiction
  have kept : o.controller.running = true →
      (o.controller.step call).ruleModel = o.controller.ruleModel := by
    intro running
    exact (step_running h.segment running draws).mpr harmless
  have camera : (o.step call).controller.applied = o.controller.applied :=
    congrArg (Option.map CameraManager.ruleSpecs) drawn.camera
  refine ⟨⟨?_, ?_⟩, ?_, ?_, drawn.segment⟩
  · cases running : o.controller.running with
    | true => simp [step, steady, kept running]
    | false => simp [step, steady, running]
  · rw [session, camera]
    intro on
    have same : (o.step call).controller.ruleModel = o.controller.ruleModel := kept (h.running on)
    rw [same]
    exact shows on
  · rw [session]
    intro on
    exact drawn.running.trans (h.running on)
  · intro spec member
    rcases drawn.listed spec member with before | built
    · exact h.buildable spec before
    · exact built

theorem session_begins {o : Observed σ δ τ ρ} (on : (o.step .startCamera).session = true) :
    o.session = true ∨ o.controller.stopped = true ∧
      (o.step .startCamera).controller.running = true := by
  simpa [step, Bool.or_eq_true] using on

theorem step_starts {o : Observed σ δ τ ρ} (h : o.Sound) : (o.step .startCamera).Sound := by
  obtain ⟨steady, shows⟩ := h.fixed
  obtain ⟨list, flag, camera⟩ := startCamera_applied h.buildable
  have same : (o.step .startCamera).controller.ruleModel = o.controller.ruleModel := list
  refine ⟨⟨?_, ?_⟩, ?_, ?_, h.segment⟩
  · simp [step, steady, Call.draws]
  · intro on
    rw [same]
    have begun := session_begins on
    rcases camera with ⟨none_, unchanged⟩ | ⟨camera, started, here, there, specs⟩
    · rcases begun with before | ⟨still, running⟩
      · have shown := shows before
        rw [applied, none_] at shown
        contradiction
      · have idle : o.controller.running = true := by
          rw [← running]
          exact (congrArg VisionController.running unchanged).symm
        simp [stopped, idle] at still
    · have now : (o.step .startCamera).controller.applied = some started.ruleSpecs :=
        congrArg (Option.map CameraManager.ruleSpecs) there
      rw [now, specs]
      cases live : camera.isRunning with
      | false => simp
      | true =>
        rcases begun with before | ⟨still, -⟩
        · have shown := shows before
          rw [applied, here] at shown
          simpa using shown
        · simp [stopped, here, live] at still
  · intro on
    rcases session_begins on with before | ⟨-, running⟩
    · exact flag (h.running before)
    · exact running
  · rw [same]
    exact h.buildable

theorem step_sound (o : Observed σ δ τ ρ) (call : Call) (h : o.Sound)
    (harmless : o.controller.Harmless call) : (o.step call).Sound := by
  cases call with
  | startCamera => exact step_starts h
  | stopCamera =>
    exact ⟨⟨by simp [step, h.fixed.1, Call.draws], nofun⟩, nofun, h.buildable, h.segment⟩
  | setFrameSize width height =>
    exact ⟨⟨by simp [step, h.fixed.1, Call.draws], h.fixed.2⟩, h.running, h.buildable, h.segment⟩
  | beginDraw tool => exact step_draws h rfl harmless
  | addDrawPoint itemX itemY itemW itemH => exact step_draws h rfl harmless
  | finishDraw => exact step_draws h rfl harmless
  | cancelDraw => exact step_draws h rfl harmless

theorem step_unfixed (o : Observed σ δ τ ρ) (call : Call) (h : o.Sound)
    (harm : ¬o.controller.Harmless call) : ¬(o.step call).Fixed := by
  cases call with
  | finishDraw =>
    rintro ⟨steady, -⟩
    have running : o.controller.running = true := by
      by_contra still
      exact harm (fun on => absurd on still)
    have changed : (o.controller.step .finishDraw).ruleModel ≠ o.controller.ruleModel := by
      intro same
      exact harm ((step_running h.segment running rfl).mp same)
    simp [step, running, Call.draws, changed] at steady
  | _ => exact absurd trivial harm

/-- In every run from a new controller the list of rules is fixed while the camera runs exactly as
long as no region of three points or more is finished then. -/
theorem rules_fixed_iff (camera : Option (CameraManager σ δ τ ρ)) (calls : List Call) :
    (∀ pre, pre <+: calls → (Machine.run step
      ({ controller := { camera := camera } } : Observed σ δ τ ρ) pre).Fixed) ↔
    Machine.EveryStep step (fun o call => o.controller.Harmless call)
      ({ controller := { camera := camera } } : Observed σ δ τ ρ) calls := by
  apply Machine.everyStep_iff (I := Sound)
  · exact fun _ h => h.fixed
  · exact step_sound
  · exact step_unfixed
  · exact ⟨⟨rfl, nofun⟩, nofun, fun _ member => absurd member List.not_mem_nil,
      fun tool => absurd rfl tool⟩

end Observed

local instance drawnTest : PointPolygonTest := .parity

/-- Three corners of a region are drawn, then the camera starts, and then the region is finished. -/
def finishWhileRunning : List Call :=
  [.setFrameSize 100 100, .beginDraw .roi, .addDrawPoint 50 0 200 100, .addDrawPoint 149 0 200 100,
    .addDrawPoint 149 99 200 100, .startCamera, .finishDraw]

theorem late_finish_changes_rules :
    ¬∀ pre, pre <+: finishWhileRunning → (Machine.run Observed.step
      ({ controller := { camera := some VisionController.fakeCamera } } : Observed _ _ _ _)
      pre).Fixed := by
  intro fixed
  have steady := (fixed _ (List.prefix_refl _)).1
  revert steady
  decide +kernel

end DrawingController

end VisionLab
