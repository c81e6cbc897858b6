import VisionLab.Utilities.AppliedRules

/-! A camera manager over a whole life: the calls of the GUI thread, with the steps of the worker
threads of the session that runs between them. While the GUI thread is inside `stop` it makes no
other call. -/
namespace VisionLab

/-- The camera manager, and the session whose threads have not been joined, if there is one. Then
it is the session that has the pipeline. -/
structure Rig (σ δ τ ρ : Type) where
  camera : CameraManager σ δ τ ρ
  live : Option (Session σ δ τ ρ) := none

/-- A step of a worker thread or of the thread that stops them, or a call. -/
inductive Move (δ : Type) where
  | capture (now : TimePoint)
  | inference
  | stop
  | start
  | setMode (mode : DetectionMode)
  | applySessionSettings (scanned : PluginManager δ) (settings : SessionSettings)
  | applyRuleSpecs (specs : List RuleSpec)
  | notifyFrame

namespace Rig

variable {σ δ τ ρ : Type}

/-- The camera manager as its calls find it. -/
def view (r : Rig σ δ τ ρ) : CameraManager σ δ τ ρ :=
  match r.live with
  | none => r.camera
  | some s => { r.camera with pipeline := some s.pipeline }

def free (r : Rig σ δ τ ρ) : Bool := r.live.all (fun s => s.stopping = .running)

def leave (r : Rig σ δ τ ρ) (camera : CameraManager σ δ τ ρ) : Rig σ δ τ ρ where
  camera := camera
  live := r.live.map (fun s => { s with pipeline := camera.pipeline.getD s.pipeline })

def settle (r : Rig σ δ τ ρ) : Rig σ δ τ ρ :=
  match r.live with
  | none => r
  | some s =>
    match s.stopping with
    | .joined => { camera := { r.view with frame := {}, detections := [], tracks := [] } }
    | _ => r

section Steps

variable [IVideoSource σ] [IDetector δ] [ITracker τ] [IRule ρ]

def work (draw : Renderers) (r : Rig σ δ τ ρ) (label : Label) : Rig σ δ τ ρ :=
  { r with live := r.live.map (fun s => s.step draw label) }

variable [TrackerFactory τ] [RuleFactory ρ]

def call (r : Rig σ δ τ ρ) : Move δ → Rig σ δ τ ρ
  | .capture _ | .inference | .stop => r
  | .start =>
    match r.view.start.session with
    | none => r.leave r.view.start.camera
    | some s => { camera := r.view.start.camera, live := some s }
  | .setMode mode => r.leave (r.view.setMode mode)
  | .applySessionSettings scanned settings =>
    r.leave (r.view.applySessionSettings scanned settings).2
  | .applyRuleSpecs specs => r.leave (r.view.applyRuleSpecs specs).2
  | .notifyFrame => r.leave r.view.notifyFrame.1

def step (draw : Renderers) (r : Rig σ δ τ ρ) (move : Move δ) : Rig σ δ τ ρ :=
  match move with
  | .capture now => r.work draw (.capture now)
  | .inference => r.work draw .inference
  | .stop => (r.work draw .stop).settle
  | _ => if r.free then r.call move else r

def run (draw : Renderers) (r : Rig σ δ τ ρ) (moves : List (Move δ)) : Rig σ δ τ ρ :=
  Machine.run (step draw) r moves

end Steps

end Rig

/- What the threads of a session leave of the engine and the callback. -/

namespace VisionPipeline

variable {σ δ τ ρ : Type} [IRule ρ]

/-- The engine shows the same, and the callback is as it was. -/
structure Alike (p after : VisionPipeline σ δ τ ρ) : Prop where
  listing : after.rules.map RuleEngine.listing = p.rules.map RuleEngine.listing
  bound : after.onPresented = p.onPresented

theorem Alike.refl (p : VisionPipeline σ δ τ ρ) : Alike p p := ⟨rfl, rfl⟩

variable [StableId ρ]

theorem start_alike [IVideoSource σ] [ITracker τ] {p after : VisionPipeline σ δ τ ρ}
    (left : p.start.pipeline = some after) : Alike p after := by
  have cleared : ∀ q : VisionPipeline σ δ τ ρ, Alike q q.cleared := by
    intro q
    refine ⟨?_, rfl⟩
    simp [VisionPipeline.cleared, Function.comp_def, RuleEngine.reset_listing]
  unfold start at left
  split at left
  · cases left
  · split at left
    · cases left
      exact .refl p
    · simp only at left
      split at left
      · cases left
        exact ⟨rfl, rfl⟩
      · split at left
        all_goals
          cases left
          exact ⟨(cleared _).listing, rfl⟩

end VisionPipeline

namespace Session

variable {σ δ τ ρ : Type} [IVideoSource σ] [IRule ρ]

omit [IRule ρ] in
theorem captureStep_bound (now : TimePoint) (s : Session σ δ τ ρ) :
    (s.captureStep now).pipeline.onPresented = s.pipeline.onPresented := by
  obtain ⟨_, _, _, _, _, _, _, after⟩ := captureStep_changes now s
  rw [after]

omit [IRule ρ] in
theorem stopStep_bound (s : Session σ δ τ ρ) :
    s.stopStep.pipeline.onPresented = s.pipeline.onPresented := by
  obtain ⟨_, _, _, _, _, _, _, after, -⟩ := stopStep_changes s
  rw [after]

variable [IDetector δ] [ITracker τ] [StableId ρ]

omit [IVideoSource σ] in
theorem inferenceStep_alike (draw : Renderers) (s : Session σ δ τ ρ) :
    s.pipeline.Alike (s.inferenceStep draw).pipeline := by
  cases pc : s.inference with
  | readMode f =>
    rw [inferenceStep_readMode pc]
    unfold readModeStep
    simp only
    split
    · refine ⟨?_, rfl⟩
      simp [VisionPipeline.resetStages, Function.comp_def, RuleEngine.reset_listing]
    · exact .refl _
  | track f =>
    rw [inferenceStep_track pc]
    unfold trackStep
    split <;> exact ⟨rfl, rfl⟩
  | rules f =>
    rw [inferenceStep_rules pc]
    unfold rulesStep
    split
    · exact .refl _
    · rename_i rules there
      refine ⟨?_, rfl⟩
      simp [there, RuleEngine.evaluate_listing]
  | _ =>
    unfold inferenceStep
    rw [pc]
    exact ⟨rfl, rfl⟩

theorem step_alike (draw : Renderers) (s : Session σ δ τ ρ) (label : Label) :
    s.pipeline.Alike (s.step draw label).pipeline := by
  cases label with
  | capture now =>
    exact ⟨by rw [step, (captureStep_aside now s).rules], captureStep_bound now s⟩
  | inference => exact inferenceStep_alike draw s
  | setMode mode => exact ⟨rfl, rfl⟩
  | stop => exact ⟨by rw [step, (stopStep_aside s).rules], stopStep_bound s⟩

end Session

namespace CameraManager

variable {σ δ τ ρ : Type}

def withPlugins (c : CameraManager σ δ τ ρ) (plugins : PluginManager δ) : CameraManager σ δ τ ρ :=
  { c with plugins := plugins }

variable [IRule ρ] [RuleFactory ρ]

/-- Every stored specification can be built, the engine shows what the stored specifications fill
an engine with, and the callback is bound. -/
structure Reflects (c : CameraManager σ δ τ ρ) : Prop where
  buildable : ∀ spec ∈ c.ruleSpecs, (makeRule spec : Option ρ).isSome
  listed : c.listing = some (RuleEngine.fill c.ruleSpecs : RuleEngine ρ).listing
  bound : c.pipeline.map VisionPipeline.onPresented = some true

theorem Reflects.alike {c after : CameraManager σ δ τ ρ} (h : c.Reflects)
    {p q : VisionPipeline σ δ τ ρ} (before : c.pipeline = some p) (alike : p.Alike q)
    (there : after.pipeline = some q) (specs : after.ruleSpecs = c.ruleSpecs) : after.Reflects := by
  have listed := h.listed
  have bound := h.bound
  rw [before] at bound
  simp only [listing, engine, before, Option.bind_some, ← alike.listing] at listed
  refine ⟨by simpa [specs] using h.buildable, ?_, ?_⟩
  · simpa [listing, engine, there, specs] using listed
  · simpa [there, alike.bound] using bound

theorem Reflects.pipeline {c : CameraManager σ δ τ ρ} (h : c.Reflects) :
    ∃ p engine, c.pipeline = some p ∧ p.rules = some engine ∧ p.onPresented = true := by
  have listed := h.listed
  have bound := h.bound
  cases here : c.pipeline with
  | none => simp [here] at bound
  | some p =>
    rw [here] at bound
    simp only [listing, engine, here, Option.bind_some, Option.map_eq_some_iff] at listed
    obtain ⟨engine, carried, -⟩ := listed
    exact ⟨p, engine, rfl, carried, by simpa using bound⟩

theorem Reflects.injected {c : CameraManager σ δ τ ρ} (h : c.Reflects) {specs : List RuleSpec}
    (buildable : ∀ spec ∈ specs, (makeRule spec : Option ρ).isSome) :
    (injectRules { c with ruleSpecs := specs }).Reflects := by
  obtain ⟨p, engine, here, carried, bound⟩ := h.pipeline
  refine ⟨buildable, ?_, ?_⟩
  · simp [injectRules_eq, listing, CameraManager.engine, here, carried]
  · simp [injectRules_eq, here, bound]

theorem Reflects.refilled {c : CameraManager σ δ τ ρ} (h : c.Reflects) : c.injectRules.Reflects :=
  h.injected h.buildable

theorem assembled_reflects [TrackerFactory τ] {c : CameraManager σ δ τ ρ}
    (buildable : ∀ spec ∈ c.ruleSpecs, (makeRule spec : Option ρ).isSome)
    (scanned : PluginManager δ) (source : Option σ) :
    (bindPresentedCallback (c.assembleFromPlugins scanned source)).Reflects := by
  refine ⟨buildable, ?_, ?_⟩
  · simp [bindPresentedCallback, assembleFromPlugins, injectRules_eq, listing, engine,
      VisionPipeline.setMode, VisionPipeline.setPresentedCallback]
  · simp [bindPresentedCallback, assembleFromPlugins, injectRules_eq,
      VisionPipeline.setPresentedCallback]

omit [IRule ρ] [RuleFactory ρ] in
theorem bindPresentedCallback_of_bound {c : CameraManager σ δ τ ρ}
    (bound : c.pipeline.map VisionPipeline.onPresented = some true) :
    c.bindPresentedCallback = c := by
  obtain ⟨p, here, set⟩ := Option.map_eq_some_iff.mp bound
  have same : p.setPresentedCallback = p := by rw [VisionPipeline.setPresentedCallback, ← set]
  have kept : c.pipeline.map VisionPipeline.setPresentedCallback = c.pipeline := by
    rw [here, Option.map_some, same]
  rw [bindPresentedCallback, kept]

theorem Reflects.rebound {c : CameraManager σ δ τ ρ} (h : c.Reflects) :
    c.bindPresentedCallback = c := bindPresentedCallback_of_bound h.bound

theorem Reflects.withPlugins {c : CameraManager σ δ τ ρ} (h : c.Reflects)
    (plugins : PluginManager δ) : (c.withPlugins plugins).Reflects := by
  obtain ⟨p, engine, here, -⟩ := h.pipeline
  exact h.alike here (.refl p) here rfl

theorem setMode_reflects {c : CameraManager σ δ τ ρ} (h : c.Reflects) (mode : DetectionMode) :
    (c.setMode mode).Reflects := by
  obtain ⟨p, engine, here, -⟩ := h.pipeline
  exact h.alike here (q := p.setMode mode) ⟨rfl, rfl⟩ (by simp [setMode, here]) rfl

theorem notifyFrame_reflects {c : CameraManager σ δ τ ρ} (h : c.Reflects) :
    c.notifyFrame.1.Reflects := by
  obtain ⟨p, engine, here, -⟩ := h.pipeline
  unfold notifyFrame
  split
  · exact h
  · exact h.alike here (.refl p) here rfl

theorem applyRuleSpecs_reflects {c : CameraManager σ δ τ ρ} (h : c.Reflects)
    (specs : List RuleSpec) : (c.applyRuleSpecs specs).2.Reflects := by
  cases result : (c.applyRuleSpecs specs).1 with
  | false =>
    rw [applyRuleSpecs_refused result]
    exact h
  | true =>
    obtain ⟨buildable, after⟩ := applyRuleSpecs_applied result
    rw [after]
    exact h.injected (by simpa [makeRule_isSome] using buildable)

/-- How a settings change ends: it is turned away at once, it rolls back to the old pipeline with
its engine refilled, or it goes through. -/
inductive Changed [TrackerFactory τ] (scanned : PluginManager δ) (settings : SessionSettings)
    (c : CameraManager σ δ τ ρ) : Bool × CameraManager σ δ τ ρ → Prop where
  | refused : Changed scanned settings c (false, c)
  | rolledBack (plugins : PluginManager δ) (stopped : c.isRunning = false) :
      Changed scanned settings c
        (false, bindPresentedCallback (injectRules (c.withPlugins plugins)))
  | rebuilt (source : σ) :
      Changed scanned settings c
        (true, bindPresentedCallback
          (assembleFromPlugins scanned (some source) { c with session := settings }))

theorem applySessionSettings_cases [TrackerFactory τ] (scanned : PluginManager δ)
    (settings : SessionSettings) (c : CameraManager σ δ τ ρ) :
    Changed scanned settings c (c.applySessionSettings scanned settings) := by
  obtain ⟨plugins, modelDir, session, specs, pipeline, mark, frame, detections, tracks⟩ := c
  cases pipeline with
  | none => exact .refused
  | some backup =>
    obtain ⟨source, detectors, capacity, tracker, rules, log, latest, stats, mode, running, bound⟩ :=
      backup
    cases running with
    | true => exact .refused
    | false =>
      cases source with
      | none => exact .refused
      | some source =>
        unfold applySessionSettings
        simp only [VisionPipeline.releaseSource, Bool.false_eq_true, if_false]
        split
        · exact .rolledBack _ rfl
        · exact .rebuilt source

theorem applySessionSettings_reflects [TrackerFactory τ] {c : CameraManager σ δ τ ρ}
    (h : c.Reflects) (scanned : PluginManager δ) (settings : SessionSettings) :
    (c.applySessionSettings scanned settings).2.Reflects := by
  have spec := applySessionSettings_cases scanned settings c
  generalize c.applySessionSettings scanned settings = result at spec ⊢
  cases spec with
  | refused => exact h
  | rolledBack plugins stopped =>
    have refilled := (h.withPlugins plugins).refilled
    exact refilled.rebound.symm ▸ refilled
  | rebuilt source =>
    exact assembled_reflects (c := { c with session := settings }) h.buildable scanned (some source)

section Start

variable [IVideoSource σ] [ITracker τ] [StableId ρ]

omit [RuleFactory ρ] in
theorem startPipeline_alike (c : CameraManager σ δ τ ρ) {p : VisionPipeline σ δ τ ρ}
    (here : c.pipeline = some p) : ∃ q, p.Alike q ∧ (c.startPipeline p).camera.pipeline = some q ∧
      (c.startPipeline p).camera.ruleSpecs = c.ruleSpecs ∧
      ∀ s, (c.startPipeline p).session = some s → s.pipeline = q := by
  have alike : ∀ after, p.start.pipeline = some after → p.Alike after :=
    fun after => VisionPipeline.start_alike
  unfold startPipeline
  split
  · exact ⟨p, .refl p, here, rfl, by simp⟩
  · rename_i q started
    exact ⟨q, alike q (by rw [started]; rfl), rfl, rfl, by simp⟩
  · rename_i q started
    exact ⟨q, alike q (by rw [started]; rfl), rfl, rfl, by simp⟩
  · rename_i s started
    refine ⟨s.pipeline, alike _ (by rw [started]; rfl), rfl, rfl, ?_⟩
    intro t begun
    rw [Option.some.inj begun]

theorem start_reflects {c : CameraManager σ δ τ ρ} (h : c.Reflects) : c.start.camera.Reflects ∧
    ∀ s, c.start.session = some s → c.start.camera.pipeline = some s.pipeline := by
  obtain ⟨p, engine, here, -⟩ := h.pipeline
  unfold start
  simp only [here]
  split
  · exact ⟨h, by simp⟩
  · have injected := h.refilled
    obtain ⟨q, engine, there, -⟩ := injected.pipeline
    have filled : c.injectRules.pipeline = some q := there
    simp only [filled]
    obtain ⟨after, alike, left, specs, begun⟩ := startPipeline_alike c.injectRules filled
    refine ⟨Reflects.alike injected there alike left specs, ?_⟩
    intro s started
    rw [left, begun s started]

end Start

end CameraManager

namespace Rig

variable {σ δ τ ρ : Type} [IVideoSource σ] [IDetector δ] [ITracker τ] [TrackerFactory τ] [IRule ρ]
  [RuleFactory ρ] [StableId ρ]

omit [IVideoSource σ] [IDetector δ] [ITracker τ] [TrackerFactory τ] [StableId ρ] in
theorem leave_view (r : Rig σ δ τ ρ) {camera : CameraManager σ δ τ ρ} (h : camera.Reflects) :
    (r.leave camera).view = camera := by
  obtain ⟨p, engine, here, -⟩ := h.pipeline
  unfold leave view
  cases r.live with
  | none => rfl
  | some s =>
    simp only [Option.map_some, here, Option.getD_some]
    rw [← here]

omit [IVideoSource σ] [IDetector δ] [ITracker τ] [TrackerFactory τ] [IRule ρ] [RuleFactory ρ]
  [StableId ρ] in
theorem settle_view (r : Rig σ δ τ ρ) : r.settle.view = r.view ∨
    r.settle.view = { r.view with frame := {}, detections := [], tracks := [] } := by
  unfold settle
  split
  · exact Or.inl rfl
  · split
    · exact Or.inr rfl
    · exact Or.inl rfl

omit [TrackerFactory τ] in
theorem work_reflects {r : Rig σ δ τ ρ} (h : r.view.Reflects) (draw : Renderers) (label : Label) :
    (r.work draw label).view.Reflects := by
  cases live : r.live with
  | none =>
    have same : (r.work draw label).view = r.view := by simp [work, view, live]
    rw [same]
    exact h
  | some s =>
    have before : r.view.pipeline = some s.pipeline := by simp [view, live]
    refine h.alike before (s.step_alike draw label) ?_ ?_
    · simp [work, view, live]
    · simp [work, view, live]

omit [IDetector δ] in
theorem call_reflects {r : Rig σ δ τ ρ} (h : r.view.Reflects) (move : Move δ) :
    (r.call move).view.Reflects := by
  cases move with
  | capture now => exact h
  | inference => exact h
  | stop => exact h
  | start =>
    obtain ⟨after, begun⟩ := CameraManager.start_reflects h
    simp only [call]
    split
    · rwa [leave_view r after]
    · rename_i s started
      have there := begun s started
      simpa [view, ← there] using after
  | setMode mode =>
    have after := CameraManager.setMode_reflects h mode
    rwa [call, leave_view r after]
  | applySessionSettings scanned settings =>
    have after := CameraManager.applySessionSettings_reflects h scanned settings
    rwa [call, leave_view r after]
  | applyRuleSpecs specs =>
    have after := CameraManager.applyRuleSpecs_reflects h specs
    rwa [call, leave_view r after]
  | notifyFrame =>
    have after := CameraManager.notifyFrame_reflects h
    rwa [call, leave_view r after]

theorem step_reflects (draw : Renderers) (r : Rig σ δ τ ρ) (move : Move δ)
    (h : r.view.Reflects) : (r.step draw move).view.Reflects := by
  cases move with
  | capture now => exact work_reflects h draw (.capture now)
  | inference => exact work_reflects h draw .inference
  | stop =>
    have worked := work_reflects h draw .stop
    rcases (r.work draw .stop).settle_view with same | cleared
    · rwa [step, same]
    · rw [step, cleared]
      obtain ⟨p, engine, here, -⟩ := worked.pipeline
      exact worked.alike here (.refl p) here rfl
  | _ =>
    simp only [step]
    split
    · exact call_reflects h _
    · exact h

/-- Whatever calls are made and however they end, the camera manager reflects its specifications. -/
theorem run_reflects (draw : Renderers) (modelDir : String) (inference : InferenceSelection)
    (scanned : PluginManager δ) (source : Option σ) (moves : List (Move δ)) :
    (run draw { camera := (CameraManager.ofSource modelDir inference scanned source :
      CameraManager σ δ τ ρ) } moves).view.Reflects := by
  refine Machine.run_invariant (P := fun r : Rig σ δ τ ρ => r.view.Reflects) ?_
    (step_reflects draw) moves
  exact CameraManager.assembled_reflects (by simp) scanned source

/-- The rules that the program makes, in every run from a video source: the stored specifications
can all be built, and the engine shows what they fill an engine with. -/
theorem engine_shows_specs [PointPolygonTest] (draw : Renderers) (modelDir : String)
    (inference : InferenceSelection) (scanned : PluginManager δ) (source : Option σ)
    (moves : List (Move δ)) :
    let camera := (run draw { camera := (CameraManager.ofSource modelDir inference scanned source :
      CameraManager σ δ τ Rule) } moves).view
    (∀ spec ∈ camera.ruleSpecs, (makeRule spec : Option Rule).isSome) ∧
      camera.listing = some (RuleEngine.fill camera.ruleSpecs : RuleEngine Rule).listing :=
  have h := run_reflects (ρ := Rule) draw modelDir inference scanned source moves
  ⟨h.buildable, h.listed⟩

end Rig

end VisionLab
