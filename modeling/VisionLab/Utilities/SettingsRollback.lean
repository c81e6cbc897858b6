import VisionLab.Utilities.Rig

/-! A settings change that fails. By then the pipeline has been put aside without its source and a
second one has been built; what is put back cannot be told from what was there, the list of plugins
apart. -/
namespace VisionLab

namespace CameraManager

variable {σ δ τ ρ : Type} [IVideoSource σ] [ITracker τ] [IRule ρ] [RuleFactory ρ]

/-- Nothing that can be seen of the camera manager has changed, and it would start as before. -/
structure Untouched (c after : CameraManager σ δ τ ρ) : Prop where
  session : after.session = c.session
  mode : after.mode = c.mode
  ruleSpecs : after.ruleSpecs = c.ruleSpecs
  running : after.isRunning = c.isRunning
  detectors : after.pipeline.map VisionPipeline.detectors = c.pipeline.map VisionPipeline.detectors
  source : after.pipeline.map VisionPipeline.source = c.pipeline.map VisionPipeline.source
  latest : after.pipeline.map VisionPipeline.latest = c.pipeline.map VisionPipeline.latest
  recentEvents : after.recentEvents = c.recentEvents
  stats : after.pipeline.map VisionPipeline.stats = c.pipeline.map VisionPipeline.stats
  listing : after.listing = c.listing
  bound : after.pipeline.map VisionPipeline.onPresented = some true
  start : after.start = { c.start with camera := c.start.camera.withPlugins after.plugins }

omit [RuleFactory ρ] in
theorem startPipeline_withPlugins (c : CameraManager σ δ τ ρ) (p : VisionPipeline σ δ τ ρ)
    (plugins : PluginManager δ) : (c.withPlugins plugins).startPipeline p =
      { c.startPipeline p with camera := (c.startPipeline p).camera.withPlugins plugins } := by
  unfold startPipeline
  split <;> rfl

theorem start_plugins (c : CameraManager σ δ τ ρ) : c.start.camera.plugins = c.plugins := by
  have piped : ∀ p, (c.injectRules.startPipeline p).camera.plugins = c.plugins := by
    intro p
    unfold startPipeline
    split <;> rfl
  unfold start
  split
  · rfl
  · split
    · rfl
    · split
      · rfl
      · exact piped _

omit [IVideoSource σ] [ITracker τ] in
theorem injectRules_injectRules (c : CameraManager σ δ τ ρ) :
    c.injectRules.injectRules = c.injectRules := by
  simp [injectRules_eq, Function.comp_def]

theorem start_refilled {c : CameraManager σ δ τ ρ} (stopped : c.isRunning = false)
    (plugins : PluginManager δ) : (c.withPlugins plugins).injectRules.start =
      { c.start with camera := c.start.camera.withPlugins plugins } := by
  cases here : c.pipeline with
  | none => simp [start, injectRules_eq, withPlugins, here]
  | some p =>
    have still : p.running = false := by simpa [isRunning, here] using stopped
    have refilled := (c.withPlugins plugins).injectRules_injectRules
    have filled : c.injectRules.pipeline =
        some { p with rules := p.rules.map (fun _ => RuleEngine.fill c.ruleSpecs) } := by
      simp [injectRules_eq, here]
    have again : (c.withPlugins plugins).injectRules.pipeline =
        some { p with rules := p.rules.map (fun _ => RuleEngine.fill c.ruleSpecs) } := filled
    simp only [start, here, refilled, again, filled, still, Bool.false_eq_true, if_false]
    exact startPipeline_withPlugins c.injectRules _ plugins

omit [IVideoSource σ] [ITracker τ] in
theorem Reflects.refilled_listing {c : CameraManager σ δ τ ρ} (h : c.Reflects)
    (plugins : PluginManager δ) : (c.withPlugins plugins).injectRules.listing = c.listing := by
  rw [(h.withPlugins plugins).refilled.listed, h.listed]
  rfl

theorem untouched_refilled {c : CameraManager σ δ τ ρ} (h : c.Reflects)
    (stopped : c.isRunning = false) (plugins : PluginManager δ) :
    c.Untouched (c.withPlugins plugins).injectRules := by
  obtain ⟨p, engine, here, -, bound⟩ := h.pipeline
  constructor
  case listing => exact h.refilled_listing plugins
  case start => exact start_refilled stopped plugins
  all_goals
    simp [injectRules_eq, withPlugins, mode, isRunning, recentEvents, VisionPipeline.recentEvents,
      here, bound]

/-- A change that fails leaves the camera manager untouched. -/
theorem applySessionSettings_untouched [TrackerFactory τ] {c : CameraManager σ δ τ ρ}
    (h : c.Reflects) {scanned : PluginManager δ} {settings : SessionSettings}
    (failed : (c.applySessionSettings scanned settings).1 = false) :
    c.Untouched (c.applySessionSettings scanned settings).2 := by
  have spec := applySessionSettings_cases scanned settings c
  generalize c.applySessionSettings scanned settings = result at spec failed ⊢
  cases spec with
  | refused =>
    have same : c.start.camera.withPlugins c.plugins = c.start.camera := by
      rw [withPlugins, ← start_plugins c]
    refine ⟨rfl, rfl, rfl, rfl, rfl, rfl, rfl, rfl, rfl, rfl, h.bound, ?_⟩
    rw [same]
  | rolledBack plugins stopped =>
    have same := (h.withPlugins plugins).refilled.rebound
    have untouched := untouched_refilled h stopped plugins
    exact same.symm ▸ untouched
  | rebuilt source => cases failed

end CameraManager

namespace Rig

/-- In every run from a video source, a settings change that fails leaves the camera manager as its
callers know it. -/
theorem failed_change_untouched [PointPolygonTest] {σ δ τ : Type} [IVideoSource σ] [IDetector δ]
    [ITracker τ] [TrackerFactory τ] (draw : Renderers) (modelDir : String)
    (inference : InferenceSelection) (scanned : PluginManager δ) (source : Option σ)
    (moves : List (Move δ)) (found : PluginManager δ) (settings : SessionSettings)
    (failed : ((run draw { camera := (CameraManager.ofSource modelDir inference scanned source :
      CameraManager σ δ τ Rule) } moves).view.applySessionSettings found settings).1 = false) :
    (run draw { camera := (CameraManager.ofSource modelDir inference scanned source :
      CameraManager σ δ τ Rule) } moves).view.Untouched
        ((run draw { camera := (CameraManager.ofSource modelDir inference scanned source :
          CameraManager σ δ τ Rule) } moves).view.applySessionSettings found settings).2 :=
  CameraManager.applySessionSettings_untouched
    (run_reflects draw modelDir inference scanned source moves) failed

section Lines

local instance : PointPolygonTest := .parity

def fakeRig : Rig FakeVideoSource FakeDetector FakeTracker Rule :=
  run .plain { camera := .ofSource "" {} fakePlugins (some { frameCount := 8 }) }
    [.applyRuleSpecs [CameraManager.lineSpec "north" false], .setMode .object]

theorem no_plugins_untouched :
    fakeRig.view.Untouched (fakeRig.view.applySessionSettings {} { trackingEnabled := false }).2 := by
  have failed : (fakeRig.view.applySessionSettings {} { trackingEnabled := false }).1 = false := by
    decide +kernel
  unfold fakeRig at failed ⊢
  exact failed_change_untouched _ _ _ _ _ _ _ _ failed

end Lines

end Rig

end VisionLab
