import VisionLab.Utilities.Rig

/-! What the calls of the interface leave alone. All but a start and a settings change that goes
through give the pipeline in place another mode, the callback or an engine filled anew, and nothing
else. -/
namespace VisionLab

variable {σ δ τ ρ : Type} [IRule ρ] [RuleFactory ρ]

namespace VisionPipeline

structure Adjusted (p after : VisionPipeline σ δ τ ρ) : Prop where
  same : after =
    { p with mode := after.mode, rules := after.rules, onPresented := after.onPresented }
  rules : after.rules = p.rules ∨
    ∃ specs, after.rules = p.rules.map (fun _ => RuleEngine.fill specs)

theorem Adjusted.trans {p q r : VisionPipeline σ δ τ ρ} (first : Adjusted p q)
    (next : Adjusted q r) : Adjusted p r := by
  constructor
  · rw [next.same, first.same]
  · rcases next.rules with kept | ⟨specs, filled⟩
    · rw [kept]
      exact first.rules
    · refine Or.inr ⟨specs, ?_⟩
      rcases first.rules with kept | ⟨_, before⟩
      · rw [filled, kept]
      · rw [filled, before, Option.map_map]
        rfl

end VisionPipeline

namespace CameraManager

/-- The settings and the display are as they were, and the pipeline is adjusted. -/
structure Adjusted (c after : CameraManager σ δ τ ρ) : Prop where
  modelDir : after.modelDir = c.modelDir
  session : after.session = c.session
  frame : after.frame = c.frame
  detections : after.detections = c.detections
  tracks : after.tracks = c.tracks
  pipeline : ∃ adjust, (∀ p, VisionPipeline.Adjusted p (adjust p)) ∧
    after.pipeline = c.pipeline.map adjust

theorem Adjusted.refl (c : CameraManager σ δ τ ρ) : Adjusted c c where
  modelDir := rfl
  session := rfl
  frame := rfl
  detections := rfl
  tracks := rfl
  pipeline := ⟨id, fun _ => ⟨rfl, Or.inl rfl⟩, (Option.map_id_apply).symm⟩

theorem Adjusted.trans {c d e : CameraManager σ δ τ ρ} (first : Adjusted c d)
    (next : Adjusted d e) : Adjusted c e where
  modelDir := next.modelDir.trans first.modelDir
  session := next.session.trans first.session
  frame := next.frame.trans first.frame
  detections := next.detections.trans first.detections
  tracks := next.tracks.trans first.tracks
  pipeline := by
    obtain ⟨f, adjusts, before⟩ := first.pipeline
    obtain ⟨g, more, after⟩ := next.pipeline
    refine ⟨g ∘ f, fun p => (adjusts p).trans (more (f p)), ?_⟩
    rw [after, before, Option.map_map]

theorem Adjusted.before {c after : CameraManager σ δ τ ρ} (adjusted : Adjusted c after)
    {q : VisionPipeline σ δ τ ρ} (there : after.pipeline = some q) :
    ∃ p, c.pipeline = some p ∧ VisionPipeline.Adjusted p q := by
  obtain ⟨adjust, adjusts, mapped⟩ := adjusted.pipeline
  rw [mapped] at there
  obtain ⟨p, here, rfl⟩ := Option.map_eq_some_iff.mp there
  exact ⟨p, here, adjusts p⟩

theorem Adjusted.after {c after : CameraManager σ δ τ ρ} (adjusted : Adjusted c after)
    {p : VisionPipeline σ δ τ ρ} (here : c.pipeline = some p) :
    ∃ q, after.pipeline = some q ∧ VisionPipeline.Adjusted p q := by
  obtain ⟨adjust, adjusts, mapped⟩ := adjusted.pipeline
  exact ⟨adjust p, by rw [mapped, here, Option.map_some], adjusts p⟩

theorem setMode_adjusted (c : CameraManager σ δ τ ρ) (mode : DetectionMode) :
    Adjusted c (c.setMode mode) :=
  { Adjusted.refl c with pipeline := ⟨fun p => p.setMode mode, fun _ => ⟨rfl, Or.inl rfl⟩, rfl⟩ }

theorem bindPresentedCallback_adjusted (c : CameraManager σ δ τ ρ) :
    Adjusted c c.bindPresentedCallback :=
  { Adjusted.refl c with
    pipeline := ⟨VisionPipeline.setPresentedCallback, fun _ => ⟨rfl, Or.inl rfl⟩, rfl⟩ }

theorem injectRules_adjusted (c : CameraManager σ δ τ ρ) (specs : List RuleSpec) :
    Adjusted c (injectRules { c with ruleSpecs := specs }) :=
  { Adjusted.refl c with pipeline := ⟨_, fun _ => ⟨rfl, Or.inr ⟨specs, rfl⟩⟩, rfl⟩ }

theorem applyRuleSpecs_adjusted (c : CameraManager σ δ τ ρ) (specs : List RuleSpec) :
    Adjusted c (c.applyRuleSpecs specs).2 := by
  cases result : (c.applyRuleSpecs specs).1 with
  | false =>
    rw [applyRuleSpecs_refused result]
    exact .refl c
  | true =>
    rw [(applyRuleSpecs_applied result).2]
    exact injectRules_adjusted c specs

theorem rolledBack_adjusted (c : CameraManager σ δ τ ρ) (plugins : PluginManager δ) :
    Adjusted c (bindPresentedCallback (injectRules (c.withPlugins plugins))) := by
  have scanned : Adjusted c (c.withPlugins plugins) := { Adjusted.refl c with }
  have filled : Adjusted c (injectRules (c.withPlugins plugins)) :=
    scanned.trans (injectRules_adjusted _ c.ruleSpecs)
  exact filled.trans (bindPresentedCallback_adjusted _)

/-- A start does nothing, or it begins with its engine filled anew. -/
inductive Starting [IVideoSource σ] [ITracker τ] (c : CameraManager σ δ τ ρ) :
    StartOutcome σ δ τ ρ → Prop
  | stays (result : Except String Bool) : Starting c { result := result, camera := c }
  | begins {p : VisionPipeline σ δ τ ρ} (stopped : p.running = false) (idle : c.isRunning = false)
      (filled : c.injectRules.pipeline = some p) : Starting c (c.injectRules.startPipeline p)

theorem start_cases [IVideoSource σ] [ITracker τ] (c : CameraManager σ δ τ ρ) :
    Starting c c.start := by
  unfold start
  cases here : c.pipeline with
  | none => exact .stays _
  | some p =>
    simp only
    by_cases running : p.running = true
    · rw [if_pos running]
      exact .stays _
    · rw [if_neg running]
      obtain ⟨q, filled, adjusted⟩ := (injectRules_adjusted c c.ruleSpecs).after here
      have loaded : c.injectRules.pipeline = some q := filled
      have idle : c.isRunning = false := by simpa [isRunning, here] using running
      have stopped : q.running = false := by
        rw [adjusted.same]
        simpa using running
      simp only [loaded]
      exact .begins stopped idle loaded

theorem running_refuses [TrackerFactory τ] {c : CameraManager σ δ τ ρ} (running : c.isRunning = true)
    (scanned : PluginManager δ) (settings : SessionSettings) (specs : List RuleSpec) :
    (c.applySessionSettings scanned settings).2 = c ∧ (c.applyRuleSpecs specs).2 = c := by
  refine ⟨?_, by simp [applyRuleSpecs, running]⟩
  unfold applySessionSettings
  unfold isRunning at running
  split
  · rfl
  · rename_i backup here
    have on : backup.running = true := by simpa [here] using running
    rw [if_pos on]

theorem running_start [IVideoSource σ] [ITracker τ] {c : CameraManager σ δ τ ρ} (running : c.isRunning = true) :
    c.start.camera = c ∧ c.start.session = none := by
  have cases_ := c.start_cases
  generalize c.start = outcome at cases_ ⊢
  cases cases_ with
  | stays => exact ⟨rfl, rfl⟩
  | begins _ idle =>
    rw [idle] at running
    cases running

end CameraManager

namespace Rig

variable [IVideoSource σ] [ITracker τ] [TrackerFactory τ]

/-- While a session runs a call sets the mode or shows a frame, or it changes nothing. -/
inductive Calling (r : Rig σ δ τ ρ) : Rig σ δ τ ρ → Prop
  | nothing : Calling r r
  | refused : Calling r (r.leave r.view)
  | moded (mode : DetectionMode) : Calling r (r.leave (r.view.setMode mode))
  | notified : Calling r (r.leave r.view.notifyFrame.1)

theorem call_running (r : Rig σ δ τ ρ) (running : r.view.isRunning = true) (move : Move δ) :
    Calling r (r.call move) := by
  cases move with
  | capture now => exact .nothing
  | inference => exact .nothing
  | stop => exact .nothing
  | start =>
    obtain ⟨camera, session⟩ := CameraManager.running_start running
    simp only [call, session, camera]
    exact .refused
  | setMode mode => exact .moded mode
  | applySessionSettings scanned settings =>
    simp only [call, (CameraManager.running_refuses running scanned settings []).1]
    exact .refused
  | applyRuleSpecs specs =>
    have refused := (CameraManager.running_refuses running ({} : PluginManager δ) {} specs).2
    simp only [call, refused]
    exact .refused
  | notifyFrame => exact .notified

end Rig

end VisionLab
