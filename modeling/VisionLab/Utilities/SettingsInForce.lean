import Mathlib.Logic.Relation
import VisionLab.Utilities.CallFrame

/-! The settings that the user interface shows are those of the pipeline that runs: its detectors
were made for them by the plugins of the same scan and have only worked since, and it has a tracker
exactly if they ask for one. The video source goes from pipeline to pipeline and is never lost. -/
namespace VisionLab

variable {σ δ τ ρ : Type}

def Aged [IDetector δ] : δ → δ → Prop :=
  Relation.ReflTransGen (fun detector after =>
    ∃ packet, after = (IDetector.detect detector packet).2)

namespace VisionPipeline

/-- The pipeline after some work of its threads. -/
structure Descends [IDetector δ] (p after : VisionPipeline σ δ τ ρ) : Prop where
  detectors : ∀ mode, Option.Rel Aged (p.detectors mode) (after.detectors mode)
  tracker : after.tracker.isSome = p.tracker.isSome
  source : after.source.isSome = p.source.isSome

variable [IDetector δ]

theorem aged_refl (detector : Option δ) : Option.Rel Aged detector detector := by
  cases detector with
  | none => exact .none
  | some detector => exact .some .refl

theorem aged_trans {first second third : Option δ} (early : Option.Rel Aged first second)
    (late : Option.Rel Aged second third) : Option.Rel Aged first third := by
  cases early with
  | none => exact late
  | some early =>
    cases late with
    | some late => exact .some (early.trans late)

theorem Descends.of_eq {p after : VisionPipeline σ δ τ ρ} (detectors : after.detectors = p.detectors)
    (tracker : after.tracker.isSome = p.tracker.isSome)
    (source : after.source.isSome = p.source.isSome) : Descends p after :=
  ⟨fun _ => detectors ▸ aged_refl _, tracker, source⟩

theorem Descends.refl (p : VisionPipeline σ δ τ ρ) : Descends p p := .of_eq rfl rfl rfl

theorem start_descends [IVideoSource σ] [ITracker τ] [IRule ρ] {p after : VisionPipeline σ δ τ ρ}
    (left : p.start.pipeline = some after) : Descends p after := by
  unfold start at left
  split at left
  · cases left
  · split at left
    · cases left
      exact .refl p
    · rename_i source there
      simp only at left
      split at left
      · cases left
        exact .of_eq rfl rfl (by simp [there])
      · split at left
        all_goals
          cases left
          exact .of_eq rfl (by simp [cleared]) (by simp [cleared, there])

end VisionPipeline

open VisionPipeline

namespace InferenceWorker

variable [IDetector δ]

theorem detect_aged (detector : Option δ) (packet : FramePacket) :
    Option.Rel Aged detector (detect detector packet).2 := by
  unfold detect
  split
  · exact .none
  · rename_i detector
    split
    · split
      · rename_i after given
        exact .some (.single ⟨packet, by rw [given]⟩)
      · rename_i after given
        exact .some (.single ⟨packet, by rw [given]⟩)
    · exact aged_refl _

end InferenceWorker

namespace Session

variable [IVideoSource σ] [IDetector δ]

theorem captureStep_descends (now : TimePoint) (s : Session σ δ τ ρ) :
    Descends s.pipeline (s.captureStep now).pipeline := by
  have kept := s.pipeline.readSource_snd
  unfold captureStep
  split
  case h_2 =>
    split
    all_goals
      rename_i read
      rw [read] at kept
      subst kept
      exact .of_eq rfl rfl (by simp)
  all_goals exact .of_eq rfl rfl rfl

theorem stopStep_descends (s : Session σ δ τ ρ) : Descends s.pipeline s.stopStep.pipeline := by
  unfold stopStep
  split
  case h_4 => exact .of_eq rfl rfl (by simp)
  case h_6 => split <;> exact .refl _
  all_goals exact .of_eq rfl rfl rfl

variable [ITracker τ] [IRule ρ]

omit [IVideoSource σ] in
theorem inferenceStep_descends (draw : Renderers) (s : Session σ δ τ ρ) :
    Descends s.pipeline (s.inferenceStep draw).pipeline := by
  unfold inferenceStep
  cases s.inference with
  | detect f =>
    refine ⟨?_, rfl, rfl⟩
    intro mode
    simp only [detectStep]
    by_cases same : mode = f.source
    · subst same
      rw [Function.update_self]
      exact InferenceWorker.detect_aged _ _
    · rw [Function.update_of_ne same]
      exact aged_refl _
  | readMode f =>
    simp only [readModeStep]
    split
    · exact .of_eq rfl (by simp [resetStages]) rfl
    · exact .refl _
  | track f =>
    simp only [trackStep]
    split
    · exact .refl _
    · rename_i tracker there
      exact .of_eq rfl (by simp [there]) rfl
  | rules f =>
    simp only [rulesStep]
    split
    · exact .refl _
    · exact .of_eq rfl rfl rfl
  | _ => exact .of_eq rfl rfl rfl

theorem step_descends (draw : Renderers) (s : Session σ δ τ ρ) (label : Label) :
    Descends s.pipeline (s.step draw label).pipeline := by
  cases label with
  | capture now => exact captureStep_descends now s
  | inference => exact inferenceStep_descends draw s
  | setMode mode => exact .of_eq rfl rfl rfl
  | stop => exact stopStep_descends s

end Session

namespace CameraManager

/-- What a scan of the plugin directory found and the settings that were to be applied then. -/
abbrev Change (δ : Type) : Type := PluginManager δ × SessionSettings

/-- The pipeline was built for the change, and has only worked since. -/
structure Built [IDetector δ] (modelDir : String) (change : Change δ) (p : VisionPipeline σ δ τ ρ) :
    Prop where
  detectors : ∀ mode, Option.Rel Aged ((assembled (request modelDir change.2) change.1).2 mode)
    (p.detectors mode)
  tracker : p.tracker.isSome = change.2.trackingEnabled

/-- The settings shown are those of one of the changes, and the pipeline was built for that one. -/
structure InForce [IDetector δ] (modelDir : String) (owned : Bool) (changes : List (Change δ))
    (c : CameraManager σ δ τ ρ) : Prop where
  dir : c.modelDir = modelDir
  settings : ∃ p, c.pipeline = some p ∧ p.source.isSome = owned ∧
    ∃ change ∈ changes, c.session = change.2 ∧ Built modelDir change p

variable [IDetector δ] {modelDir : String} {owned : Bool} {changes : List (Change δ)}

theorem Built.descends {change : Change δ} {p after : VisionPipeline σ δ τ ρ}
    (h : Built modelDir change p) (descends : Descends p after) : Built modelDir change after :=
  ⟨fun mode => aged_trans (h.detectors mode) (descends.detectors mode),
    descends.tracker.trans h.tracker⟩

/-- Another pipeline that descends from the one in place, under the same settings. -/
theorem InForce.descends {c after : CameraManager σ δ τ ρ} (h : c.InForce modelDir owned changes)
    {p q : VisionPipeline σ δ τ ρ} (before : c.pipeline = some p) (descends : Descends p q)
    (there : after.pipeline = some q) (dir : after.modelDir = c.modelDir)
    (session : after.session = c.session) : after.InForce modelDir owned changes := by
  obtain ⟨same, r, here, source, change, known, settings, built⟩ := h
  obtain rfl := Option.some.inj (here.symm.trans before)
  exact ⟨dir.trans same, q, there, descends.source.trans source, change, known,
    session.trans settings, built.descends descends⟩

theorem InForce.pipeline {c : CameraManager σ δ τ ρ} (h : c.InForce modelDir owned changes) :
    ∃ p, c.pipeline = some p := by
  obtain ⟨p, here, -⟩ := h.settings
  exact ⟨p, here⟩

theorem notifyFrame_inForce {c : CameraManager σ δ τ ρ} (h : c.InForce modelDir owned changes) :
    c.notifyFrame.1.InForce modelDir owned changes := by
  obtain ⟨p, here⟩ := h.pipeline
  unfold notifyFrame
  split
  · exact h
  · exact h.descends here (.refl p) here rfl rfl

variable [IRule ρ] [RuleFactory ρ]

theorem InForce.adjusted {c after : CameraManager σ δ τ ρ} (h : c.InForce modelDir owned changes)
    (adjusted : Adjusted c after) : after.InForce modelDir owned changes := by
  obtain ⟨p, here⟩ := h.pipeline
  obtain ⟨q, there, changed⟩ := adjusted.after here
  have descends : Descends p q := by
    rw [changed.same]
    exact .of_eq rfl rfl rfl
  exact h.descends here descends there adjusted.modelDir adjusted.session

theorem assembled_inForce [TrackerFactory τ] {c : CameraManager σ δ τ ρ}
    (dir : c.modelDir = modelDir) (scanned : PluginManager δ) (source : Option σ)
    (known : (scanned, c.session) ∈ changes) :
    (c.assembleFromPlugins scanned source).InForce modelDir source.isSome changes := by
  refine ⟨dir, _, rfl, rfl, _, known, rfl, ?_, ?_⟩
  · intro mode
    rw [← dir]
    exact aged_refl _
  · simp only [VisionPipeline.setMode]
    split <;> simp_all

theorem applySessionSettings_inForce [TrackerFactory τ] {c : CameraManager σ δ τ ρ}
    (h : c.InForce modelDir owned changes) (scanned : PluginManager δ) (settings : SessionSettings)
    (known : (scanned, settings) ∈ changes) :
    (c.applySessionSettings scanned settings).2.InForce modelDir owned changes := by
  obtain ⟨p, here, source, -⟩ := h.settings
  have spec := applySessionSettings_cases scanned settings c
  have owner : (c.applySessionSettings scanned settings).1 = true → owned = true := by
    intro applied
    rw [← source]
    unfold applySessionSettings at applied
    simp only [here] at applied
    split at applied
    · cases applied
    · unfold releaseSource at applied
      split at applied
      · cases applied
      · cases there : p.source with
        | none => simp_all
        | some source => rfl
  generalize c.applySessionSettings scanned settings = result at spec owner ⊢
  cases spec with
  | refused => exact h
  | rolledBack plugins stopped => exact h.adjusted (rolledBack_adjusted c plugins)
  | rebuilt source =>
    have whole := assembled_inForce (c := { c with session := settings }) h.dir scanned
      (some source) known
    obtain rfl := owner rfl
    exact whole.adjusted (bindPresentedCallback_adjusted _)

theorem start_inForce [IVideoSource σ] [ITracker τ] {c : CameraManager σ δ τ ρ}
    (h : c.InForce modelDir owned changes) : c.start.camera.InForce modelDir owned changes ∧
      ∀ s, c.start.session = some s → c.start.camera.pipeline = some s.pipeline := by
  have begins : ∀ (d : CameraManager σ δ τ ρ) (p : VisionPipeline σ δ τ ρ),
      d.InForce modelDir owned changes → d.pipeline = some p →
      (d.startPipeline p).camera.InForce modelDir owned changes ∧
        ∀ s, (d.startPipeline p).session = some s →
          (d.startPipeline p).camera.pipeline = some s.pipeline := by
    intro d p held here
    have left : ∀ after, p.start.pipeline = some after → Descends p after :=
      fun after => start_descends
    unfold startPipeline
    split
    · exact ⟨held, by simp⟩
    · rename_i q started
      exact ⟨held.descends here (left q (by rw [started]; rfl)) rfl rfl rfl, by simp⟩
    · rename_i q started
      exact ⟨held.descends here (left q (by rw [started]; rfl)) rfl rfl rfl, by simp⟩
    · rename_i s started
      refine ⟨held.descends here (left s.pipeline (by rw [started]; rfl)) rfl rfl rfl, ?_⟩
      intro t begun
      rw [Option.some.inj begun]
  have cases_ := c.start_cases
  generalize c.start = outcome at cases_ ⊢
  cases cases_ with
  | stays => exact ⟨h, by simp⟩
  | @begins p _ _ filled =>
    exact begins c.injectRules p (h.adjusted (injectRules_adjusted c c.ruleSpecs)) filled

end CameraManager

namespace Rig

theorem leave_view_of_pipeline (r : Rig σ δ τ ρ) {camera : CameraManager σ δ τ ρ}
    {p : VisionPipeline σ δ τ ρ} (here : camera.pipeline = some p) :
    (r.leave camera).view = camera := by
  unfold leave view
  cases r.live with
  | none => rfl
  | some s =>
    simp only [Option.map_some, here, Option.getD_some]
    rw [← here]

end Rig

def Move.change? : Move δ → Option (CameraManager.Change δ)
  | .applySessionSettings scanned settings => some (scanned, settings)
  | _ => none

namespace Rig

open CameraManager

variable [IVideoSource σ] [IDetector δ] [ITracker τ] [TrackerFactory τ] [IRule ρ] [RuleFactory ρ]
  {modelDir : String} {owned : Bool} {changes : List (Change δ)}

omit [TrackerFactory τ] [RuleFactory ρ] in
theorem work_inForce {r : Rig σ δ τ ρ} (h : r.view.InForce modelDir owned changes)
    (draw : Renderers) (label : Label) :
    (r.work draw label).view.InForce modelDir owned changes := by
  cases live : r.live with
  | none =>
    have same : (r.work draw label).view = r.view := by simp [work, view, live]
    rw [same]
    exact h
  | some s =>
    have before : r.view.pipeline = some s.pipeline := by simp [view, live]
    refine h.descends before (s.step_descends draw label) ?_ ?_ ?_
    all_goals simp [work, view, live]

theorem call_inForce {r : Rig σ δ τ ρ} (h : r.view.InForce modelDir owned changes) (move : Move δ)
    (known : ∀ change, move.change? = some change → change ∈ changes) :
    (r.call move).view.InForce modelDir owned changes := by
  have left : ∀ camera : CameraManager σ δ τ ρ, camera.InForce modelDir owned changes →
      (r.leave camera).view.InForce modelDir owned changes := by
    intro camera held
    obtain ⟨p, here⟩ := held.pipeline
    rwa [leave_view_of_pipeline r here]
  cases move with
  | capture now => exact h
  | inference => exact h
  | stop => exact h
  | start =>
    obtain ⟨after, begun⟩ := start_inForce h
    simp only [call]
    split
    · exact left _ after
    · rename_i s started
      have there := begun s started
      simpa [view, ← there] using after
  | setMode mode => exact left _ (h.adjusted (setMode_adjusted _ mode))
  | applySessionSettings scanned settings =>
    exact left _ (applySessionSettings_inForce h scanned settings (known _ rfl))
  | applyRuleSpecs specs => exact left _ (h.adjusted (applyRuleSpecs_adjusted _ specs))
  | notifyFrame => exact left _ (notifyFrame_inForce h)

theorem step_inForce (draw : Renderers) {r : Rig σ δ τ ρ} {move : Move δ}
    (known : ∀ change, move.change? = some change → change ∈ changes)
    (h : r.view.InForce modelDir owned changes) :
    (r.step draw move).view.InForce modelDir owned changes := by
  cases move with
  | capture now => exact work_inForce h draw (.capture now)
  | inference => exact work_inForce h draw .inference
  | stop =>
    have worked := work_inForce h draw .stop
    rcases (r.work draw .stop).settle_view with same | cleared
    · rwa [step, same]
    · rw [step, cleared]
      obtain ⟨p, here⟩ := worked.pipeline
      exact worked.descends here (.refl p) here rfl rfl
  | _ =>
    simp only [step]
    split
    · exact call_inForce h _ known
    · exact h

/-- Whatever the user does, whichever settings changes go through, roll back or are turned away, and
whatever the threads do meanwhile, the settings shown are those of the first scan or of a change,
the pipeline in place was built for just that one, and it has the video source if there was one. -/
theorem settings_in_force (draw : Renderers) (modelDir : String) (inference : InferenceSelection)
    (scanned : PluginManager δ) (source : Option σ) (moves : List (Move δ)) :
    (run draw { camera := (CameraManager.ofSource modelDir inference scanned source :
        CameraManager σ δ τ ρ) } moves).view.InForce modelDir source.isSome
      ((scanned, { inference := inference }) :: moves.filterMap Move.change?) := by
  refine Machine.run_guarded (P := fun r : Rig σ δ τ ρ => r.view.InForce modelDir source.isSome
      ((scanned, { inference := inference }) :: moves.filterMap Move.change?))
    (G := fun _ move => ∀ change, move.change? = some change →
      change ∈ (scanned, ({ inference := inference } : SessionSettings)) ::
        moves.filterMap Move.change?)
    ?_ (fun r move h known => step_inForce draw h known) ?_
  · refine InForce.adjusted ?_ (bindPresentedCallback_adjusted _)
    exact assembled_inForce (c := { modelDir := modelDir, session := { inference := inference } })
      rfl scanned source List.mem_cons_self
  · refine Machine.everyStep_of_forall ?_ _
    intro move member _ change asked
    exact List.mem_cons_of_mem _ (List.mem_filterMap.mpr ⟨move, member, asked⟩)

end Rig

end VisionLab
