import VisionLab.Utilities.CameraManager

/-! The controller behind the user interface, and the mode it shows. The pipeline holds the mode a
second time, and a rebuild replaces the pipeline. -/
namespace VisionLab

/- The models behind the lists of the interface are written by these calls and read by none. -/
structure VisionController (σ δ τ ρ : Type) where
  camera : Option (CameraManager σ δ τ ρ)
  mode : String := ""
  running : Bool := false
  ruleModel : List RuleSpec := []
  lastSettingsError : String := ""

structure UiSettings where
  backend : ℤ
  precision : ℤ
  deviceId : ℤ
  confidence : ℚ
  nms : ℚ
  tracking : Bool
  deriving DecidableEq, Repr

def UiSettings.over (ui : UiSettings) (settings : SessionSettings) : SessionSettings :=
  { settings with
    inference :=
      { settings.inference with
        backend := .ofInt ui.backend
        precision := .ofInt ui.precision
        deviceId := ui.deviceId }
    confidenceThreshold := ui.confidence
    nmsThreshold := ui.nms
    trackingEnabled := ui.tracking }

namespace VisionController

variable {σ δ τ ρ : Type} [IVideoSource σ] [ITracker τ] [TrackerFactory τ] [IRule ρ]
  [RuleFactory ρ]

def setMode (newMode : String) (c : VisionController σ δ τ ρ) : VisionController σ δ τ ρ :=
  if c.mode = newMode then c
  else
    { c with
      mode := newMode
      camera := c.camera.map (fun camera => camera.setMode (detectionModeFromLabel newMode)) }

/- An exception leaves the call where it is thrown. -/
def startCamera (c : VisionController σ δ τ ρ) : VisionController σ δ τ ρ :=
  match c.camera with
  | none => c
  | some camera =>
    let outcome := (camera.applyRuleSpecs c.ruleModel).2.start
    match outcome.result with
    | .ok true => { c with camera := some outcome.camera, running := true }
    | .ok false | .error _ => { c with camera := some outcome.camera }

def stopCamera (c : VisionController σ δ τ ρ) : VisionController σ δ τ ρ :=
  { c with running := false, camera := c.camera.map (fun camera => camera.stop.2) }

def setSettingsError (error : String) (c : VisionController σ δ τ ρ) : VisionController σ δ τ ρ :=
  { c with lastSettingsError := error }

def applyUiSettings (scanned : PluginManager δ) (ui : UiSettings) (c : VisionController σ δ τ ρ) :
    Bool × VisionController σ δ τ ρ :=
  if c.running then (false, c.setSettingsError "先停止摄像头")
  else
    match c.camera with
    | none => (false, c.setSettingsError "摄像头未就绪")
    | some camera =>
      match camera.applySessionSettings scanned (ui.over camera.session) with
      | (false, camera) =>
        (false, { c with camera := some camera }.setSettingsError "重建失败，已恢复原管线")
      | (true, camera) => (true, { c with camera := some camera }.setSettingsError "")

def applyUiRules (c : VisionController σ δ τ ρ) : Bool × VisionController σ δ τ ρ :=
  if c.running then (false, c.setSettingsError "先停止摄像头")
  else
    match c.camera with
    | none => (false, c.setSettingsError "规则未应用")
    | some camera =>
      match camera.applyRuleSpecs c.ruleModel with
      | (false, camera) => (false, { c with camera := some camera }.setSettingsError "规则未应用")
      | (true, camera) => (true, { c with camera := some camera }.setSettingsError "")

/-- The calls of the interface. A settings change comes with what its scan of the plugin directory
finds; `editRules` stands for the drawing tools, which change the rule model between the calls. -/
inductive Call (δ : Type) where
  | setMode (newMode : String)
  | applyUiSettings (scanned : PluginManager δ) (ui : UiSettings)
  | applyUiRules
  | startCamera
  | stopCamera
  | editRules (specs : List RuleSpec)

def Call.choosesMode : Call δ → Bool
  | .setMode _ => true
  | _ => false

def step (c : VisionController σ δ τ ρ) : Call δ → VisionController σ δ τ ρ
  | .setMode newMode => c.setMode newMode
  | .applyUiSettings scanned ui => (c.applyUiSettings scanned ui).2
  | .applyUiRules => c.applyUiRules.2
  | .startCamera => c.startCamera
  | .stopCamera => c.stopCamera
  | .editRules specs => { c with ruleModel := specs }

def run (c : VisionController σ δ τ ρ) (calls : List (Call δ)) : VisionController σ δ τ ρ :=
  Machine.run step c calls

/-- The mode that the camera manager reports is the one whose label the controller shows. -/
def ShowsMode (c : VisionController σ δ τ ρ) : Prop :=
  ∀ camera, c.camera = some camera → camera.mode = detectionModeFromLabel c.mode

def held (c : VisionController σ δ τ ρ) : Option (Option DetectionMode) :=
  c.camera.map CameraManager.held

omit [IVideoSource σ] [ITracker τ] [TrackerFactory τ] [IRule ρ] [RuleFactory ρ] in
theorem showsMode_iff (c : VisionController σ δ τ ρ) :
    c.ShowsMode ↔ ∀ held, c.held = some held → held.getD .none = detectionModeFromLabel c.mode := by
  unfold ShowsMode held
  constructor
  · intro shows held here
    obtain ⟨camera, there, rfl⟩ := Option.map_eq_some_iff.mp here
    rw [← CameraManager.mode_eq]
    exact shows camera there
  · intro shows camera there
    rw [CameraManager.mode_eq]
    exact shows _ (by rw [there]; rfl)

def rebuilds (scanned : PluginManager δ) (ui : UiSettings) (c : VisionController σ δ τ ρ) : Bool :=
  !c.running &&
    (c.camera.map (fun camera => camera.accepts scanned (ui.over camera.session))).getD false

/- What each call does to the two modes. -/

omit [IVideoSource σ] [ITracker τ] [TrackerFactory τ] [IRule ρ] [RuleFactory ρ] in
theorem setMode_modes (newMode : String) (c : VisionController σ δ τ ρ) :
    (c.setMode newMode).mode = newMode ∧
    (c.setMode newMode).held = if c.mode = newMode then c.held
      else c.held.map (fun held => held.map (fun _ => detectionModeFromLabel newMode)) := by
  unfold setMode
  by_cases same : c.mode = newMode
  · rw [if_pos same, if_pos same]
    exact ⟨same, rfl⟩
  · rw [if_neg same, if_neg same]
    refine ⟨rfl, ?_⟩
    unfold held
    cases c.camera with
    | none => rfl
    | some camera => exact congrArg some (CameraManager.setMode_held camera _)

omit [TrackerFactory τ] in
theorem startCamera_modes (c : VisionController σ δ τ ρ) :
    c.startCamera.mode = c.mode ∧ c.startCamera.held = c.held := by
  unfold startCamera
  cases here : c.camera with
  | none => exact ⟨rfl, rfl⟩
  | some camera =>
    have kept : some ((camera.applyRuleSpecs c.ruleModel).2.start.camera.held) = c.held := by
      rw [CameraManager.start_held, CameraManager.applyRuleSpecs_held, held, here]
      rfl
    simp only
    split
    · exact ⟨rfl, kept⟩
    · exact ⟨rfl, kept⟩
    · exact ⟨rfl, kept⟩

omit [ITracker τ] [TrackerFactory τ] [IRule ρ] [RuleFactory ρ] in
theorem stopCamera_held (c : VisionController σ δ τ ρ) : c.stopCamera.held = c.held := by
  unfold stopCamera held
  cases c.camera with
  | none => rfl
  | some camera => exact congrArg some (CameraManager.stop_held camera)

omit [IVideoSource σ] [ITracker τ] [TrackerFactory τ] in
theorem applyUiRules_modes (c : VisionController σ δ τ ρ) :
    c.applyUiRules.2.mode = c.mode ∧ c.applyUiRules.2.held = c.held := by
  unfold applyUiRules
  split
  · exact ⟨rfl, rfl⟩
  · cases here : c.camera with
    | none => exact ⟨rfl, by simp only [held, setSettingsError, here]⟩
    | some camera =>
      have kept : some ((camera.applyRuleSpecs c.ruleModel).2.held) = c.held := by
        rw [CameraManager.applyRuleSpecs_held, held, here]
        rfl
      simp only
      split
      · rename_i applied
        rw [applied] at kept
        exact ⟨rfl, kept⟩
      · rename_i applied
        rw [applied] at kept
        exact ⟨rfl, kept⟩

omit [IVideoSource σ] [ITracker τ] in
theorem applyUiSettings_modes (scanned : PluginManager δ) (ui : UiSettings)
    (c : VisionController σ δ τ ρ) :
    (c.applyUiSettings scanned ui).2.mode = c.mode ∧
    (c.applyUiSettings scanned ui).2.held =
      if c.rebuilds scanned ui then some (some .face) else c.held := by
  unfold applyUiSettings rebuilds
  by_cases running : c.running = true
  · simp [running, setSettingsError, held]
  · have stopped : c.running = false := by simpa using running
    cases here : c.camera with
    | none => simp [stopped, setSettingsError, held, here]
    | some camera =>
      obtain ⟨result, after⟩ :=
        CameraManager.applySessionSettings_held scanned (ui.over camera.session) camera
      simp only [stopped, Bool.false_eq_true, if_false]
      split
      · rename_i applied
        rw [applied] at result after
        simp only [← result, Bool.false_eq_true, if_false] at after
        refine ⟨rfl, ?_⟩
        simp [setSettingsError, held, here, ← result, after]
      · rename_i applied
        rw [applied] at result after
        simp only [← result, if_true] at after
        refine ⟨rfl, ?_⟩
        simp [setSettingsError, held, ← result, after]

/- The exact condition. -/

/-- What the agreement of the two modes asks of a call; `chosen` says whether a mode has been
chosen before. A camera without a pipeline reports no mode, the empty label is the one a controller
starts with, and a rebuilt pipeline starts in the face mode. -/
def Keeps (s : Bool × VisionController σ δ τ ρ) : Call δ → Prop
  | .setMode newMode =>
    (s.2.held = some none → detectionModeFromLabel newMode = .none) ∧
      (s.1 = false → newMode = "" → ∀ mode, s.2.held ≠ some (some mode))
  | .applyUiSettings scanned ui =>
    s.1 = true → s.2.rebuilds scanned ui = true → s.2.mode = kFaceModeLabel
  | .applyUiRules | .startCamera | .stopCamera | .editRules _ => True

/-- A controller watched for its first choice of a mode. -/
def watch (s : Bool × VisionController σ δ τ ρ) (call : Call δ) :
    Bool × VisionController σ δ τ ρ :=
  (s.1 || call.choosesMode, s.2.step call)

structure Settled (s : Bool × VisionController σ δ τ ρ) : Prop where
  chosen : s.1 = true → s.2.ShowsMode
  label : s.1 = false → s.2.mode = ""
  fresh : s.1 = false → ∀ mode, s.2.held = some (some mode) → mode = .face

theorem watch_run (calls : List (Call δ)) (s : Bool × VisionController σ δ τ ρ) :
    Machine.run watch s calls = (s.1 || calls.any Call.choosesMode, s.2.run calls) := by
  induction calls generalizing s with
  | nil => simp [run]
  | cons call calls ih => simp [run, ih, watch, Bool.or_assoc]

omit [IVideoSource σ] [ITracker τ] [TrackerFactory τ] [IRule ρ] [RuleFactory ρ] in
theorem showsMode_congr {c after : VisionController σ δ τ ρ} (mode : after.mode = c.mode)
    (held : after.held = c.held) : after.ShowsMode ↔ c.ShowsMode := by
  rw [showsMode_iff, showsMode_iff, mode, held]

theorem Settled.unmoved {s : Bool × VisionController σ δ τ ρ} (h : Settled s) {call : Call δ}
    (silent : call.choosesMode = false) (mode : (s.2.step call).mode = s.2.mode)
    (held : (s.2.step call).held = s.2.held) : Settled (watch s call) := by
  have same : (watch s call).1 = s.1 := by rw [watch, silent, Bool.or_false]
  refine ⟨?_, ?_, ?_⟩
  · rw [same]
    intro chosen
    exact (showsMode_congr mode held).mpr (h.chosen chosen)
  · rw [same]
    intro unchosen
    exact mode.trans (h.label unchosen)
  · rw [same]
    intro unchosen mode here
    exact h.fresh unchosen mode (held.symm.trans here)

omit [IVideoSource σ] [ITracker τ] [TrackerFactory τ] [IRule ρ] [RuleFactory ρ] in
theorem setMode_shows {s : Bool × VisionController σ δ τ ρ} (h : Settled s) (newMode : String) :
    (s.2.setMode newMode).ShowsMode ↔ Keeps s (.setMode newMode) := by
  obtain ⟨mode, held⟩ := setMode_modes newMode s.2
  rw [showsMode_iff, mode, held]
  simp only [Keeps]
  by_cases same : s.2.mode = newMode
  · rw [if_pos same]
    cases chosen : s.1 with
    | true =>
      have shows := (showsMode_iff s.2).mp (h.chosen chosen)
      rw [same] at shows
      constructor
      · intro _
        exact ⟨fun bare => (shows none bare).symm, nofun⟩
      · intro _
        exact shows
    | false =>
      have empty : newMode = "" := same.symm.trans (h.label chosen)
      have unknown : detectionModeFromLabel "" = .none := by decide
      subst empty
      rw [unknown]
      constructor
      · intro shows
        refine ⟨fun _ => rfl, fun _ _ mode here => ?_⟩
        have none := shows _ here
        rw [h.fresh chosen mode here] at none
        contradiction
      · rintro ⟨-, bare⟩ held here
        cases held with
        | none => rfl
        | some mode => exact absurd here (bare rfl rfl mode)
  · rw [if_neg same]
    have fresh : s.1 = false → newMode = "" → ∀ mode, s.2.held ≠ some (some mode) := by
      intro unchosen empty
      exact absurd ((h.label unchosen).trans empty.symm) same
    cases shown : s.2.held with
    | none => simp
    | some current =>
      cases current with
      | none =>
        constructor
        · intro shows
          exact ⟨fun _ => (shows none rfl).symm, fun _ _ => nofun⟩
        · rintro ⟨bare, -⟩ after here
          have unheld : after = none := by simpa using here.symm
          rw [unheld]
          exact (bare rfl).symm
      | some mode =>
        rw [shown] at fresh
        constructor
        · intro _
          exact ⟨nofun, fresh⟩
        · rintro - after here
          have new : after = some (detectionModeFromLabel newMode) := by simpa using here.symm
          rw [new]
          rfl

theorem watch_keeps (s : Bool × VisionController σ δ τ ρ) (call : Call δ) (h : Settled s)
    (keeps : Keeps s call) : Settled (watch s call) := by
  cases call with
  | setMode newMode =>
    have chosen : (watch s (.setMode newMode)).1 = true := Bool.or_true _
    refine ⟨fun _ => (setMode_shows h newMode).mpr keeps, ?_, ?_⟩
    · rw [chosen]
      exact nofun
    · rw [chosen]
      exact nofun
  | applyUiSettings scanned ui =>
    obtain ⟨mode, held⟩ := applyUiSettings_modes scanned ui s.2
    by_cases rebuilt : s.2.rebuilds scanned ui = true
    · rw [if_pos rebuilt] at held
      have same : (watch s (.applyUiSettings scanned ui)).1 = s.1 := Bool.or_false _
      refine ⟨?_, ?_, ?_⟩
      · rw [same]
        intro chosen
        rw [showsMode_iff]
        intro after here
        have face : after = some .face := Option.some.inj (here.symm.trans held)
        change after.getD .none = detectionModeFromLabel (s.2.applyUiSettings scanned ui).2.mode
        rw [face, mode, (detectionModeFromLabel_face _).mpr (keeps chosen rebuilt)]
        rfl
      · rw [same]
        intro unchosen
        exact mode.trans (h.label unchosen)
      · rw [same]
        intro _ after here
        have face : some after = some DetectionMode.face := Option.some.inj (here.symm.trans held)
        exact Option.some.inj face
    · rw [if_neg rebuilt] at held
      exact h.unmoved rfl mode held
  | applyUiRules => exact h.unmoved rfl (applyUiRules_modes s.2).1 (applyUiRules_modes s.2).2
  | startCamera => exact h.unmoved rfl (startCamera_modes s.2).1 (startCamera_modes s.2).2
  | stopCamera => exact h.unmoved rfl rfl (stopCamera_held s.2)
  | editRules specs => exact h.unmoved rfl rfl rfl

theorem watch_breaks (s : Bool × VisionController σ δ τ ρ) (call : Call δ) (h : Settled s)
    (forbidden : ¬ Keeps s call) :
    ¬ ((watch s call).1 = true → (watch s call).2.ShowsMode) := by
  cases call with
  | setMode newMode =>
    intro shows
    exact forbidden ((setMode_shows h newMode).mp (shows (Bool.or_true _)))
  | applyUiSettings scanned ui =>
    obtain ⟨mode, held⟩ := applyUiSettings_modes scanned ui s.2
    simp only [Keeps, not_forall] at forbidden
    obtain ⟨chosen, rebuilt, other⟩ := forbidden
    rw [if_pos rebuilt] at held
    intro shows
    have here := (showsMode_iff _).mp (shows (by rw [watch, chosen, Bool.true_or])) _ held
    change DetectionMode.face =
      detectionModeFromLabel (s.2.applyUiSettings scanned ui).2.mode at here
    rw [mode] at here
    exact other ((detectionModeFromLabel_face _).mp here.symm)
  | _ => exact absurd trivial forbidden

/-- After the first choice of a mode the two modes agree at every point of a run exactly if every
call of the run keeps them so: above all, no settings change goes through while another mode than
the face mode is shown. -/
theorem mode_shown_iff {camera : CameraManager σ δ τ ρ} (constructed : camera.Constructed)
    (specs : List RuleSpec) (calls : List (Call δ)) :
    (∀ pre, pre <+: calls → pre.any Call.choosesMode = true →
      (run { camera := some camera, ruleModel := specs } pre).ShowsMode) ↔
    Machine.EveryStep watch Keeps
      (false, { camera := some camera, ruleModel := specs }) calls := by
  have base : Settled (false, ({ camera := some camera, ruleModel := specs } :
      VisionController σ δ τ ρ)) := by
    refine ⟨nofun, fun _ => rfl, fun _ mode here => ?_⟩
    have held : camera.held = some mode := Option.some.inj here
    rcases constructed.held_face with bare | face
    · rw [bare] at held
      contradiction
    · exact Option.some.inj (held.symm.trans face)
  have exact_condition := Machine.everyStep_iff (G := Keeps)
    (Q := fun s : Bool × VisionController σ δ τ ρ => s.1 = true → s.2.ShowsMode)
    (fun _ h => h.chosen) watch_keeps watch_breaks base calls
  simpa only [watch_run, Bool.false_or] using exact_condition

def fakeCamera : CameraManager FakeVideoSource FakeDetector FakeTracker FakeRule :=
  .ofSource "models" {} fakePlugins (some { frameCount := 8 })

theorem fake_mode_shown : fakeCamera.Constructed ∧
    ∀ pre, pre <+: [Call.setMode "Motion Detection", .startCamera, .setMode "Face Detection",
        .stopCamera, .applyUiSettings fakePlugins ⟨0, 0, 0, 1 / 4, 9 / 20, true⟩] →
      pre.any Call.choosesMode = true →
      (run ({ camera := some fakeCamera } : VisionController _ _ _ _) pre).ShowsMode := by
  have constructed : fakeCamera.Constructed := .source "models" {} fakePlugins _
  refine ⟨constructed, (mode_shown_iff constructed [] _).mpr ?_⟩
  exact ⟨⟨nofun, nofun⟩, trivial, ⟨nofun, nofun⟩, trivial, fun _ _ => rfl, trivial⟩

/-- A settings change that goes through in the object mode leaves the face mode running, and
choosing the object mode once more does not bring it back. -/
theorem rebuild_forgets_mode :
    ¬ (∀ pre, pre <+: [Call.setMode "Object Detection",
          .applyUiSettings fakePlugins ⟨0, 0, 0, 1 / 4, 9 / 20, true⟩,
          .setMode "Object Detection"] →
        pre.any Call.choosesMode = true →
        (run ({ camera := some fakeCamera } : VisionController _ _ _ _) pre).ShowsMode) := by
  intro all
  have shows := all _ (List.prefix_refl _) rfl
  have face := (showsMode_iff _).mp shows (some .face) (by decide)
  revert face
  decide

end VisionController

end VisionLab
