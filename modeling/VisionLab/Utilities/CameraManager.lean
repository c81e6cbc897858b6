import VisionLab.Analytics.RuleSpec
import VisionLab.Inference.InferenceTypes
import VisionLab.Pipeline.Fakes

/-! The camera manager: it builds the pipeline from the plugins, starts and stops it, and hands the
events of a session to the database writer. It lives on the GUI thread. What the worker threads do
between two of its calls is the business of `VisionLab.Pipeline.VisionPipeline`. -/
namespace VisionLab

structure SessionSettings where
  inference : InferenceSelection := {}
  confidenceThreshold : ℚ := 1 / 4
  nmsThreshold : ℚ := 9 / 20
  trackingEnabled : Bool := true
  deriving DecidableEq, Repr

structure DetectorCreateRequest where
  modelDir : String
  backend : InferenceBackend := .onnxRuntimeCpu
  precision : InferencePrecision := .fp32
  deviceId : ℤ := 0
  confidenceThreshold : ℚ := 1 / 4
  nmsThreshold : ℚ := 9 / 20
  deriving DecidableEq, Repr

structure PluginMetadata where
  id : String
  name : String := ""
  version : String := ""
  description : String := ""
  capabilities : List String := []
  interfaceVersion : ℤ := 1
  mode : Option DetectionMode := none
  deriving DecidableEq, Repr

/-- A plugin found by a scan: its self-description and its factory, which may return null. -/
structure Plugin (δ : Type) where
  metadata : PluginMetadata
  createDetector : DetectorCreateRequest → Option δ

structure PluginManager (δ : Type) where
  catalog : List (Plugin δ) := []
  errors : List String := []

class TrackerFactory (τ : Type) where
  make : τ

instance {κ : Type} : TrackerFactory (ByteTrackTracker κ) := ⟨{ config := {} }⟩

instance : TrackerFactory FakeTracker := ⟨{}⟩

instance : RuleFactory FakeRule where
  build spec := { id := spec.ruleId }
  build_id _ := rfl

def fakePlugins : PluginManager FakeDetector where
  catalog :=
    [⟨{ id := "face", mode := some .face }, fun _ => some { label := "face" }⟩,
      ⟨{ id := "object", mode := some .object }, fun _ => some {}⟩]

namespace PluginManager

variable {δ : Type}

def metadata (m : PluginManager δ) : List PluginMetadata := m.catalog.map Plugin.metadata

def catalogFind (m : PluginManager δ) (id : String) : Option (Plugin δ) :=
  m.catalog.find? (fun plugin => plugin.metadata.id = id)

def createDetector (m : PluginManager δ) (pluginId : String) (request : DetectorCreateRequest) :
    Option δ × PluginManager δ :=
  match m.catalogFind pluginId with
  | none => (none, { m with errors := m.errors ++ ["unknown plugin id '" ++ pluginId ++ "'"] })
  | some plugin =>
    match plugin.createDetector request with
    | none =>
      (none,
        { m with errors := m.errors ++ ["createDetector failed for id '" ++ pluginId ++ "'"] })
    | some detector => (some detector, m)

end PluginManager

/- Every constructor makes an event writer, so the null check before an event is handed over always
passes. -/
structure CameraManager (σ δ τ ρ : Type) where
  plugins : PluginManager δ := {}
  modelDir : String := ""
  session : SessionSettings := {}
  ruleSpecs : List RuleSpec := []
  pipeline : Option (VisionPipeline σ δ τ ρ) := none
  persistedMaxEventId : ℕ := 0
  frame : Mat := {}
  detections : List Detection := []
  tracks : List Track := []

namespace CameraManager

variable {σ δ τ ρ : Type}

def request (modelDir : String) (session : SessionSettings) : DetectorCreateRequest where
  modelDir := modelDir
  backend := session.inference.backend
  precision := session.inference.precision
  deviceId := session.inference.deviceId
  confidenceThreshold := session.confidenceThreshold
  nmsThreshold := session.nmsThreshold

def assembleMode (request : DetectorCreateRequest)
    (built : PluginManager δ × (DetectionMode → Option δ)) (mode : DetectionMode) :
    PluginManager δ × (DetectionMode → Option δ) :=
  match built.1.metadata.find? (fun metadata => metadata.mode = some mode) with
  | none => built
  | some metadata =>
    match built.1.createDetector metadata.id request with
    | (none, plugins) => (plugins, built.2)
    | (some detector, plugins) => (plugins, Function.update built.2 mode (some detector))

/-- The plugin manager and the detectors that `assembleFromPlugins` ends with, when the scan finds
`scanned`. -/
def assembled (request : DetectorCreateRequest) (scanned : PluginManager δ) :
    PluginManager δ × (DetectionMode → Option δ) :=
  [DetectionMode.face, .object, .motion].foldl (assembleMode request) (scanned, fun _ => none)

variable [IVideoSource σ] [ITracker τ] [TrackerFactory τ] [IRule ρ] [RuleFactory ρ]

def injectRules (c : CameraManager σ δ τ ρ) : CameraManager σ δ τ ρ :=
  { c with
    pipeline := c.pipeline.map (fun p =>
      { p with
        rules := p.rules.map (fun engine =>
          c.ruleSpecs.foldl
            (fun engine spec =>
              match makeRule spec with
              | none => engine
              | some rule => engine.inject rule spec)
            engine.clear) }) }

def assembleFromPlugins (scanned : PluginManager δ) (source : Option σ)
    (c : CameraManager σ δ τ ρ) : CameraManager σ δ τ ρ :=
  let built := assembled (request c.modelDir c.session) scanned
  let pipeline : VisionPipeline σ δ τ ρ :=
    { source := source
      detectors := built.2
      tracker := if c.session.trackingEnabled then some TrackerFactory.make else none
      rules := some {} }
  injectRules { c with plugins := built.1, pipeline := some (pipeline.setMode .face) }

def bindPresentedCallback (c : CameraManager σ δ τ ρ) : CameraManager σ δ τ ρ :=
  { c with pipeline := c.pipeline.map VisionPipeline.setPresentedCallback }

def ofSource (modelDir : String) (inference : InferenceSelection) (scanned : PluginManager δ)
    (source : Option σ) : CameraManager σ δ τ ρ :=
  bindPresentedCallback
    (assembleFromPlugins scanned source
      { modelDir := modelDir, session := { inference := inference } })

def ofPipeline (modelDir : String) (inference : InferenceSelection)
    (pipeline : Option (VisionPipeline σ δ τ ρ)) : CameraManager σ δ τ ρ :=
  bindPresentedCallback
    { modelDir := modelDir
      session := { inference := inference }
      pipeline := pipeline.map (fun p => p.setMode .face) }

def setMode (c : CameraManager σ δ τ ρ) (mode : DetectionMode) : CameraManager σ δ τ ρ :=
  { c with pipeline := c.pipeline.map (fun p => p.setMode mode) }

def mode (c : CameraManager σ δ τ ρ) : DetectionMode :=
  match c.pipeline with
  | none => .none
  | some p => p.mode

def isRunning (c : CameraManager σ δ τ ρ) : Bool :=
  (c.pipeline.map VisionPipeline.running).getD false

def hasDetectors (c : CameraManager σ δ τ ρ) : Bool :=
  (c.pipeline.map VisionPipeline.hasDetectors).getD false

/-- How `start` ends, with the session it has started. -/
structure StartOutcome (σ δ τ ρ : Type) where
  result : Except String Bool
  camera : CameraManager σ δ τ ρ
  session : Option (Session σ δ τ ρ) := none

def startPipeline (c : CameraManager σ δ τ ρ) (p : VisionPipeline σ δ τ ρ) :
    StartOutcome σ δ τ ρ :=
  match p.start with
  | .already => { result := .ok true, camera := c }
  | .refused p => { result := .ok false, camera := { c with pipeline := some p } }
  | .threw what p => { result := .error what, camera := { c with pipeline := some p } }
  | .started s =>
    { result := .ok true
      camera := { c with pipeline := some s.pipeline, persistedMaxEventId := 0 }
      session := some s }

def start (c : CameraManager σ δ τ ρ) : StartOutcome σ δ τ ρ :=
  match c.pipeline with
  | none => { result := .ok false, camera := c }
  | some p =>
    if p.running then { result := .ok true, camera := c }
    else
      match c.injectRules.pipeline with
      | none => { result := .ok false, camera := c.injectRules }
      | some p => startPipeline c.injectRules p

omit [TrackerFactory τ] in
theorem start_session {c : CameraManager σ δ τ ρ} {s : Session σ δ τ ρ}
    (started : c.start.session = some s) :
    c.start.result = .ok true ∧ c.start.camera.persistedMaxEventId = 0 ∧
      ∃ p : VisionPipeline σ δ τ ρ, p.start = .started s := by
  have begins : ∀ (c : CameraManager σ δ τ ρ) (p : VisionPipeline σ δ τ ρ),
      (startPipeline c p).session = some s → (startPipeline c p).result = .ok true ∧
        (startPipeline c p).camera.persistedMaxEventId = 0 ∧ p.start = .started s := by
    intro c p started
    unfold startPipeline at started ⊢
    cases begun : p.start <;> rw [begun] at started <;> cases started
    exact ⟨rfl, rfl, rfl⟩
  unfold start at started ⊢
  split at started
  · cases started
  · split at started
    · cases started
    · split at started
      · cases started
      · rename_i stopped _ p _
        obtain ⟨result, mark, begun⟩ := begins _ p started
        rw [if_neg stopped]
        exact ⟨result, mark, p, begun⟩

def stop (c : CameraManager σ δ τ ρ) : Bool × CameraManager σ δ τ ρ :=
  match c.pipeline with
  | none => (false, c)
  | some p =>
    if !p.running then (false, c)
    else (true, { c with pipeline := some p.stop, frame := {}, detections := [], tracks := [] })

/-- `scanned` is what the scan of the plugin directory finds. -/
def applySessionSettings (scanned : PluginManager δ) (settings : SessionSettings)
    (c : CameraManager σ δ τ ρ) : Bool × CameraManager σ δ τ ρ :=
  match c.pipeline with
  | none => (false, c)
  | some backup =>
    if backup.running then (false, c)
    else
      match backup.releaseSource with
      | (none, backup) => (false, { c with pipeline := some backup })
      | (some source, released) =>
        let rebuilt := assembleFromPlugins scanned (some source) { c with session := settings }
        if !rebuilt.hasDetectors && backup.hasDetectors then
          let source := rebuilt.pipeline.bind (fun p => p.releaseSource.1)
          (false,
            bindPresentedCallback
              (injectRules
                { rebuilt with
                  pipeline := some (released.adoptSource source)
                  session := c.session }))
        else (true, bindPresentedCallback rebuilt)

def applyRuleSpecs (specs : List RuleSpec) (c : CameraManager σ δ τ ρ) :
    Bool × CameraManager σ δ τ ρ :=
  if c.isRunning then (false, c)
  else
    match specs.mapM (fun spec => (makeRule spec : Option ρ)) with
    | none => (false, c)
    | some built =>
      (true,
        { c with
          ruleSpecs := specs
          pipeline := c.pipeline.map (fun p =>
            { p with
              rules := p.rules.map (fun engine =>
                (built.zip specs).foldl (fun engine pair => engine.inject pair.1 pair.2)
                  engine.clear) }) })

def recentEvents (c : CameraManager σ δ τ ρ) : List VisionEvent :=
  (c.pipeline.map VisionPipeline.recentEvents).getD []

/-- The frame that `notifyFrame` shows, when its guards pass. -/
def shown (c : CameraManager σ δ τ ρ) : Option PresentedFrame :=
  match c.pipeline with
  | none => none
  | some p =>
    if !p.running then none
    else p.latest.filter (fun presented => !presented.rgb.empty)

/-- The loop over a snapshot of the log: the new high-water mark and what is handed over. -/
def persist {α : Type} (eventId : α → ℕ) : ℕ → List α → ℕ × List α
  | mark, [] => (mark, [])
  | mark, event :: events =>
    if eventId event ≤ mark then persist eventId mark events
    else
      let rest := persist eventId (eventId event) events
      (rest.1, event :: rest.2)

/-- With the events given to `EventWriter::enqueue`, in that order. -/
def notifyFrame (c : CameraManager σ δ τ ρ) : CameraManager σ δ τ ρ × List VisionEvent :=
  match c.shown with
  | none => (c, [])
  | some presented =>
    let after := persist VisionEvent.eventId c.persistedMaxEventId c.recentEvents
    ({ c with
        frame := presented.rgb
        detections := presented.detections
        tracks := presented.tracks
        persistedMaxEventId := after.1 }, after.2)

/- The mode, through each of the calls. -/

def held (c : CameraManager σ δ τ ρ) : Option DetectionMode := c.pipeline.map VisionPipeline.mode

omit [IVideoSource σ] [ITracker τ] [TrackerFactory τ] [IRule ρ] [RuleFactory ρ] in
theorem mode_eq (c : CameraManager σ δ τ ρ) : c.mode = c.held.getD .none := by
  unfold mode held
  cases c.pipeline <;> rfl

omit [IVideoSource σ] [ITracker τ] [TrackerFactory τ] in
@[simp] theorem injectRules_held (c : CameraManager σ δ τ ρ) : c.injectRules.held = c.held := by
  unfold injectRules held
  cases c.pipeline <;> rfl

omit [IVideoSource σ] [ITracker τ] [TrackerFactory τ] [IRule ρ] [RuleFactory ρ] in
@[simp] theorem bindPresentedCallback_held (c : CameraManager σ δ τ ρ) :
    c.bindPresentedCallback.held = c.held := by
  unfold bindPresentedCallback held
  cases c.pipeline <;> rfl

omit [IVideoSource σ] [ITracker τ] [TrackerFactory τ] [IRule ρ] [RuleFactory ρ] in
@[simp] theorem setMode_held (c : CameraManager σ δ τ ρ) (mode : DetectionMode) :
    (c.setMode mode).held = c.held.map (fun _ => mode) := by
  unfold setMode held
  cases c.pipeline <;> rfl

omit [IVideoSource σ] [ITracker τ] [TrackerFactory τ] in
@[simp] theorem assembleFromPlugins_held [TrackerFactory τ] (c : CameraManager σ δ τ ρ)
    (scanned : PluginManager δ) (source : Option σ) :
    (c.assembleFromPlugins scanned source).held = some .face := by
  unfold assembleFromPlugins
  rw [injectRules_held]
  rfl

/-- A camera manager as one of its constructors leaves it. -/
inductive Constructed : CameraManager σ δ τ ρ → Prop where
  | source (modelDir : String) (inference : InferenceSelection) (scanned : PluginManager δ)
      (source : Option σ) : Constructed (ofSource modelDir inference scanned source)
  | pipeline (modelDir : String) (inference : InferenceSelection)
      (pipeline : Option (VisionPipeline σ δ τ ρ)) :
      Constructed (ofPipeline modelDir inference pipeline)

omit [IVideoSource σ] [ITracker τ] in
theorem Constructed.held_face {c : CameraManager σ δ τ ρ} (h : c.Constructed) :
    c.held = none ∨ c.held = some .face := by
  cases h with
  | source modelDir inference scanned source => exact Or.inr (assembleFromPlugins_held _ _ _)
  | pipeline modelDir inference pipeline =>
    cases pipeline with
    | none => exact Or.inl rfl
    | some p => exact Or.inr rfl

omit [TrackerFactory τ] [RuleFactory ρ] in
theorem startPipeline_held (c : CameraManager σ δ τ ρ) {p : VisionPipeline σ δ τ ρ}
    (here : c.pipeline = some p) : (c.startPipeline p).camera.held = c.held := by
  have before : c.held = some p.mode := by rw [held, here]; rfl
  have kept := p.start_mode
  unfold startPipeline
  split
  · rfl
  all_goals
    rename_i started
    rw [before]
    exact congrArg some (kept _ (by rw [started]; rfl))

omit [TrackerFactory τ] in
@[simp] theorem start_held (c : CameraManager σ δ τ ρ) : c.start.camera.held = c.held := by
  unfold start
  split
  · rfl
  · split
    · rfl
    · split
      · exact injectRules_held c
      · rename_i here
        rw [startPipeline_held _ here, injectRules_held]

omit [ITracker τ] [TrackerFactory τ] [IRule ρ] [RuleFactory ρ] in
@[simp] theorem stop_held (c : CameraManager σ δ τ ρ) : c.stop.2.held = c.held := by
  unfold stop
  split
  · rfl
  · rename_i p here
    split
    · rfl
    · rw [held, held, here]
      rfl

omit [IVideoSource σ] [ITracker τ] [TrackerFactory τ] in
@[simp] theorem applyRuleSpecs_held (specs : List RuleSpec) (c : CameraManager σ δ τ ρ) :
    (c.applyRuleSpecs specs).2.held = c.held := by
  unfold applyRuleSpecs
  split
  · rfl
  · split
    · rfl
    · unfold held
      cases c.pipeline <;> rfl

/-- A settings change goes through: the pipeline is stopped and owns its source, and the plugins
found yield a detector unless there was none before. -/
def accepts (scanned : PluginManager δ) (settings : SessionSettings) (c : CameraManager σ δ τ ρ) :
    Bool :=
  match c.pipeline with
  | none => false
  | some p =>
    !p.running && p.source.isSome &&
      (anyDetector (assembled (request c.modelDir settings) scanned).2 || !p.hasDetectors)

omit [IVideoSource σ] [ITracker τ] in
theorem assembleFromPlugins_hasDetectors (c : CameraManager σ δ τ ρ) (scanned : PluginManager δ)
    (source : Option σ) : (c.assembleFromPlugins scanned source).hasDetectors =
      anyDetector (assembled (request c.modelDir c.session) scanned).2 := rfl

omit [IVideoSource σ] [ITracker τ] in
/-- A settings change that goes through leaves the first mode; one that fails, the old mode. -/
theorem applySessionSettings_held (scanned : PluginManager δ) (settings : SessionSettings)
    (c : CameraManager σ δ τ ρ) :
    (c.applySessionSettings scanned settings).1 = c.accepts scanned settings ∧
    (c.applySessionSettings scanned settings).2.held =
      if c.accepts scanned settings then some .face else c.held := by
  unfold applySessionSettings accepts
  cases here : c.pipeline with
  | none => exact ⟨rfl, by simp [held, here]⟩
  | some backup =>
    have before : c.held = some backup.mode := by rw [held, here]; rfl
    by_cases running : backup.running = true
    · simp [running]
    · have stopped : backup.running = false := by simpa using running
      cases owned : backup.source with
      | none => simp [stopped, owned, VisionPipeline.releaseSource, held, here]
      | some source =>
        have rebuilt := assembleFromPlugins_hasDetectors
          ({ c with session := settings } : CameraManager σ δ τ ρ) scanned (some source)
        rw [here] at rebuilt
        simp only [stopped, owned, VisionPipeline.releaseSource, Bool.false_eq_true, if_false,
          rebuilt]
        cases anyDetector (assembled (request c.modelDir settings) scanned).2 with
        | true => simp
        | false =>
          cases backup.hasDetectors with
          | false => simp
          | true =>
            simp only [Bool.not_false, Bool.and_self, if_true, bindPresentedCallback_held,
              injectRules_held, before, VisionPipeline.adoptSource]
            simp [held]

end CameraManager

end VisionLab
