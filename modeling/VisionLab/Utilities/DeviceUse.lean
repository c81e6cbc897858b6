import VisionLab.Pipeline.StopEnds
import VisionLab.Utilities.Screen
import VisionLab.Video.CameraSource

/-! When the camera is on. The pipeline opens the device as its session starts and closes it as it
stops; a start that fails leaves it off, and so does every change of the pipeline between sessions. -/
namespace VisionLab

variable {σ δ τ ρ : Type} [IVideoSource σ] [DeviceSource σ]

namespace VisionPipeline

structure Dark (p : VisionPipeline σ δ τ ρ) : Prop where
  off : ∀ source, p.source = some source → DeviceSource.isOpen source = false
  capacity : 0 < p.queueCapacity

/-- The device of the pipeline is there and on, or there and off. -/
structure Lit (on : Bool) (p : VisionPipeline σ δ τ ρ) : Prop where
  device : p.source.map DeviceSource.isOpen = some on
  capacity : 0 < p.queueCapacity

theorem Lit.dark {p : VisionPipeline σ δ τ ρ} (h : Lit false p) : Dark p := by
  refine ⟨?_, h.capacity⟩
  intro source there
  simpa [there] using h.device

theorem Dark.of_eq {p after : VisionPipeline σ δ τ ρ} (h : Dark p) (source : after.source = p.source)
    (capacity : after.queueCapacity = p.queueCapacity) : Dark after :=
  ⟨source ▸ h.off, capacity ▸ h.capacity⟩

theorem Lit.of_eq {on : Bool} {p after : VisionPipeline σ δ τ ρ} (h : Lit on p)
    (source : after.source = p.source) (capacity : after.queueCapacity = p.queueCapacity) :
    Lit on after := ⟨source ▸ h.device, capacity ▸ h.capacity⟩

/-- How a start may end: the device is left off, or a session has it on. -/
inductive Begun : StartResult σ δ τ ρ → Prop where
  | already : Begun .already
  | refused {after : VisionPipeline σ δ τ ρ} (dark : Dark after) : Begun (.refused after)
  | started {s : Session σ δ τ ρ} (lit : Lit true s.pipeline) (phase : s.stopping = .running) :
      Begun (.started s)

theorem start_begun [ITracker τ] [IRule ρ] {p : VisionPipeline σ δ τ ρ} (h : Dark p) :
    Begun p.start := by
  unfold start
  split
  · exact .already
  · split
    · exact .refused h
    · rename_i source there
      simp only
      split
      · rename_i failed
        refine .refused ⟨?_, h.capacity⟩
        rintro _ ⟨⟩
        exact DeviceSource.refused source (h.off source there) (by simpa using failed)
      · rename_i opened
        have made : BoundedQueue.new (α := FramePacket) p.queueCapacity .dropOldest =
            .ok (.empty p.queueCapacity .dropOldest h.capacity) := by
          unfold BoundedQueue.new
          rw [dif_neg (Nat.ne_of_gt h.capacity)]
        simp only [made]
        refine .started ⟨?_, h.capacity⟩ rfl
        simp [cleared, DeviceSource.opened source (by simpa using opened)]

end VisionPipeline

open VisionPipeline

namespace Session

def deviceOn (s : Session σ δ τ ρ) : Bool := decide (s.stopping.progress < 4)

theorem captureStep_lit {s : Session σ δ τ ρ} (h : Lit s.deviceOn s.pipeline) (now : TimePoint) :
    Lit (s.captureStep now).deviceOn (s.captureStep now).pipeline := by
  have kept := s.pipeline.readSource_snd
  unfold captureStep
  split
  case h_2 =>
    have device := h.device
    have reading : (s.pipeline.source.map (fun source => (IVideoSource.read source).2)).map
        DeviceSource.isOpen = some s.deviceOn := by
      rw [← device]
      simp [Option.map_map, Function.comp_def, DeviceSource.read]
    split
    all_goals
      rename_i read
      rw [read] at kept
      subst kept
      exact ⟨reading, h.capacity⟩
  all_goals exact h.of_eq rfl rfl

theorem stopStep_lit {s : Session σ δ τ ρ} (h : Lit s.deviceOn s.pipeline) :
    Lit s.stopStep.deviceOn s.stopStep.pipeline := by
  unfold stopStep
  cases phase : s.stopping with
  | inferenceStopped =>
    refine ⟨?_, h.capacity⟩
    have device := h.device
    cases there : s.pipeline.source with
    | none => simp [there] at device
    | some source => simp [deviceOn, StopPhase.progress, DeviceSource.closed]
  | queueClosed =>
    simp only
    split
    · simpa [deviceOn, phase, StopPhase.progress] using h
    · exact h
  | joined => exact h
  | _ =>
    simp only [deviceOn, phase, StopPhase.progress] at h ⊢
    exact h.of_eq rfl rfl

variable [IDetector δ] [ITracker τ] [IRule ρ]

omit [DeviceSource σ] [IVideoSource σ] in
theorem inferenceStep_source (draw : Renderers) (s : Session σ δ τ ρ) :
    (s.inferenceStep draw).pipeline.source = s.pipeline.source ∧
      (s.inferenceStep draw).pipeline.queueCapacity = s.pipeline.queueCapacity := by
  unfold inferenceStep
  split
  case h_5 f _ =>
    unfold readModeStep
    simp only
    split <;> exact ⟨rfl, rfl⟩
  case h_6 f _ =>
    unfold trackStep
    split <;> exact ⟨rfl, rfl⟩
  case h_8 f _ =>
    unfold rulesStep
    split <;> exact ⟨rfl, rfl⟩
  all_goals exact ⟨rfl, rfl⟩

theorem step_lit {s : Session σ δ τ ρ} (h : Lit s.deviceOn s.pipeline) (draw : Renderers)
    (label : Label) : Lit (s.step draw label).deviceOn (s.step draw label).pipeline := by
  cases label with
  | capture now => exact captureStep_lit h now
  | inference =>
    obtain ⟨source, capacity⟩ := inferenceStep_source draw s
    have phase := (inferenceStep_flags draw s).stopping
    have same : (s.inferenceStep draw).deviceOn = s.deviceOn := by rw [deviceOn, phase, deviceOn]
    rw [step, same]
    exact h.of_eq source capacity
  | setMode mode => exact h.of_eq rfl rfl
  | stop => exact stopStep_lit h

end Session

namespace CameraManager

def Dark (c : CameraManager σ δ τ ρ) : Prop := ∀ p, c.pipeline = some p → VisionPipeline.Dark p

variable [IRule ρ] [RuleFactory ρ]

theorem Dark.adjusted {c after : CameraManager σ δ τ ρ} (h : c.Dark) (adjusted : Adjusted c after) :
    after.Dark := by
  intro q there
  obtain ⟨p, here, changed⟩ := adjusted.before there
  rw [changed.same]
  exact (h p here).of_eq rfl rfl

theorem assembled_dark [TrackerFactory τ] (c : CameraManager σ δ τ ρ) (scanned : PluginManager δ)
    {source : Option σ} (off : ∀ s, source = some s → DeviceSource.isOpen s = false) :
    (c.assembleFromPlugins scanned source).Dark := by
  rintro p ⟨⟩
  exact ⟨off, Nat.succ_pos 1⟩

theorem applySessionSettings_dark [TrackerFactory τ] {c : CameraManager σ δ τ ρ} (h : c.Dark)
    (scanned : PluginManager δ) (settings : SessionSettings) :
    (c.applySessionSettings scanned settings).2.Dark := by
  have applied : (c.applySessionSettings scanned settings).1 = true →
      (c.applySessionSettings scanned settings).2.Dark := by
    intro succeeds
    unfold applySessionSettings at succeeds ⊢
    split at succeeds
    · cases succeeds
    · rename_i backup here
      split at succeeds
      · cases succeeds
      · rename_i stopped
        rw [if_neg stopped]
        split at succeeds
        · cases succeeds
        · rename_i source released owned
          simp only [VisionPipeline.releaseSource, if_neg stopped, Prod.mk.injEq] at owned
          have off : ∀ s, some source = some s → DeviceSource.isOpen s = false := by
            rintro s ⟨⟩
            exact (h backup here).off source owned.1
          simp only at succeeds ⊢
          split at succeeds
          · cases succeeds
          · rename_i goes
            rw [if_neg goes]
            exact (assembled_dark _ scanned off).adjusted (bindPresentedCallback_adjusted _)
  have spec := applySessionSettings_cases scanned settings c
  generalize c.applySessionSettings scanned settings = result at spec applied ⊢
  cases spec with
  | refused => exact h
  | rolledBack plugins stopped => exact h.adjusted (rolledBack_adjusted c plugins)
  | rebuilt source => exact applied rfl

theorem start_dark [ITracker τ] {c : CameraManager σ δ τ ρ} (h : c.Dark) :
    (c.start.session = none → c.start.camera.Dark) ∧
      ∀ s, c.start.session = some s → Lit true s.pipeline ∧ s.stopping = .running := by
  have begins : ∀ (d : CameraManager σ δ τ ρ) (p : VisionPipeline σ δ τ ρ), d.Dark →
      VisionPipeline.Dark p →
      ((d.startPipeline p).session = none → (d.startPipeline p).camera.Dark) ∧
        ∀ s, (d.startPipeline p).session = some s →
          Lit true s.pipeline ∧ s.stopping = .running := by
    intro d p held dark
    have begun := start_begun dark
    unfold startPipeline
    cases result : p.start with
    | already => exact ⟨fun _ => held, by simp⟩
    | refused after =>
      rw [result] at begun
      cases begun with
      | refused dark =>
        refine ⟨fun _ => ?_, by simp⟩
        rintro q ⟨⟩
        exact dark
    | threw what after =>
      rw [result] at begun
      nomatch begun
    | started s =>
      rw [result] at begun
      cases begun with
      | started lit phase =>
        refine ⟨(fun gone => by cases gone), ?_⟩
        rintro t ⟨⟩
        exact ⟨lit, phase⟩
  have filled := h.adjusted (injectRules_adjusted c c.ruleSpecs)
  have cases_ := c.start_cases
  generalize c.start = outcome at cases_ ⊢
  cases cases_ with
  | stays => exact ⟨fun _ => h, by simp⟩
  | @begins p _ _ loaded => exact begins c.injectRules p filled (filled p loaded)

end CameraManager

namespace Rig

/-- The device of the camera is on while a session runs, up to where `stop` closes it, and off
otherwise. -/
structure Powered (r : Rig σ δ τ ρ) : Prop where
  off : r.live = none → r.camera.Dark
  on : ∀ s, r.live = some s → Lit s.deviceOn s.pipeline

variable [IDetector δ] [ITracker τ] [TrackerFactory τ] [IRule ρ] [RuleFactory ρ]

omit [TrackerFactory τ] [RuleFactory ρ] in
theorem work_powered {r : Rig σ δ τ ρ} (h : r.Powered) (draw : Renderers) (label : Label) :
    (r.work draw label).Powered := by
  constructor
  · intro gone
    refine h.off ?_
    simpa [work] using gone
  · intro t there
    obtain ⟨s, live, rfl⟩ := Option.map_eq_some_iff.mp there
    exact Session.step_lit (h.on s live) draw label

omit [IDetector δ] [ITracker τ] [TrackerFactory τ] [IRule ρ] [RuleFactory ρ] in
theorem settle_powered {r : Rig σ δ τ ρ} (h : r.Powered) : r.settle.Powered := by
  unfold settle
  split
  · exact h
  · rename_i s live
    split
    · rename_i phase
      constructor
      · intro _ p here
        have lit := h.on s live
        have same : s.pipeline = p := by simpa [view, live] using here
        simp only [Session.deviceOn, phase, StopPhase.progress] at lit
        exact same ▸ lit.dark
      · intro t there
        cases there
    · exact h

omit [IDetector δ] in
theorem call_powered {r : Rig σ δ τ ρ} (h : r.Powered) (screened : r.Screened)
    (free : r.free = true) (move : Move δ) : (r.call move).Powered := by
  cases live : r.live with
  | none =>
    have view : r.view = r.camera := by simp [view, live]
    have dark := h.off live
    have left : ∀ camera : CameraManager σ δ τ ρ, camera.Dark → (r.leave camera).Powered :=
      fun camera held => ⟨fun _ => held, by simp [leave, live]⟩
    cases move with
    | capture now => exact h
    | inference => exact h
    | stop => exact h
    | start =>
      obtain ⟨refused, begun⟩ := CameraManager.start_dark dark
      simp only [call, view]
      split
      · rename_i none
        exact left _ (refused none)
      · rename_i s started
        obtain ⟨lit, phase⟩ := begun s started
        refine ⟨(fun gone => by cases gone), ?_⟩
        rintro t ⟨⟩
        simpa [Session.deviceOn, phase, StopPhase.progress] using lit
    | setMode mode => exact left _ (view ▸ dark.adjusted (CameraManager.setMode_adjusted _ mode))
    | applySessionSettings scanned settings =>
      exact left _ (view ▸ CameraManager.applySessionSettings_dark dark scanned settings)
    | applyRuleSpecs specs =>
      exact left _ (view ▸ dark.adjusted (CameraManager.applyRuleSpecs_adjusted _ specs))
    | notifyFrame =>
      refine left _ ?_
      rw [view]
      unfold CameraManager.notifyFrame
      split <;> exact dark
  | some s =>
    have phase : s.stopping = .running := by simpa [Rig.free, live] using free
    have lit := h.on s live
    have here : r.view.pipeline = some s.pipeline := by simp [view, live]
    have running : r.view.isRunning = true := by
      simp [CameraManager.isRunning, here, (screened.mailbox s live).running, phase]
    have left : ∀ (camera : CameraManager σ δ τ ρ) (p : VisionPipeline σ δ τ ρ),
        camera.pipeline = some p → p.source = s.pipeline.source →
        p.queueCapacity = s.pipeline.queueCapacity → (r.leave camera).Powered := by
      intro camera p there source capacity
      refine ⟨by simp [leave, live], ?_⟩
      intro t now
      have after : { s with pipeline := p } = t := by simpa [leave, live, there] using now
      rw [← after]
      exact lit.of_eq source capacity
    have calling := r.call_running running move
    generalize r.call move = after at calling ⊢
    cases calling with
    | nothing => exact h
    | refused => exact left r.view s.pipeline here rfl rfl
    | moded mode =>
      exact left _ (s.pipeline.setMode mode) (by simp [CameraManager.setMode, here]) rfl rfl
    | notified =>
      refine left _ s.pipeline ?_ rfl rfl
      unfold CameraManager.notifyFrame
      split <;> exact here

theorem step_powered (draw : Renderers) {r : Rig σ δ τ ρ} (h : r.Powered) (screened : r.Screened)
    (move : Move δ) : (r.step draw move).Powered := by
  cases move with
  | capture now => exact work_powered h draw (.capture now)
  | inference => exact work_powered h draw .inference
  | stop => exact settle_powered (work_powered h draw .stop)
  | _ =>
    simp only [step]
    split
    · rename_i free
      exact call_powered h screened free _
    · exact h

/-- At every moment of every run that begins with the device off. -/
theorem device_follows_session (draw : Renderers) (modelDir : String)
    (inference : InferenceSelection) (scanned : PluginManager δ) (source : Option σ)
    (off : ∀ s, source = some s → DeviceSource.isOpen s = false) (moves : List (Move δ)) :
    (run draw { camera := (CameraManager.ofSource modelDir inference scanned source :
      CameraManager σ δ τ ρ) } moves).Powered := by
  have first : ({ camera := CameraManager.ofSource modelDir inference scanned source } :
      Rig σ δ τ ρ).Powered :=
    ⟨fun _ => (CameraManager.assembled_dark _ scanned off).adjusted
      (CameraManager.bindPresentedCallback_adjusted _), by simp⟩
  exact (Machine.run_invariant (P := fun r : Rig σ δ τ ρ => r.Powered ∧ r.Screened)
    ⟨first, ofSource_screened modelDir inference scanned source⟩
    (fun r move h => ⟨step_powered draw h.1 h.2 move, (step_screened draw h.2 move).1⟩) moves).1

/-- A camera that is started, shows a frame and is stopped, with a change of settings after. -/
theorem pixel_device_follows_session :
    (run .plain { camera := (CameraManager.ofSource "models" {} fakePlugins
        (some { capture := ({} : PixelCapture) }) :
          CameraManager (CameraSource PixelCapture) FakeDetector FakeTracker FakeRule) }
      ([.start] ++ List.replicate 10 (.capture 0) ++ List.replicate 16 .inference ++
        [.notifyFrame, .stop, .stop, .stop, .stop, .capture 1, .stop, .inference, .stop,
          .applySessionSettings fakePlugins { trackingEnabled := false }])).Powered :=
  device_follows_session .plain "models" {} fakePlugins _ (by rintro s ⟨⟩; rfl) _

end Rig

end VisionLab
