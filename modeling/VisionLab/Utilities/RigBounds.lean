import VisionLab.Pipeline.SessionBounds
import VisionLab.Utilities.Screen

/-! The program does not grow. However long it runs and whatever is called, what it holds stays below
bounds that depend on how much the detectors find in one frame and on nothing else. -/
namespace VisionLab

variable {σ δ κ : Type} {finds : ℕ}

namespace CameraManager

structure Compact (finds : ℕ) (c : CameraManager σ δ (ByteTrackTracker κ) Rule) : Prop where
  pipeline : ∀ p, c.pipeline = some p → p.Compact {} finds
  detections : c.detections.length ≤ finds
  tracks : c.tracks.length ≤ trackRoom {} finds

theorem notifyFrame_compact {c : CameraManager σ δ (ByteTrackTracker κ) Rule} (h : c.Compact finds) :
    c.notifyFrame.1.Compact finds := by
  unfold notifyFrame
  split
  · exact h
  · rename_i presented shown
    unfold CameraManager.shown at shown
    split at shown
    · cases shown
    · rename_i p here
      split at shown
      · cases shown
      · obtain ⟨latest, -⟩ := Option.filter_eq_some_iff.mp shown
        have compact := (h.pipeline p here).latest presented latest
        exact ⟨h.pipeline, compact.detections, compact.tracks⟩

variable [PointPolygonTest]

theorem Compact.adjusted {c after : CameraManager σ δ (ByteTrackTracker κ) Rule}
    (h : c.Compact finds) (adjusted : Adjusted c after) : after.Compact finds := by
  refine ⟨?_, adjusted.detections ▸ h.detections, adjusted.tracks ▸ h.tracks⟩
  intro q there
  obtain ⟨p, here, changed⟩ := adjusted.before there
  have held := h.pipeline p here
  rw [changed.same]
  refine ⟨held.configured, held.tracker, ?_, held.log, held.latest⟩
  intro rules carried
  simp only at carried
  rcases changed.rules with kept | ⟨specs, filled⟩
  · exact held.rules rules (kept ▸ carried)
  · rw [filled] at carried
    obtain ⟨before, -, rfl⟩ := Option.map_eq_some_iff.mp carried
    exact RuleEngine.fill_compact specs _

theorem assembled_compact {c : CameraManager σ δ (ByteTrackTracker κ) Rule}
    (detections : c.detections.length ≤ finds) (tracks : c.tracks.length ≤ trackRoom {} finds)
    (scanned : PluginManager δ) (source : Option σ) :
    (c.assembleFromPlugins scanned source).Compact finds := by
  refine ⟨?_, detections, tracks⟩
  rintro p ⟨⟩
  refine ⟨?_, ?_, ?_, rfl, ?_⟩
  · intro tracker there
    simp only [VisionPipeline.setMode] at there
    split at there <;> cases there
    rfl
  · intro tracker there
    simp only [VisionPipeline.setMode] at there
    split at there <;> cases there
    exact ByteTrackTracker.compact_of_empty rfl finds
  · rintro rules ⟨⟩
    exact RuleEngine.fill_compact c.ruleSpecs _
  · rintro presented ⟨⟩

theorem applySessionSettings_compact {c : CameraManager σ δ (ByteTrackTracker κ) Rule}
    (h : c.Compact finds) (scanned : PluginManager δ) (settings : SessionSettings) :
    (c.applySessionSettings scanned settings).2.Compact finds := by
  have spec := applySessionSettings_cases scanned settings c
  generalize c.applySessionSettings scanned settings = result at spec ⊢
  cases spec with
  | refused => exact h
  | rolledBack plugins stopped => exact h.adjusted (rolledBack_adjusted c plugins)
  | rebuilt source =>
    have assembled := assembled_compact (c := { c with session := settings }) h.detections h.tracks
      scanned (some source)
    exact assembled.adjusted (bindPresentedCallback_adjusted _)

variable [IVideoSource σ] [KalmanBoxFilter κ]

theorem startPipeline_compact {c : CameraManager σ δ (ByteTrackTracker κ) Rule} (h : c.Compact finds)
    {p : VisionPipeline σ δ (ByteTrackTracker κ) Rule} (compact : p.Compact {} finds) :
    (c.startPipeline p).camera.Compact finds ∧
      ∀ s, (c.startPipeline p).session = some s → s.Compact {} finds := by
  have left : ∀ after : VisionPipeline σ δ (ByteTrackTracker κ) Rule,
      p.start.pipeline = some after → ({ c with pipeline := some after } :
        CameraManager σ δ (ByteTrackTracker κ) Rule).Compact finds := by
    intro after ended
    refine ⟨?_, h.detections, h.tracks⟩
    rintro q ⟨⟩
    exact VisionPipeline.start_compact compact ended
  unfold startPipeline
  split
  · exact ⟨h, by simp⟩
  · rename_i q started
    exact ⟨left q (by rw [started]; rfl), by simp⟩
  · rename_i what q started
    exact ⟨left q (by rw [started]; rfl), by simp⟩
  · rename_i s started
    have ended := left s.pipeline (by rw [started]; rfl)
    refine ⟨⟨ended.pipeline, ended.detections, ended.tracks⟩, ?_⟩
    rintro t ⟨⟩
    exact Session.start_compact compact started

theorem start_compact {c : CameraManager σ δ (ByteTrackTracker κ) Rule} (h : c.Compact finds) :
    c.start.camera.Compact finds ∧
      ∀ s, c.start.session = some s → s.Compact {} finds := by
  have filled := h.adjusted (injectRules_adjusted c c.ruleSpecs)
  have cases_ := c.start_cases
  generalize c.start = outcome at cases_ ⊢
  cases cases_ with
  | stays => exact ⟨h, by simp⟩
  | @begins p _ _ loaded => exact startPipeline_compact filled (filled.pipeline p loaded)

end CameraManager

namespace Rig

structure Compact (finds : ℕ) (r : Rig σ δ (ByteTrackTracker κ) Rule) : Prop where
  camera : r.view.Compact finds
  session : ∀ s, r.live = some s → s.Compact {} finds

variable [IVideoSource σ] [IDetector δ] [KalmanBoxFilter κ] [PointPolygonTest]

theorem work_compact (few : FindsFew δ finds) {r : Rig σ δ (ByteTrackTracker κ) Rule}
    (h : r.Compact finds) (draw : Renderers) (label : Label) :
    (r.work draw label).Compact finds := by
  cases live : r.live with
  | none =>
    obtain ⟨camera, idle⟩ := r
    obtain rfl : idle = none := live
    exact h
  | some s =>
    have compact := Session.step_compact few (h.session s live) draw label
    have view : (r.work draw label).view =
        { r.view with pipeline := some (s.step draw label).pipeline } := by
      simp [work, Rig.view, live]
    refine ⟨?_, ?_⟩
    · rw [view]
      refine ⟨?_, h.camera.detections, h.camera.tracks⟩
      rintro p ⟨⟩
      exact compact.pipeline
    · intro t there
      have after : s.step draw label = t := by simpa [work, live] using there
      exact after ▸ compact

omit [IVideoSource σ] [IDetector δ] [KalmanBoxFilter κ] [PointPolygonTest] in
theorem settle_compact {r : Rig σ δ (ByteTrackTracker κ) Rule} (h : r.Compact finds) :
    r.settle.Compact finds := by
  unfold settle
  split
  · exact h
  · split
    · refine ⟨⟨h.camera.pipeline, Nat.zero_le _, Nat.zero_le _⟩, ?_⟩
      rintro t ⟨⟩
    · exact h

omit [IDetector δ] in
theorem call_idle_compact {r : Rig σ δ (ByteTrackTracker κ) Rule} (h : r.Compact finds)
    (live : r.live = none) (move : Move δ) : (r.call move).Compact finds := by
  have left : ∀ camera : CameraManager σ δ (ByteTrackTracker κ) Rule, camera.Compact finds →
      (r.leave camera).Compact finds := by
    intro camera compact
    refine ⟨?_, by simp [leave, live]⟩
    simpa [Rig.view, leave, live] using compact
  cases move with
  | capture now => exact h
  | inference => exact h
  | stop => exact h
  | start =>
    obtain ⟨camera, begun⟩ := CameraManager.start_compact h.camera
    simp only [call]
    split
    · exact left _ camera
    · rename_i s started
      have compact := begun s started
      refine ⟨⟨?_, camera.detections, camera.tracks⟩, ?_⟩
      · rintro p ⟨⟩
        exact compact.pipeline
      · rintro t ⟨⟩
        exact compact
  | setMode mode => exact left _ (h.camera.adjusted (CameraManager.setMode_adjusted _ mode))
  | applySessionSettings scanned settings =>
    exact left _ (CameraManager.applySessionSettings_compact h.camera scanned settings)
  | applyRuleSpecs specs =>
    exact left _ (h.camera.adjusted (CameraManager.applyRuleSpecs_adjusted _ specs))
  | notifyFrame => exact left _ (CameraManager.notifyFrame_compact h.camera)

omit [IDetector δ] in
theorem call_live_compact {r : Rig σ δ (ByteTrackTracker κ) Rule} (h : r.Compact finds)
    (screened : r.Screened) {s : Session σ δ (ByteTrackTracker κ) Rule} (live : r.live = some s)
    (phase : s.stopping = .running) (move : Move δ) : (r.call move).Compact finds := by
  have held := h.session s live
  have here : r.view.pipeline = some s.pipeline := by simp [Rig.view, live]
  have running : r.view.isRunning = true := by
    simp [CameraManager.isRunning, here, (screened.mailbox s live).running, phase]
  have left : ∀ (camera : CameraManager σ δ (ByteTrackTracker κ) Rule)
      (p : VisionPipeline σ δ (ByteTrackTracker κ) Rule), camera.Compact finds →
      camera.pipeline = some p → ({ s with pipeline := p } : Session σ δ _ Rule).Compact {} finds →
      (r.leave camera).Compact finds := by
    intro camera p compact there session
    refine ⟨?_, ?_⟩
    · rwa [leave_view_of_pipeline r there]
    · intro t now
      have after : { s with pipeline := p } = t := by simpa [leave, live, there] using now
      exact after ▸ session
  have calling := r.call_running running move
  generalize r.call move = after at calling ⊢
  cases calling with
  | nothing => exact h
  | refused => exact left r.view s.pipeline h.camera here held
  | moded mode =>
    refine left _ (s.pipeline.setMode mode)
      (h.camera.adjusted (CameraManager.setMode_adjusted _ mode))
      (by simp [CameraManager.setMode, here]) ?_
    exact held.next (held.pipeline.of_eq rfl rfl rfl rfl) rfl rfl rfl rfl
      (fun _ there => held.hand there)
  | notified =>
    refine left _ s.pipeline (CameraManager.notifyFrame_compact h.camera) ?_ held
    unfold CameraManager.notifyFrame
    split <;> exact here

omit [IDetector δ] in
theorem call_compact {r : Rig σ δ (ByteTrackTracker κ) Rule} (h : r.Compact finds)
    (screened : r.Screened) (free : r.free = true) (move : Move δ) :
    (r.call move).Compact finds := by
  cases live : r.live with
  | none => exact call_idle_compact h live move
  | some s =>
    have phase : s.stopping = .running := by simpa [Rig.free, live] using free
    exact call_live_compact h screened live phase move

theorem step_compact (few : FindsFew δ finds) {r : Rig σ δ (ByteTrackTracker κ) Rule}
    (h : r.Compact finds) (screened : r.Screened) (draw : Renderers) (move : Move δ) :
    (r.step draw move).Compact finds := by
  cases move with
  | capture now => exact work_compact few h draw (.capture now)
  | inference => exact work_compact few h draw .inference
  | stop => exact settle_compact (work_compact few h draw .stop)
  | _ =>
    simp only [step]
    split
    · rename_i free
      exact call_compact h screened free _
    · exact h

/-- What is held at a moment, in numbers. -/
structure HoldsLittle (finds : ℕ) (r : Rig σ δ (ByteTrackTracker κ) Rule) : Prop where
  shown : r.view.detections.length ≤ finds ∧ r.view.tracks.length ≤ 31 * finds
  log : r.view.recentEvents.length ≤ 256
  tracks : ∀ p tracker, r.view.pipeline = some p → p.tracker = some tracker →
    tracker.tracks.length ≤ 31 * finds ∧
      ∀ track ∈ tracker.tracks, track.trajectory.length ≤ 30
  rules : ∀ p rules, r.view.pipeline = some p → p.rules = some rules →
    ∀ entry ∈ rules.entries, ∃ ids : Finset ℕ, ids.card ≤ 31 * finds ∧
      ∀ id, entry.rule.Remembers id → id ∈ ids
  queue : ∀ s, r.live = some s → s.queue.queue.size ≤ s.pipeline.queueCapacity
  mailbox : ∀ p presented, r.view.pipeline = some p → p.latest = some presented →
    presented.detections.length ≤ finds ∧ presented.tracks.length ≤ 31 * finds
  brief : ∀ s rules presented, r.live = some s → s.pipeline.rules = some rules →
    s.pipeline.latest = some presented → presented.events.length ≤ rules.size * (31 * finds)

omit [IVideoSource σ] [IDetector δ] [KalmanBoxFilter κ] [PointPolygonTest] in
theorem Compact.holdsLittle {r : Rig σ δ (ByteTrackTracker κ) Rule} (h : r.Compact finds) :
    r.HoldsLittle finds := by
  have room : trackRoom {} finds = 31 * finds := Nat.mul_comm finds 31
  constructor
  case shown => exact ⟨h.camera.detections, room ▸ h.camera.tracks⟩
  case log =>
    unfold CameraManager.recentEvents
    cases here : r.view.pipeline with
    | none => exact Nat.zero_le _
    | some p =>
      have size := p.eventLog.size_le
      rw [(h.camera.pipeline p here).log] at size
      exact size
  case tracks =>
    intro p tracker here there
    have compact := h.camera.pipeline p here
    refine ⟨room ▸ compact.tracks there, ?_⟩
    have short := (compact.tracker tracker there).trajectories
    rwa [compact.configured tracker there] at short
  case rules =>
    intro p rules here there entry member
    exact room ▸ ((h.camera.pipeline p here).rules rules there entry member).few
  case queue =>
    intro s live
    have size := s.queue.queue.size_le
    rw [(h.session s live).queue] at size
    exact size
  case mailbox =>
    intro p presented here latest
    have compact := (h.camera.pipeline p here).latest presented latest
    exact ⟨compact.detections, room ▸ compact.tracks⟩
  case brief =>
    intro s rules presented live here latest
    have said := (h.session s live).brief presented (Or.inr latest)
    simp only [VisionPipeline.ruleCount, here, Option.map_some, Option.getD_some, room] at said
    exact said

/-- Over any number of sessions, changes of the settings and of the rules. -/
theorem holds_little (few : FindsFew δ finds) (draw : Renderers) (modelDir : String)
    (inference : InferenceSelection) (scanned : PluginManager δ) (source : Option σ)
    (moves : List (Move δ)) :
    (run draw { camera := (CameraManager.ofSource modelDir inference scanned source :
      CameraManager σ δ (ByteTrackTracker κ) Rule) } moves).HoldsLittle finds := by
  have first : ({ camera := CameraManager.ofSource modelDir inference scanned source } :
      Rig σ δ (ByteTrackTracker κ) Rule).Compact finds := by
    refine ⟨?_, by simp⟩
    refine CameraManager.Compact.adjusted ?_ (CameraManager.bindPresentedCallback_adjusted _)
    exact CameraManager.assembled_compact (Nat.zero_le _) (Nat.zero_le _) scanned source
  have held := Machine.run_invariant (P := fun r : Rig σ δ (ByteTrackTracker κ) Rule =>
      r.Compact finds ∧ r.Screened) ⟨first, ofSource_screened modelDir inference scanned source⟩
    (fun r move h => ⟨step_compact few h.1 h.2 draw move, (step_screened draw h.2 move).1⟩) moves
  exact held.1.holdsLittle

end Rig

namespace Rig

local instance lineTest : PointPolygonTest := .parity

theorem fake_finds_few : FindsFew FakeDetector 1 := by
  rintro detector packet found given
  cases given
  unfold FakeDetector.detect
  split <;> simp

/-- A session over the fakes with a line, in which a frame is shown. -/
theorem fake_holds_little :
    (run .plain { camera := (CameraManager.ofSource "" {} fakePlugins (some { frameCount := 8 }) :
        CameraManager FakeVideoSource FakeDetector (ByteTrackTracker Rect) Rule) }
      ([.applyRuleSpecs [CameraManager.lineSpec "north" true], .start] ++
        List.replicate 10 (.capture 0) ++ List.replicate 16 .inference ++
        [.notifyFrame, .setMode .object])).HoldsLittle 1 :=
  holds_little fake_finds_few .plain "" {} fakePlugins _ _

end Rig

end VisionLab
