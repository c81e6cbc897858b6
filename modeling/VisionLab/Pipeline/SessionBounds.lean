import VisionLab.Analytics.RuleBounds
import VisionLab.Pipeline.VisionPipeline
import VisionLab.Tracking.TrackBounds

/-! How much a session holds. Detectors that find little in a frame keep the tracker small, the
tracker keeps the rules small, and everything that lies between two threads has a capacity. -/
namespace VisionLab

/-- No detector finds more than so many things in a frame. -/
def FindsFew (δ : Type) [IDetector δ] (finds : ℕ) : Prop :=
  ∀ (detector : δ) packet found, (IDetector.detect detector packet).1 = .ok found →
    found.length ≤ finds

theorem InferenceWorker.detect_few {δ : Type} [IDetector δ] {finds : ℕ} (few : FindsFew δ finds)
    (detector : Option δ) (packet : FramePacket) :
    (InferenceWorker.detect detector packet).1.length ≤ finds := by
  unfold InferenceWorker.detect
  cases detector with
  | none => exact Nat.zero_le _
  | some detector =>
    simp only
    split
    · split
      · rename_i found after given
        exact few detector packet found (by rw [given])
      · exact Nat.zero_le _
    · exact Nat.zero_le _

def trackRoom (config : TrackerConfig) (finds : ℕ) : ℕ :=
  finds * (config.maxLostFrames.toNat + 1)

structure PresentedFrame.Compact (finds tracks : ℕ) (presented : PresentedFrame) : Prop where
  detections : presented.detections.length ≤ finds
  tracks : presented.tracks.length ≤ tracks

def InferenceState.presented? : InferenceState → Option PresentedFrame
  | .provide f | .detect f | .readMode f | .track f | .tracked f | .rules f | .log f | .ruled f
  | .render f | .publish f => some f.presented
  | _ => none

variable {σ δ κ : Type}

namespace VisionPipeline

/-- The tracker and each of the rules keep few tracks, the log of the events is short, and so are
the lists of the frame in the mailbox. -/
structure Compact (config : TrackerConfig) (finds : ℕ)
    (p : VisionPipeline σ δ (ByteTrackTracker κ) Rule) : Prop where
  configured : ∀ tracker, p.tracker = some tracker → tracker.config = config
  tracker : ∀ tracker, p.tracker = some tracker → tracker.Compact finds
  rules : ∀ rules, p.rules = some rules → rules.Compact (trackRoom config finds)
  log : p.eventLog.capacity = 256
  latest : ∀ presented, p.latest = some presented →
    presented.Compact finds (trackRoom config finds)

def ruleCount (p : VisionPipeline σ δ (ByteTrackTracker κ) Rule) : ℕ :=
  (p.rules.map RuleEngine.size).getD 0

variable {config : TrackerConfig} {finds : ℕ}

theorem Compact.of_eq {p after : VisionPipeline σ δ (ByteTrackTracker κ) Rule}
    (h : p.Compact config finds) (tracker : after.tracker = p.tracker)
    (rules : after.rules = p.rules) (log : after.eventLog = p.eventLog)
    (latest : after.latest = p.latest) : after.Compact config finds :=
  ⟨tracker ▸ h.configured, tracker ▸ h.tracker, rules ▸ h.rules, log ▸ h.log, latest ▸ h.latest⟩

theorem Compact.tracks {p : VisionPipeline σ δ (ByteTrackTracker κ) Rule}
    (h : p.Compact config finds) {tracker : ByteTrackTracker κ} (here : p.tracker = some tracker) :
    tracker.tracks.length ≤ trackRoom config finds := by
  have few := (h.tracker tracker here).length_le
  rwa [h.configured tracker here] at few

variable [IVideoSource σ] [KalmanBoxFilter κ] [PointPolygonTest]

omit [IVideoSource σ] in
theorem resetStages_compact {p : VisionPipeline σ δ (ByteTrackTracker κ) Rule}
    (h : p.Compact config finds) : p.resetStages.Compact config finds := by
  refine ⟨?_, ?_, ?_, h.log, h.latest⟩
  · intro tracker there
    obtain ⟨before, here, rfl⟩ := Option.map_eq_some_iff.mp there
    exact h.configured before here
  · intro tracker there
    obtain ⟨before, -, rfl⟩ := Option.map_eq_some_iff.mp there
    exact ByteTrackTracker.compact_of_empty rfl finds
  · intro rules there
    obtain ⟨before, -, rfl⟩ := Option.map_eq_some_iff.mp there
    exact (before.reset_compact _).1

omit [IVideoSource σ] in
theorem resetStages_ruleCount (p : VisionPipeline σ δ (ByteTrackTracker κ) Rule) :
    p.resetStages.ruleCount = p.ruleCount := by
  unfold ruleCount resetStages
  cases p.rules with
  | none => rfl
  | some rules => exact (rules.reset_compact 0).2

theorem start_compact {p after : VisionPipeline σ δ (ByteTrackTracker κ) Rule}
    (h : p.Compact config finds) (left : p.start.pipeline = some after) :
    after.Compact config finds := by
  have cleared : ∀ q : VisionPipeline σ δ (ByteTrackTracker κ) Rule, q.Compact config finds →
      q.cleared.Compact config finds := by
    intro q held
    have reset := resetStages_compact held
    exact ⟨reset.configured, reset.tracker, reset.rules, held.log, by simp [VisionPipeline.cleared]⟩
  unfold start at left
  split at left
  · cases left
  · split at left
    · cases left
      exact h
    · rename_i source there
      have opened : ∀ source : σ, ({ p with source := some source } :
          VisionPipeline σ δ (ByteTrackTracker κ) Rule).Compact config finds :=
        fun source => h.of_eq rfl rfl rfl rfl
      simp only at left
      split at left
      · cases left
        exact opened _
      · split at left
        · cases left
          exact cleared _ (opened _)
        · cases left
          exact (cleared _ (opened _)).of_eq rfl rfl rfl rfl

end VisionPipeline

namespace Session

/-- The queue has the capacity of the pipeline, and the frame at hand is as small as the one that
is shown, with at most one event for each rule and each track. -/
structure Compact (config : TrackerConfig) (finds : ℕ)
    (s : Session σ δ (ByteTrackTracker κ) Rule) : Prop where
  pipeline : s.pipeline.Compact config finds
  queue : s.queue.queue.capacity = s.pipeline.queueCapacity
  presented : ∀ presented, s.inference.presented? = some presented →
    presented.Compact finds (trackRoom config finds)
  brief : ∀ presented, s.inference.presented? = some presented ∨ s.pipeline.latest = some presented →
    presented.events.length ≤ s.pipeline.ruleCount * trackRoom config finds

variable {config : TrackerConfig} {finds : ℕ} {s : Session σ δ (ByteTrackTracker κ) Rule}

theorem Compact.next (h : s.Compact config finds) {after : Session σ δ (ByteTrackTracker κ) Rule}
    (pipeline : after.pipeline.Compact config finds)
    (latest : after.pipeline.latest = s.pipeline.latest)
    (rules : after.pipeline.ruleCount = s.pipeline.ruleCount)
    (capacity : after.pipeline.queueCapacity = s.pipeline.queueCapacity)
    (queue : after.queue.queue.capacity = s.queue.queue.capacity)
    (presented : ∀ presented, after.inference.presented? = some presented →
      presented.Compact finds (trackRoom config finds) ∧
        presented.events.length ≤ s.pipeline.ruleCount * trackRoom config finds) :
    after.Compact config finds := by
  refine ⟨pipeline, (queue.trans h.queue).trans capacity.symm,
    fun shown here => (presented shown here).1, ?_⟩
  rintro shown (here | there)
  · rw [rules]
    exact (presented shown here).2
  · rw [rules]
    exact h.brief shown (Or.inr (latest ▸ there))

theorem Compact.hand (h : s.Compact config finds) {presented : PresentedFrame}
    (here : s.inference.presented? = some presented) :
    presented.Compact finds (trackRoom config finds) ∧
      presented.events.length ≤ s.pipeline.ruleCount * trackRoom config finds :=
  ⟨h.presented presented here, h.brief presented (Or.inl here)⟩

theorem queue_capacity {α : Type} (queue : BoundedQueue.Traced α) (op : BoundedQueue.Op α) :
    (queue.step op).queue.capacity = queue.queue.capacity :=
  (BoundedQueue.Traced.run_frame queue [op]).1

variable [IVideoSource σ]

theorem captureStep_compact (h : s.Compact config finds) (now : TimePoint) :
    (s.captureStep now).Compact config finds := by
  have queue : (s.captureStep now).queue.queue.capacity = s.queue.queue.capacity := by
    unfold captureStep
    cases s.capture with
    | read =>
      simp only
      split <;> rfl
    | push packet droppedBefore => exact queue_capacity s.queue (.push packet)
    | _ => rfl
  have same := (captureStep_aside now s).inference
  obtain ⟨_, _, _, _, _, _, _, after⟩ := captureStep_changes now s
  rw [after] at queue same ⊢
  exact h.next (h.pipeline.of_eq rfl rfl rfl rfl) rfl rfl rfl queue (fun _ here => h.hand here)

theorem stopStep_compact (h : s.Compact config finds) : s.stopStep.Compact config finds := by
  have queue : s.stopStep.queue.queue.capacity = s.queue.queue.capacity := by
    unfold stopStep
    split
    case h_5 => exact queue_capacity s.queue .close
    case h_6 => split <;> rfl
    all_goals rfl
  obtain ⟨_, _, _, _, _, _, _, after, -⟩ := stopStep_changes s
  rw [after] at queue ⊢
  exact h.next (h.pipeline.of_eq rfl rfl rfl rfl) rfl rfl rfl queue (fun _ here => h.hand here)

variable [IDetector δ] [KalmanBoxFilter κ] [PointPolygonTest] {f : InFlight}

omit [IVideoSource σ] [KalmanBoxFilter κ] [PointPolygonTest] in
theorem detectStep_compact (few : FindsFew δ finds) (h : s.Compact config finds)
    (here : s.inference = .detect f) : (s.detectStep f).Compact config finds := by
  have shown : s.inference.presented? = some f.presented := by rw [here]; rfl
  obtain ⟨compact, brief⟩ := h.hand shown
  refine h.next (h.pipeline.of_eq rfl rfl rfl rfl) rfl rfl rfl rfl ?_
  rintro presented ⟨⟩
  have found := InferenceWorker.detect_few few (s.pipeline.detectors f.source) f.packet
  exact ⟨⟨found, compact.tracks⟩, brief⟩

omit [IVideoSource σ] [IDetector δ] in
theorem readModeStep_compact (h : s.Compact config finds) (here : s.inference = .readMode f) :
    (s.readModeStep f).Compact config finds := by
  have shown : s.inference.presented? = some f.presented := by rw [here]; rfl
  have hand := h.hand shown
  unfold readModeStep
  split
  · refine h.next (VisionPipeline.resetStages_compact h.pipeline) rfl
      (VisionPipeline.resetStages_ruleCount _) rfl rfl ?_
    rintro presented ⟨⟩
    exact hand
  · refine h.next h.pipeline rfl rfl rfl rfl ?_
    rintro presented ⟨⟩
    exact hand

omit [IVideoSource σ] [IDetector δ] [PointPolygonTest] in
theorem trackStep_compact (h : s.Compact config finds) (here : s.inference = .track f) :
    (s.trackStep f).Compact config finds := by
  have shown : s.inference.presented? = some f.presented := by rw [here]; rfl
  obtain ⟨compact, brief⟩ := h.hand shown
  unfold trackStep
  split
  · refine h.next h.pipeline rfl rfl rfl rfl ?_
    rintro presented ⟨⟩
    exact ⟨compact, brief⟩
  · rename_i tracker there
    have updated := ByteTrackTracker.update_compact .exact f.presented.detections
      (InferenceWorker.trackContext f.packet) (h.pipeline.tracker tracker there)
      compact.detections
    have same := ByteTrackTracker.update_config .exact tracker f.presented.detections
      (InferenceWorker.trackContext f.packet)
    have pipeline : ({ s.pipeline with tracker := some (InferenceWorker.track tracker f).2 } :
        VisionPipeline σ δ (ByteTrackTracker κ) Rule).Compact config finds := by
      refine ⟨?_, ?_, h.pipeline.rules, h.pipeline.log, h.pipeline.latest⟩
      · rintro after ⟨⟩
        exact same.trans (h.pipeline.configured tracker there)
      · rintro after ⟨⟩
        exact updated
    refine h.next pipeline rfl rfl rfl rfl ?_
    rintro presented ⟨⟩
    have room := (ByteTrackTracker.published_length_le _).trans (pipeline.tracks rfl)
    exact ⟨⟨compact.detections, room⟩, brief⟩

omit [IVideoSource σ] [IDetector δ] [KalmanBoxFilter κ] in
theorem rulesStep_compact (h : s.Compact config finds) (here : s.inference = .rules f) :
    (s.rulesStep f).Compact config finds := by
  have shown : s.inference.presented? = some f.presented := by rw [here]; rfl
  obtain ⟨compact, brief⟩ := h.hand shown
  unfold rulesStep
  split
  · refine h.next h.pipeline rfl rfl rfl rfl ?_
    rintro presented ⟨⟩
    exact ⟨compact, brief⟩
  · rename_i rules there
    obtain ⟨kept, size, said⟩ := RuleEngine.evaluate_compact
      (h.pipeline.rules rules there) compact.tracks (InferenceWorker.ruleContext f.packet)
    refine h.next ?_ rfl ?_ rfl rfl ?_
    · refine ⟨h.pipeline.configured, h.pipeline.tracker, ?_, h.pipeline.log, h.pipeline.latest⟩
      rintro after ⟨⟩
      exact kept
    · simp [VisionPipeline.ruleCount, there, size]
    · rintro presented ⟨⟩
      refine ⟨⟨compact.detections, compact.tracks⟩, said.trans ?_⟩
      simp only [VisionPipeline.ruleCount, there, Option.map_some, Option.getD_some]
      exact Nat.mul_le_mul_left _ compact.tracks

omit [IVideoSource σ] in
theorem inferenceStep_compact (few : FindsFew δ finds) (h : s.Compact config finds)
    (draw : Renderers) : (s.inferenceStep draw).Compact config finds := by
  have hand : ∀ presented, s.inference.presented? = some presented →
      presented.Compact finds (trackRoom config finds) ∧
        presented.events.length ≤ s.pipeline.ruleCount * trackRoom config finds :=
    fun _ shown => h.hand shown
  unfold inferenceStep
  cases here : s.inference with
  | pop =>
    refine h.next h.pipeline rfl rfl rfl (queue_capacity s.queue .pop) ?_
    intro presented shown
    simp only at shown
    split at shown
    · cases shown
    · cases shown
    · cases shown
      exact ⟨⟨Nat.zero_le _, Nat.zero_le _⟩, Nat.zero_le _⟩
  | detect f => exact detectStep_compact few h here
  | readMode f => exact readModeStep_compact h here
  | track f => exact trackStep_compact h here
  | rules f => exact rulesStep_compact h here
  | log f =>
    rw [here] at hand
    have log : (s.pipeline.eventLog.push f.presented.events).capacity = 256 :=
      (s.pipeline.eventLog.push_capacity _).trans h.pipeline.log
    exact h.next ⟨h.pipeline.configured, h.pipeline.tracker, h.pipeline.rules, log, h.pipeline.latest⟩
      rfl rfl rfl rfl hand
  | render f =>
    rw [here] at hand
    obtain ⟨compact, brief⟩ := hand f.presented rfl
    refine h.next h.pipeline rfl rfl rfl rfl ?_
    rintro presented ⟨⟩
    unfold InferenceWorker.render
    split
    · exact ⟨compact, brief⟩
    · split
      · exact ⟨⟨compact.detections, compact.tracks⟩, brief⟩
      · exact ⟨compact, brief⟩
  | publish f =>
    rw [here] at hand
    obtain ⟨compact, brief⟩ := hand f.presented rfl
    refine ⟨?_, h.queue, ?_, ?_⟩
    · refine ⟨h.pipeline.configured, h.pipeline.tracker, h.pipeline.rules, h.pipeline.log, ?_⟩
      rintro presented ⟨⟩
      exact compact
    · rintro presented ⟨⟩
    · rintro presented (⟨⟨⟩⟩ | ⟨⟨⟩⟩)
      exact brief
  | loop =>
    refine h.next h.pipeline rfl rfl rfl rfl ?_
    intro presented shown
    simp only at shown
    split at shown <;> cases shown
  | provide f | tracked f | ruled f =>
    rw [here] at hand
    exact h.next (h.pipeline.of_eq rfl rfl rfl rfl) rfl rfl rfl rfl hand
  | done =>
    refine h.next h.pipeline rfl rfl rfl rfl ?_
    simp [here, InferenceState.presented?]
  | _ =>
    refine h.next (h.pipeline.of_eq rfl rfl rfl rfl) rfl rfl rfl rfl ?_
    simp [setStats, InferenceState.presented?]

theorem step_compact (few : FindsFew δ finds) (h : s.Compact config finds) (draw : Renderers)
    (label : Label) : (s.step draw label).Compact config finds := by
  cases label with
  | capture now => exact captureStep_compact h now
  | inference => exact inferenceStep_compact few h draw
  | setMode mode =>
    exact h.next (h.pipeline.of_eq rfl rfl rfl rfl) rfl rfl rfl rfl (fun _ here => h.hand here)
  | stop => exact stopStep_compact h

omit [IDetector δ] in
theorem start_compact {p : VisionPipeline σ δ (ByteTrackTracker κ) Rule}
    {s : Session σ δ (ByteTrackTracker κ) Rule} (h : p.Compact config finds)
    (started : p.start = .started s) : s.Compact config finds := by
  have pipeline : s.pipeline.Compact config finds :=
    VisionPipeline.start_compact h (by rw [started]; rfl)
  obtain ⟨source, positive, rfl⟩ := VisionPipeline.start_started started
  refine ⟨pipeline, rfl, ?_, ?_⟩
  · simp [InferenceState.presented?]
  · simp [InferenceState.presented?, VisionPipeline.cleared]

end Session

end VisionLab
