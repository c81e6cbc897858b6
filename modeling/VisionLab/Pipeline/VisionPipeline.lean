import Mathlib.Logic.Function.Basic
import VisionLab.Core.QueueHistory
import VisionLab.Lib.Machine
import VisionLab.Pipeline.EventLog
import VisionLab.Pipeline.InferenceWorker

/-! The pipeline and one session of it: the capture worker, the inference worker and the thread
that stops them, each advanced by its own steps. A step is one access to what the threads share,
together with the private work up to the next such access. -/
namespace VisionLab

/- An entry of the detector map is never a null pointer here. The callback is only ever set to one
that queues a `notifyFrame`, so whether it is set is all there is to it. -/
structure VisionPipeline (σ δ τ ρ : Type) where
  source : Option σ
  detectors : DetectionMode → Option δ := fun _ => none
  queueCapacity : ℕ := 2
  tracker : Option τ := none
  rules : Option (RuleEngine ρ) := none
  eventLog : EventLog := .new
  latest : Option PresentedFrame := none
  stats : PipelineStats := {}
  mode : DetectionMode := .face
  running : Bool := false
  onPresented : Bool := false

def anyDetector {δ : Type} (detectors : DetectionMode → Option δ) : Bool :=
  [DetectionMode.none, .face, .object, .motion].any (fun mode => (detectors mode).isSome)

/-- Where the capture worker stands, with the local variables it holds there. -/
inductive CaptureState where
  | loop
  | read
  | retry
  | before (packet : FramePacket)
  | push (packet : FramePacket) (droppedBefore : ℕ)
  | captured (droppedBefore : ℕ)
  | after (droppedBefore : ℕ)
  | dropped (count : ℕ)
  | depth
  | setDepth (depth : ℕ)
  | done
  deriving DecidableEq, Repr

/-- Where the inference worker stands, with the local variables it holds there. -/
inductive InferenceState where
  | loop
  | pop
  | provide (f : InFlight)
  | detect (f : InFlight)
  | readMode (f : InFlight)
  | track (f : InFlight)
  | tracked (f : InFlight)
  | rules (f : InFlight)
  | log (f : InFlight)
  | ruled (f : InFlight)
  | render (f : InFlight)
  | publish (f : InFlight)
  | inferred
  | depth
  | setDepth (depth : ℕ)
  | presented
  | done

/-- The thread in `stop`: each phase names the last thing it has done. -/
inductive StopPhase where
  | running | halted | captureStopped | inferenceStopped | sourceClosed | queueClosed | joined
  deriving DecidableEq, Repr

inductive TrackerCall where
  | reset
  | update (source : DetectionMode) (lastMode : Option DetectionMode) (detections : List Detection)
  deriving DecidableEq, Repr

/-- What an observer of the session has seen so far; the program keeps none of it. -/
structure Record where
  published : List PresentedFrame := []
  trackerCalls : List TrackerCall := []
  emitted : List VisionEvent := []
  leftover : List FramePacket := []

structure Session (σ δ τ ρ : Type) where
  pipeline : VisionPipeline σ δ τ ρ
  queue : BoundedQueue.Traced FramePacket
  capture : CaptureState := .loop
  frameId : ℤ := 0
  captureStop : Bool := false
  inference : InferenceState := .loop
  lastMode : Option DetectionMode := none
  inferenceStop : Bool := false
  stopping : StopPhase := .running
  record : Record := {}

/-- How `start` ends. It throws what the constructor of the queue throws. -/
inductive StartResult (σ δ τ ρ : Type) where
  | already
  | refused (pipeline : VisionPipeline σ δ τ ρ)
  | threw (what : String) (pipeline : VisionPipeline σ δ τ ρ)
  | started (session : Session σ δ τ ρ)

def StartResult.pipeline {σ δ τ ρ : Type} : StartResult σ δ τ ρ → Option (VisionPipeline σ δ τ ρ)
  | .already => none
  | .refused p | .threw _ p => some p
  | .started s => some s.pipeline

inductive Label where
  | capture (now : TimePoint)
  | inference
  | setMode (mode : DetectionMode)
  | stop

namespace VisionPipeline

variable {σ δ τ ρ : Type} [IVideoSource σ] [ITracker τ] [IRule ρ]

def setMode (p : VisionPipeline σ δ τ ρ) (mode : DetectionMode) : VisionPipeline σ δ τ ρ :=
  { p with mode := mode }

def recentEvents (p : VisionPipeline σ δ τ ρ) : List VisionEvent := p.eventLog.snapshot

def releaseSource (p : VisionPipeline σ δ τ ρ) : Option σ × VisionPipeline σ δ τ ρ :=
  if p.running then (none, p) else (p.source, { p with source := none })

def adoptSource (p : VisionPipeline σ δ τ ρ) (source : Option σ) : VisionPipeline σ δ τ ρ :=
  if p.running then p else { p with source := source }

def setPresentedCallback (p : VisionPipeline σ δ τ ρ) : VisionPipeline σ δ τ ρ :=
  { p with onPresented := true }

def hasDetectors (p : VisionPipeline σ δ τ ρ) : Bool := anyDetector p.detectors

/-- What `start` does once the source is open and before it makes the queue. -/
def cleared (p : VisionPipeline σ δ τ ρ) : VisionPipeline σ δ τ ρ :=
  { p with
    latest := none
    stats := {}
    tracker := p.tracker.map ITracker.reset
    rules := p.rules.map RuleEngine.reset
    eventLog := p.eventLog.reset }

def start (p : VisionPipeline σ δ τ ρ) : StartResult σ δ τ ρ :=
  if p.running then .already
  else
    match p.source with
    | none => .refused p
    | some source =>
      let (ok, source) := IVideoSource.open_ source
      let p := { p with source := some source }
      if !ok then .refused p
      else
        match BoundedQueue.new p.queueCapacity .dropOldest with
        | .error what => .threw what p.cleared
        | .ok queue => .started
            { pipeline := { p.cleared with running := true }, queue := { queue := queue } }

theorem start_started {p : VisionPipeline σ δ τ ρ} {s : Session σ δ τ ρ}
    (started : p.start = .started s) : ∃ source positive,
      s = { pipeline := { ({ p with source := some source } : VisionPipeline σ δ τ ρ).cleared with
              running := true }
            queue := .start p.queueCapacity .dropOldest positive } := by
  unfold start at started
  split at started
  · contradiction
  · split at started
    · contradiction
    · rename_i source _
      simp only at started
      split at started
      · contradiction
      · split at started
        · contradiction
        · rename_i queue made
          obtain ⟨positive, rfl⟩ := BoundedQueue.new_ok made
          exact ⟨_, positive, (StartResult.started.inj started).symm⟩

theorem start_mode (p : VisionPipeline σ δ τ ρ) :
    ∀ after, p.start.pipeline = some after → after.mode = p.mode := by
  intro after left
  unfold start at left
  split at left
  · cases left
  · split at left
    · cases left
      rfl
    · simp only at left
      split at left
      · cases left
        rfl
      · split at left <;> cases left <;> rfl

/-- What `joinWorkers` leaves of the pipeline itself. -/
def stop (p : VisionPipeline σ δ τ ρ) : VisionPipeline σ δ τ ρ :=
  { p with running := false, source := p.source.map IVideoSource.close }

def readSource (p : VisionPipeline σ δ τ ρ) : Option Mat × VisionPipeline σ δ τ ρ :=
  match p.source with
  | none => (none, p)
  | some source =>
    let (image, source) := IVideoSource.read source
    (image, { p with source := some source })

omit [ITracker τ] [IRule ρ] in
theorem readSource_snd (p : VisionPipeline σ δ τ ρ) : p.readSource.2 =
    { p with source := p.source.map (fun source => (IVideoSource.read source).2) } := by
  obtain ⟨source⟩ := p
  cases source <;> rfl

def sourceId (p : VisionPipeline σ δ τ ρ) : String := (p.source.map IVideoSource.sourceId).getD ""

/-- What the inference worker does when the mode has changed. -/
def resetStages (p : VisionPipeline σ δ τ ρ) : VisionPipeline σ δ τ ρ :=
  { p with tracker := p.tracker.map ITracker.reset, rules := p.rules.map RuleEngine.reset }

end VisionPipeline

namespace Session

variable {σ δ τ ρ : Type} [IVideoSource σ] [IDetector δ] [ITracker τ] [IRule ρ]

/- The stop flag and the closed flag of the queue never fall again, so to read them one after the
other is to read both at the moment of one of the two reads. -/

def captureMustEnd (s : Session σ δ τ ρ) : Bool := s.captureStop || s.queue.queue.closed

def packetOf (s : Session σ δ τ ρ) (now : TimePoint) (image : Mat) : FramePacket where
  frameId := s.frameId + 1
  captureTimestamp := now
  sourceId := s.pipeline.sourceId
  image := image

def captureStep (now : TimePoint) (s : Session σ δ τ ρ) : Session σ δ τ ρ :=
  match s.capture with
  | .loop => { s with capture := if s.captureMustEnd then .done else .read }
  | .read =>
    match s.pipeline.readSource with
    | (some image, pipeline) =>
      { s with
        pipeline := pipeline
        frameId := s.frameId + 1
        capture := .before (s.packetOf now image) }
    | (none, pipeline) => { s with pipeline := pipeline, capture := .retry }
  | .retry => { s with capture := if s.captureMustEnd then .done else .loop }
  | .before packet => { s with capture := .push packet s.queue.queue.droppedCount }
  | .push packet droppedBefore =>
    { s with
      queue := s.queue.push packet
      capture := match (s.queue.queue.push packet).2 with
        | .accepted _ => .captured droppedBefore
        | .waits => .push packet droppedBefore
        | .closed | .full => .done }
  | .captured droppedBefore =>
    { s with
      pipeline := { s.pipeline with stats := s.pipeline.stats.onCaptured }
      capture := .after droppedBefore }
  | .after droppedBefore =>
    { s with
      capture :=
        if droppedBefore < s.queue.queue.droppedCount then
          .dropped (s.queue.queue.droppedCount - droppedBefore)
        else .depth }
  | .dropped count =>
    { s with
      pipeline := { s.pipeline with stats := s.pipeline.stats.onDropped count }
      capture := .depth }
  | .depth => { s with capture := .setDepth s.queue.queue.size }
  | .setDepth depth =>
    { s with
      pipeline := { s.pipeline with stats := s.pipeline.stats.setQueueDepth depth }
      capture := .loop }
  | .done => s

def modeChanged (s : Session σ δ τ ρ) : Bool := s.lastMode.any (fun last => last ≠ s.pipeline.mode)

def detectStep (f : InFlight) (s : Session σ δ τ ρ) : Session σ δ τ ρ :=
  let found := InferenceWorker.detect (s.pipeline.detectors f.source) f.packet
  { s with
    pipeline :=
      { s.pipeline with detectors := Function.update s.pipeline.detectors f.source found.2 }
    inference := .readMode { f with presented := { f.presented with detections := found.1 } } }

def readModeStep (f : InFlight) (s : Session σ δ τ ρ) : Session σ δ τ ρ :=
  { s with
    pipeline := if s.modeChanged then s.pipeline.resetStages else s.pipeline
    lastMode := some s.pipeline.mode
    inference := .track f
    record :=
      if s.modeChanged && s.pipeline.tracker.isSome then
        { s.record with trackerCalls := s.record.trackerCalls ++ [.reset] }
      else s.record }

def trackStep (f : InFlight) (s : Session σ δ τ ρ) : Session σ δ τ ρ :=
  match s.pipeline.tracker with
  | none => { s with inference := .rules f }
  | some tracker =>
    let after := InferenceWorker.track tracker f
    { s with
      pipeline := { s.pipeline with tracker := some after.2 }
      inference := .tracked { f with presented := { f.presented with tracks := after.1 } }
      record :=
        { s.record with
          trackerCalls := s.record.trackerCalls ++
            [.update f.source s.lastMode f.presented.detections] } }

/- `evaluate` catches what its rules throw, so the handler around it never runs. -/
def rulesStep (f : InFlight) (s : Session σ δ τ ρ) : Session σ δ τ ρ :=
  match s.pipeline.rules with
  | none => { s with inference := .render f }
  | some rules =>
    let after := rules.evaluate f.presented.tracks (InferenceWorker.ruleContext f.packet)
    { s with
      pipeline := { s.pipeline with rules := some after.1 }
      inference := .log { f with presented := { f.presented with events := after.2 } } }

def setStats (s : Session σ δ τ ρ) (stats : PipelineStats) (inference : InferenceState) :
    Session σ δ τ ρ :=
  { s with pipeline := { s.pipeline with stats := stats }, inference := inference }

def inferenceStep (draw : Renderers) (s : Session σ δ τ ρ) : Session σ δ τ ρ :=
  match s.inference with
  | .loop => { s with inference := if s.inferenceStop then .done else .pop }
  | .pop =>
    { s with
      queue := s.queue.pop
      inference := match s.queue.queue.pop.2 with
        | .waits => .pop
        | .drained => .done
        | .item packet => .provide (InferenceWorker.receive packet) }
  -- `currentDetector` reads the mode here; only this thread touches the detectors it looks up
  | .provide f => { s with inference := .detect { f with source := s.pipeline.mode } }
  | .detect f => s.detectStep f
  | .readMode f => s.readModeStep f
  | .track f => s.trackStep f
  | .tracked f =>
    s.setStats (s.pipeline.stats.onTracked ((s.pipeline.tracker.map ITracker.stats).getD {}))
      (.rules f)
  | .rules f => s.rulesStep f
  | .log f =>
    { s with
      pipeline := { s.pipeline with eventLog := s.pipeline.eventLog.push f.presented.events }
      inference := .ruled f
      record := { s.record with emitted := s.record.emitted ++ f.presented.events } }
  | .ruled f =>
    s.setStats (s.pipeline.stats.onRuled ((s.pipeline.rules.map RuleEngine.stats).getD {}))
      (.render f)
  | .render f =>
    { s with inference := .publish { f with presented := InferenceWorker.render draw f } }
  | .publish f =>
    { s with
      pipeline := { s.pipeline with latest := some f.presented }
      inference := .inferred
      record := { s.record with published := s.record.published ++ [f.presented] } }
  | .inferred => s.setStats s.pipeline.stats.onInferred .depth
  | .depth => { s with inference := .setDepth s.queue.queue.size }
  | .setDepth depth => s.setStats (s.pipeline.stats.setQueueDepth depth) .presented
  | .presented => { s with inference := .loop }
  | .done => s

def ended (s : Session σ δ τ ρ) : Bool :=
  match s.capture, s.inference with
  | .done, .done => true
  | _, _ => false

/- `joinWorkers`, which then destroys the workers and the queue. -/
def stopStep (s : Session σ δ τ ρ) : Session σ δ τ ρ :=
  match s.stopping with
  | .running => { s with pipeline := { s.pipeline with running := false }, stopping := .halted }
  | .halted => { s with captureStop := true, stopping := .captureStopped }
  | .captureStopped => { s with inferenceStop := true, stopping := .inferenceStopped }
  | .inferenceStopped =>
    { s with
      pipeline := { s.pipeline with source := s.pipeline.source.map IVideoSource.close }
      stopping := .sourceClosed }
  | .sourceClosed => { s with queue := s.queue.close, stopping := .queueClosed }
  | .queueClosed =>
    if s.ended then
      { s with stopping := .joined, record := { s.record with leftover := s.queue.queue.queue } }
    else s
  | .joined => s

def step (draw : Renderers) (s : Session σ δ τ ρ) : Label → Session σ δ τ ρ
  | .capture now => s.captureStep now
  | .inference => s.inferenceStep draw
  | .setMode mode => { s with pipeline := s.pipeline.setMode mode }
  | .stop => s.stopStep

def run (draw : Renderers) (s : Session σ δ τ ρ) (labels : List Label) : Session σ δ τ ρ :=
  Machine.run (step draw) s labels

end Session

/- What the steps leave alone. -/

namespace Session

variable {σ δ τ ρ : Type}

/-- What the inference worker finds as it was after a step of another thread, the mode apart. -/
structure Aside (s after : Session σ δ τ ρ) : Prop where
  inference : after.inference = s.inference
  lastMode : after.lastMode = s.lastMode
  tracker : after.pipeline.tracker = s.pipeline.tracker
  rules : after.pipeline.rules = s.pipeline.rules
  log : after.pipeline.eventLog = s.pipeline.eventLog
  processed : after.pipeline.stats.processedFrames = s.pipeline.stats.processedFrames
  calls : after.record.trackerCalls = s.record.trackerCalls
  emitted : after.record.emitted = s.record.emitted
  published : after.record.published = s.record.published

/-- All that the capture worker changes: the source, its own counters, the queue and what it holds
itself. -/
theorem captureStep_changes [IVideoSource σ] (now : TimePoint) (s : Session σ δ τ ρ) :
    ∃ source captured dropped depth queue capture frameId, s.captureStep now =
      { s with
        pipeline :=
          { s.pipeline with
            source := source
            stats :=
              { s.pipeline.stats with
                capturedFrames := captured
                droppedFrames := dropped
                captureQueueDepth := depth } }
        queue := queue
        capture := capture
        frameId := frameId } := by
  have kept := s.pipeline.readSource_snd
  unfold captureStep
  split
  case h_2 =>
    split
    all_goals
      rename_i read
      rw [read] at kept
      subst kept
      exact ⟨_, _, _, _, _, _, _, rfl⟩
  all_goals exact ⟨_, _, _, _, _, _, _, rfl⟩

/-- All that `stop` changes. Its first step ends `isRunning`, and no other one touches that. -/
theorem stopStep_changes [IVideoSource σ] (s : Session σ δ τ ρ) :
    ∃ source running queue captureStop inferenceStop stopping leftover, s.stopStep =
      { s with
        pipeline := { s.pipeline with source := source, running := running }
        queue := queue
        captureStop := captureStop
        inferenceStop := inferenceStop
        stopping := stopping
        record := { s.record with leftover := leftover } } ∧
      (s.stopping = .running ∧ running = false ∨
        s.stopping ≠ .running ∧ running = s.pipeline.running) := by
  cases phase : s.stopping with
  | running =>
    simp only [stopStep, phase]
    exact ⟨_, _, _, _, _, _, _, rfl, Or.inl ⟨trivial, rfl⟩⟩
  | _ =>
    simp only [stopStep, phase]
    try split
    all_goals exact ⟨_, _, _, _, _, _, _, rfl, Or.inr ⟨nofun, rfl⟩⟩

theorem captureStep_aside [IVideoSource σ] (now : TimePoint) (s : Session σ δ τ ρ) :
    Aside s (s.captureStep now) := by
  obtain ⟨_, _, _, _, _, _, _, after⟩ := captureStep_changes now s
  rw [after]
  constructor <;> rfl

theorem stopStep_aside [IVideoSource σ] (s : Session σ δ τ ρ) : Aside s s.stopStep := by
  obtain ⟨_, _, _, _, _, _, _, after, -⟩ := stopStep_changes s
  rw [after]
  constructor <;> rfl

section SecondRead

variable [ITracker τ] [IRule ρ]

/- The second read of the mode may reset the tracker and the rules, and nothing else. -/

@[simp] theorem readModeStep_stats (f : InFlight) (s : Session σ δ τ ρ) :
    (s.readModeStep f).pipeline.stats = s.pipeline.stats := by
  unfold readModeStep
  simp only
  split <;> rfl

@[simp] theorem readModeStep_log (f : InFlight) (s : Session σ δ τ ρ) :
    (s.readModeStep f).pipeline.eventLog = s.pipeline.eventLog := by
  unfold readModeStep
  simp only
  split <;> rfl

@[simp] theorem readModeStep_tracker (f : InFlight) (s : Session σ δ τ ρ) :
    (s.readModeStep f).pipeline.tracker.isSome = s.pipeline.tracker.isSome := by
  unfold readModeStep
  simp only
  split
  · exact Option.isSome_map
  · rfl

@[simp] theorem readModeStep_published (f : InFlight) (s : Session σ δ τ ρ) :
    (s.readModeStep f).record.published = s.record.published := by
  unfold readModeStep
  simp only
  split <;> rfl

@[simp] theorem readModeStep_emitted (f : InFlight) (s : Session σ δ τ ρ) :
    (s.readModeStep f).record.emitted = s.record.emitted := by
  unfold readModeStep
  simp only
  split <;> rfl

variable [IDetector δ] {draw : Renderers} {s : Session σ δ τ ρ} {f : InFlight}

theorem inferenceStep_readMode (here : s.inference = .readMode f) :
    s.inferenceStep draw = s.readModeStep f := by rw [inferenceStep, here]

theorem inferenceStep_track (here : s.inference = .track f) :
    s.inferenceStep draw = s.trackStep f := by rw [inferenceStep, here]

theorem inferenceStep_rules (here : s.inference = .rules f) :
    s.inferenceStep draw = s.rulesStep f := by rw [inferenceStep, here]

end SecondRead

end Session

end VisionLab
