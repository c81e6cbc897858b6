import VisionLab.Lib.Mealy
import VisionLab.Pipeline.VisionPipeline

/-! The stages of the inference worker as a machine of their own, from the second read of the mode
to the drawing. It is fed frames with their detections, and a session is one run of it, whatever
the other threads do. -/
namespace VisionLab

def PipelineStats.staged (stats : PipelineStats) : PipelineStats :=
  { stats with
    capturedFrames := 0, processedFrames := 0, droppedFrames := 0, captureQueueDepth := 0 }

/-- What the stages keep from one frame to the next. -/
structure Stages (τ ρ : Type) where
  tracker : Option τ
  rules : Option (RuleEngine ρ)
  log : EventLog
  lastMode : Option DetectionMode := none
  stats : PipelineStats := {}

/-- A frame after detection, with the mode that the second read finds. -/
structure StageInput where
  context : RuleContext
  detections : List Detection
  mode : DetectionMode

/-- What can be seen of a frame when its stages are done. -/
structure StageOutput where
  tracks : List Track
  events : List VisionEvent
  recentEvents : List VisionEvent
  stats : PipelineStats

namespace Stages

variable {τ ρ : Type} [ITracker τ] [IRule ρ]

def readMode (st : Stages τ ρ) (mode : DetectionMode) : Stages τ ρ :=
  if st.lastMode.any (fun last => last ≠ mode) then
    { st with
      tracker := st.tracker.map ITracker.reset
      rules := st.rules.map RuleEngine.reset
      lastMode := some mode }
  else { st with lastMode := some mode }

omit [ITracker τ] [IRule ρ] in
def observe (st : Stages τ ρ) (tracks : List Track) (events : List VisionEvent) : StageOutput where
  tracks := tracks
  events := events
  recentEvents := st.log.snapshot
  stats := st.stats

/- The rest of a frame from each stage on. -/

omit [ITracker τ] in
def ruled (st : Stages τ ρ) (tracks : List Track) (events : List VisionEvent) :
    StageOutput × Stages τ ρ :=
  let counted : Stages τ ρ :=
    { st with stats := st.stats.onRuled ((st.rules.map RuleEngine.stats).getD {}) }
  (counted.observe tracks events, counted)

omit [ITracker τ] in
def logged (st : Stages τ ρ) (tracks : List Track) (events : List VisionEvent) :
    StageOutput × Stages τ ρ :=
  ruled { st with log := st.log.push events } tracks events

omit [ITracker τ] in
def evaluated (st : Stages τ ρ) (context : RuleContext) (tracks : List Track) :
    StageOutput × Stages τ ρ :=
  match st.rules with
  | none => (st.observe tracks [], st)
  | some rules =>
    let after := rules.evaluate tracks context
    logged { st with rules := some after.1 } tracks after.2

def tracked (st : Stages τ ρ) (context : RuleContext) (tracks : List Track) :
    StageOutput × Stages τ ρ :=
  evaluated
    { st with stats := st.stats.onTracked ((st.tracker.map ITracker.stats).getD {}) } context tracks

def followed (st : Stages τ ρ) (context : RuleContext) (detections : List Detection) :
    StageOutput × Stages τ ρ :=
  match st.tracker with
  | none => st.evaluated context []
  | some tracker =>
    match ITracker.update tracker detections
        { frameId := context.frameId, timestamp := context.timestamp } with
    | (.ok tracks, tracker) => tracked { st with tracker := some tracker } context tracks
    | (.error _, tracker) => tracked { st with tracker := some tracker } context []

def frame (st : Stages τ ρ) (input : StageInput) : StageOutput × Stages τ ρ :=
  (st.readMode input.mode).followed input.context input.detections

def rest (st : Stages τ ρ) : InferenceState → Option (StageOutput × Stages τ ρ)
  | .track f => some (st.followed (InferenceWorker.ruleContext f.packet) f.presented.detections)
  | .tracked f => some (st.tracked (InferenceWorker.ruleContext f.packet) f.presented.tracks)
  | .rules f => some (st.evaluated (InferenceWorker.ruleContext f.packet) f.presented.tracks)
  | .log f => some (st.logged f.presented.tracks f.presented.events)
  | .ruled f => some (st.ruled f.presented.tracks f.presented.events)
  | .render f => some (st.observe f.presented.tracks f.presented.events, st)
  | _ => none

end Stages

def InferenceState.Blank : InferenceState → Prop
  | .provide f | .detect f | .readMode f | .track f =>
    f.presented.tracks = [] ∧ f.presented.events = []
  | .tracked f | .rules f => f.presented.events = []
  | _ => True

def Session.stages {σ δ τ ρ : Type} (s : Session σ δ τ ρ) : Stages τ ρ where
  tracker := s.pipeline.tracker
  rules := s.pipeline.rules
  log := s.pipeline.eventLog
  lastMode := s.lastMode
  stats := s.pipeline.stats.staged

/-- A session with the frames that its stages have been fed, and what came out of them. -/
structure Watched (σ δ τ ρ : Type) where
  session : Session σ δ τ ρ
  fed : List StageInput := []
  seen : List StageOutput := []

namespace Watched

variable {σ δ τ ρ : Type}

def feeds (w : Watched σ δ τ ρ) : List StageInput :=
  match w.session.inference with
  | .readMode f =>
    [{ context := InferenceWorker.ruleContext f.packet
       detections := f.presented.detections
       mode := w.session.pipeline.mode }]
  | _ => []

def shows (w : Watched σ δ τ ρ) : List StageOutput :=
  match w.session.inference with
  | .render f => [w.session.stages.observe f.presented.tracks f.presented.events]
  | _ => []

variable [IVideoSource σ] [IDetector δ] [ITracker τ] [IRule ρ]

def step (draw : Renderers) (w : Watched σ δ τ ρ) (label : Label) : Watched σ δ τ ρ :=
  match label with
  | .inference =>
    { session := w.session.step draw .inference
      fed := w.fed ++ w.feeds
      seen := w.seen ++ w.shows }
  | _ => { w with session := w.session.step draw label }

def run (draw : Renderers) (w : Watched σ δ τ ρ) (labels : List Label) : Watched σ δ τ ρ :=
  Machine.run (step draw) w labels

theorem run_session (draw : Renderers) (w : Watched σ δ τ ρ) (labels : List Label) :
    (w.run draw labels).session = w.session.run draw labels := by
  induction labels generalizing w with
  | nil => rfl
  | cons label labels ih =>
    have here : (w.step draw label).session = w.session.step draw label := by
      cases label <;> rfl
    exact (ih (w.step draw label)).trans (by rw [here]; rfl)

/-- The stages of a session run on their own over the frames fed so far, the last of which may be
in hand. -/
def Follows (first : Stages τ ρ) (w : Watched σ δ τ ρ) : Prop :=
  match w.session.stages.rest w.session.inference with
  | none => Mealy.run Stages.frame first w.fed = (w.seen, w.session.stages)
  | some (output, after) => Mealy.run Stages.frame first w.fed = (w.seen ++ [output], after)

end Watched

/- What the steps of the session do to the stages. -/

namespace Session

variable {σ δ τ ρ : Type}

theorem captureStep_stages [IVideoSource σ] (now : TimePoint) (s : Session σ δ τ ρ) :
    (s.captureStep now).stages = s.stages := by
  obtain ⟨_, _, _, _, _, _, _, after⟩ := captureStep_changes now s
  rw [after]
  rfl

theorem stopStep_stages [IVideoSource σ] (s : Session σ δ τ ρ) : s.stopStep.stages = s.stages := by
  obtain ⟨_, _, _, _, _, _, _, after, -⟩ := stopStep_changes s
  rw [after]
  rfl

variable [ITracker τ] [IRule ρ]

theorem readModeStep_stages (f : InFlight) (s : Session σ δ τ ρ) :
    (s.readModeStep f).stages = s.stages.readMode s.pipeline.mode := by
  unfold readModeStep Stages.readMode
  by_cases changed : s.modeChanged = true
  · have differs : s.stages.lastMode.any (fun last => last ≠ s.pipeline.mode) = true := changed
    rw [if_pos changed, if_pos differs]
    rfl
  · have same : ¬ s.stages.lastMode.any (fun last => last ≠ s.pipeline.mode) = true := changed
    rw [if_neg changed, if_neg same]
    rfl

def AtBoundary (s : Session σ δ τ ρ) : Prop :=
  match s.inference with
  | .readMode _ | .render _ => True
  | _ => False

/-- Another step of the inference worker takes the frame in hand one stage further. -/
structure Advances (s after : Session σ δ τ ρ) : Prop where
  rest : after.stages.rest after.inference = s.stages.rest s.inference
  stages : s.stages.rest s.inference = none → after.stages = s.stages
  blank : after.inference.Blank

theorem trackStep_advances {s : Session σ δ τ ρ} {f : InFlight} (here : s.inference = .track f)
    (noTracks : f.presented.tracks = []) (noEvents : f.presented.events = []) :
    Advances s (s.trackStep f) := by
  unfold trackStep
  cases there : s.pipeline.tracker with
  | none =>
    refine ⟨?_, by simp [here, Stages.rest], noEvents⟩
    have none : s.stages.tracker = none := there
    rw [here]
    simp only [Stages.rest, Stages.followed, none, noTracks]
    rfl
  | some tracker =>
    refine ⟨?_, by simp [here, Stages.rest], noEvents⟩
    have some' : s.stages.tracker = some tracker := there
    rw [here]
    simp only [Stages.rest, Stages.followed, some', InferenceWorker.track,
      InferenceWorker.trackContext, InferenceWorker.ruleContext]
    generalize ITracker.update tracker f.presented.detections _ = result
    obtain ⟨tracks | thrown, tracker⟩ := result <;> rfl

theorem rulesStep_advances {s : Session σ δ τ ρ} {f : InFlight} (here : s.inference = .rules f)
    (noEvents : f.presented.events = []) : Advances s (s.rulesStep f) := by
  unfold rulesStep
  cases there : s.pipeline.rules with
  | none =>
    refine ⟨?_, by simp [here, Stages.rest], trivial⟩
    have none : s.stages.rules = none := there
    rw [here]
    simp only [Stages.rest, Stages.evaluated, none, noEvents]
    rfl
  | some rules =>
    refine ⟨?_, by simp [here, Stages.rest], trivial⟩
    have some' : s.stages.rules = some rules := there
    rw [here]
    simp only [Stages.rest, Stages.evaluated, some']
    rfl

variable [IDetector δ]

theorem inferenceStep_advances {s : Session σ δ τ ρ} (blank : s.inference.Blank)
    (inside : ¬ s.AtBoundary) (draw : Renderers) : Advances s (s.inferenceStep draw) := by
  cases pc : s.inference with
  | readMode f => simp [AtBoundary, pc] at inside
  | render f => simp [AtBoundary, pc] at inside
  | track f =>
    rw [pc] at blank
    rw [inferenceStep_track pc]
    exact trackStep_advances pc blank.1 blank.2
  | rules f =>
    rw [pc] at blank
    rw [inferenceStep_rules pc]
    exact rulesStep_advances pc blank
  | tracked f =>
    rw [pc] at blank
    rw [inferenceStep, pc]
    exact ⟨by rw [pc]; rfl, by simp [pc, Stages.rest], blank⟩
  | log f =>
    rw [inferenceStep, pc]
    exact ⟨by rw [pc]; rfl, by simp [pc, Stages.rest], trivial⟩
  | ruled f =>
    rw [inferenceStep, pc]
    exact ⟨by rw [pc]; rfl, by simp [pc, Stages.rest], trivial⟩
  | pop =>
    rw [inferenceStep, pc]
    simp only
    split
    · exact ⟨by rw [pc]; rfl, fun _ => rfl, trivial⟩
    · exact ⟨by rw [pc]; rfl, fun _ => rfl, trivial⟩
    · exact ⟨by rw [pc]; rfl, fun _ => rfl, rfl, rfl⟩
  | loop =>
    rw [inferenceStep, pc]
    simp only
    split <;> exact ⟨by rw [pc]; rfl, fun _ => rfl, trivial⟩
  | provide f =>
    rw [pc] at blank
    rw [inferenceStep, pc]
    exact ⟨by rw [pc]; rfl, fun _ => rfl, blank⟩
  | detect f =>
    rw [pc] at blank
    rw [inferenceStep, pc]
    exact ⟨by rw [pc]; rfl, fun _ => rfl, blank⟩
  | done =>
    rw [inferenceStep, pc]
    exact ⟨by rw [pc], fun _ => rfl, by rw [pc]; trivial⟩
  | _ =>
    rw [inferenceStep, pc]
    exact ⟨by rw [pc]; rfl, fun _ => rfl, trivial⟩

end Session

namespace Watched

variable {σ δ τ ρ : Type} [IVideoSource σ] [IDetector δ] [ITracker τ] [IRule ρ]

omit [IVideoSource σ] [IDetector δ] in
theorem Follows.advances {first : Stages τ ρ} {w after : Watched σ δ τ ρ} (h : w.Follows first)
    (advances : w.session.Advances after.session) (fed : after.fed = w.fed)
    (seen : after.seen = w.seen) : after.Follows first := by
  unfold Follows at h ⊢
  rw [advances.rest, fed, seen]
  split at h
  · rename_i none
    rwa [advances.stages none]
  · exact h

/-- The invariant of a watched session. -/
structure Steady (first : Stages τ ρ) (w : Watched σ δ τ ρ) : Prop where
  follows : w.Follows first
  blank : w.session.inference.Blank

theorem inference_steady {first : Stages τ ρ} {w : Watched σ δ τ ρ} (h : w.Steady first)
    (draw : Renderers) : (w.step draw .inference).Steady first := by
  have follows := h.follows
  have blank := h.blank
  cases pc : w.session.inference with
  | readMode f =>
    rw [pc] at blank
    have next : w.session.step draw .inference = w.session.readModeStep f :=
      Session.inferenceStep_readMode pc
    have idle : Mealy.run Stages.frame first w.fed = (w.seen, w.session.stages) := by
      simpa [Follows, pc, Stages.rest] using follows
    have stages := Session.readModeStep_stages f w.session
    constructor
    · simp only [Follows, step, next, stages, feeds, shows, pc, Mealy.run_append, idle]
      simp [Stages.rest, Session.readModeStep, Stages.frame]
    · rw [step, next]
      exact blank
  | render f =>
    have next : w.session.step draw .inference =
        { w.session with
          inference := .publish { f with presented := InferenceWorker.render draw f } } := by
      simp [Session.step, Session.inferenceStep, pc]
    constructor
    · have same : (w.session.step draw .inference).stages = w.session.stages := by
        rw [next]
        rfl
      simp only [Follows, step, same]
      simpa [next, feeds, shows, pc, Stages.rest, Follows] using follows
    · rw [step, next]
      trivial
  | _ =>
    have inside : ¬ w.session.AtBoundary := by simp [Session.AtBoundary, pc]
    have advances := Session.inferenceStep_advances blank inside draw
    refine ⟨follows.advances advances ?_ ?_, advances.blank⟩
    · simp [step, feeds, pc]
    · simp [step, shows, pc]

theorem step_steady {first : Stages τ ρ} (draw : Renderers) (w : Watched σ δ τ ρ) (label : Label)
    (h : w.Steady first) : (w.step draw label).Steady first := by
  have aside : ∀ s : Session σ δ τ ρ, s.stages = w.session.stages →
      s.inference = w.session.inference →
        ({ w with session := s } : Watched σ δ τ ρ).Steady first := by
    intro s stages same
    have advances : w.session.Advances s :=
      ⟨by rw [stages, same], fun _ => stages, by rw [same]; exact h.blank⟩
    exact ⟨h.follows.advances advances rfl rfl, advances.blank⟩
  cases label with
  | capture now =>
    exact aside _ (w.session.captureStep_stages now) (w.session.captureStep_aside now).inference
  | inference => exact inference_steady h draw
  | setMode mode => exact aside _ rfl rfl
  | stop => exact aside _ w.session.stopStep_stages w.session.stopStep_aside.inference

/-- In every run of a session that starts, the stages run on their own over what they are fed. -/
theorem run_steady {p : VisionPipeline σ δ τ ρ} {s : Session σ δ τ ρ}
    (started : p.start = .started s)
    (draw : Renderers) (labels : List Label) :
    (run draw { session := s } labels).Steady s.stages := by
  refine Machine.run_invariant ?_ (step_steady draw) labels
  obtain ⟨source, positive, rfl⟩ := VisionPipeline.start_started started
  exact ⟨rfl, trivial⟩

omit [IVideoSource σ] [IDetector δ] in
/-- What has been seen is the beginning of what the stages answer. -/
theorem Steady.seen_prefix {first : Stages τ ρ} {w : Watched σ δ τ ρ} (h : w.Steady first) :
    w.seen <+: (Mealy.run Stages.frame first w.fed).1 := by
  have follows := h.follows
  unfold Follows at follows
  split at follows
  · rw [follows]
  · rw [follows]
    exact List.prefix_append _ _

end Watched

end VisionLab
