import VisionLab.Analytics.RuleFactory
import VisionLab.Pipeline.Fakes
import VisionLab.Pipeline.Stages
import VisionLab.Tracking.Lifecycle

/-! What a session leaves behind for the next one. A start resets the tracker, the rules and the
log and makes the workers anew; a change of the mode resets the tracker and the rules. Either way
what follows is what a new pipeline would do. -/
namespace VisionLab

/-- A reset forgets whatever the updates have left in the tracker. -/
class ForgetfulTracker (τ : Type) [ITracker τ] : Prop where
  update : ∀ (tracker : τ) detections context,
    ITracker.reset (ITracker.update tracker detections context).2 = ITracker.reset tracker
  reset : ∀ tracker : τ, ITracker.reset (ITracker.reset tracker) = ITracker.reset tracker

/-- A reset forgets whatever the evaluations have left in the rule. -/
class ForgetfulRule (ρ : Type) [IRule ρ] : Prop where
  evaluate : ∀ (rule : ρ) tracks context,
    IRule.reset (IRule.evaluate rule tracks context).2 = IRule.reset rule
  reset : ∀ rule : ρ, IRule.reset (IRule.reset rule) = IRule.reset rule

instance [PointPolygonTest] : ForgetfulRule Rule := ⟨Rule.reset_evaluate, Rule.reset_reset⟩

namespace ByteTrackTracker

variable {κ : Type} [KalmanBoxFilter κ]

theorem reset_update (m : Arithmetic) (s : ByteTrackTracker κ) (detections : List Detection)
    (context : TrackUpdateContext) : (s.update m detections context).1.reset = s.reset := by
  simp [update, reset, grown_config]

end ByteTrackTracker

instance {κ : Type} [KalmanBoxFilter κ] : ForgetfulTracker (ByteTrackTracker κ) :=
  ⟨fun tracker detections context => tracker.reset_update .exact detections context, fun _ => rfl⟩

theorem EventLog.reset_push (log : EventLog) (events : List VisionEvent) :
    (log.push events).reset = log.reset := by
  induction events generalizing log with
  | nil => rfl
  | cons event events ih => exact ih (log.pushOne event)

namespace RuleEngine

variable {ρ : Type} [IRule ρ] [ForgetfulRule ρ]

theorem reset_evaluateEntries (tracks : List Track) (context : RuleContext)
    (entries : List (Entry ρ)) (next : ℕ) :
    (evaluateEntries tracks context entries next).1.map
        (fun entry => { entry with rule := IRule.reset entry.rule }) =
      entries.map (fun entry => { entry with rule := IRule.reset entry.rule }) := by
  induction entries generalizing next with
  | nil => rfl
  | cons entry rest ih =>
    have forgets := ForgetfulRule.evaluate entry.rule tracks context
    unfold evaluateEntries
    split
    · simp [ih]
    · split
      all_goals
        rename_i evaluated
        rw [evaluated] at forgets
        simp [ih, forgets]

theorem reset_evaluate (e : RuleEngine ρ) (tracks : List Track) (context : RuleContext) :
    (e.evaluate tracks context).1.reset = e.reset := by
  unfold evaluate
  split
  · rfl
  · simp [reset, reset_evaluateEntries]

theorem reset_reset (e : RuleEngine ρ) : e.reset.reset = e.reset := by
  simp [reset, ForgetfulRule.reset, Function.comp_def]

end RuleEngine

namespace Stages

variable {τ ρ : Type} [ITracker τ] [IRule ρ]

def reset (st : Stages τ ρ) : Stages τ ρ where
  tracker := st.tracker.map ITracker.reset
  rules := st.rules.map RuleEngine.reset
  log := st.log.reset

section Forgetful

variable [ForgetfulTracker τ] [ForgetfulRule ρ]

theorem reset_readMode (st : Stages τ ρ) (mode : DetectionMode) :
    (st.readMode mode).reset = st.reset := by
  unfold readMode
  split
  · simp [reset, Function.comp_def, ForgetfulTracker.reset, RuleEngine.reset_reset]
  · rfl

omit [ForgetfulTracker τ] in
theorem reset_evaluated (st : Stages τ ρ) (context : RuleContext) (tracks : List Track) :
    (st.evaluated context tracks).2.reset = st.reset := by
  unfold evaluated
  split
  · rfl
  · rename_i rules there
    simp [logged, ruled, reset, there, RuleEngine.reset_evaluate, EventLog.reset_push]

theorem reset_followed (st : Stages τ ρ) (context : RuleContext) (detections : List Detection) :
    (st.followed context detections).2.reset = st.reset := by
  unfold followed
  split
  · exact st.reset_evaluated context []
  · rename_i tracker there
    have forgets := ForgetfulTracker.update tracker detections
      { frameId := context.frameId, timestamp := context.timestamp }
    split
    all_goals
      rename_i updated
      rw [updated] at forgets
      rw [tracked, reset_evaluated]
      simp [reset, there, forgets]

theorem reset_reset (st : Stages τ ρ) : st.reset.reset = st.reset := by
  simp [reset, Function.comp_def, ForgetfulTracker.reset, RuleEngine.reset_reset, EventLog.reset]

theorem reset_frame (st : Stages τ ρ) (input : StageInput) :
    (st.frame input).2.reset = st.reset := by
  rw [frame, reset_followed, reset_readMode]

end Forgetful

/-- Two states that the tracker and the rules cannot tell apart. -/
structure Twin (st other : Stages τ ρ) : Prop where
  tracker : st.tracker = other.tracker
  rules : st.rules = other.rules
  lastMode : st.lastMode = other.lastMode

/-- What a frame shows of the tracker and the rules is the same. -/
structure SameEvents (a b : StageOutput) : Prop where
  tracks : a.tracks = b.tracks
  events : a.events = b.events

omit [ITracker τ] in
theorem Twin.evaluated {st other : Stages τ ρ} (h : Twin st other) (context : RuleContext)
    (tracks : List Track) :
    SameEvents (st.evaluated context tracks).1 (other.evaluated context tracks).1 ∧
      Twin (st.evaluated context tracks).2 (other.evaluated context tracks).2 := by
  have rules := h.rules
  unfold Stages.evaluated
  cases there : other.rules with
  | none =>
    rw [there] at rules
    simp only [rules]
    exact ⟨⟨rfl, rfl⟩, h⟩
  | some engine =>
    rw [there] at rules
    simp only [rules]
    exact ⟨⟨rfl, rfl⟩, h.tracker, rfl, h.lastMode⟩

theorem Twin.tracked {st other : Stages τ ρ} (h : Twin st other) (context : RuleContext)
    (tracks : List Track) :
    SameEvents (st.tracked context tracks).1 (other.tracked context tracks).1 ∧
      Twin (st.tracked context tracks).2 (other.tracked context tracks).2 := by
  have counted : ∀ stats others, Twin { st with stats := stats } { other with stats := others } :=
    fun _ _ => ⟨h.tracker, h.rules, h.lastMode⟩
  exact (counted _ _).evaluated context tracks

theorem Twin.followed {st other : Stages τ ρ} (h : Twin st other) (context : RuleContext)
    (detections : List Detection) :
    SameEvents (st.followed context detections).1 (other.followed context detections).1 ∧
      Twin (st.followed context detections).2 (other.followed context detections).2 := by
  have tracker := h.tracker
  unfold Stages.followed
  cases there : other.tracker with
  | none =>
    rw [there] at tracker
    simp only [tracker]
    exact h.evaluated context []
  | some held =>
    rw [there] at tracker
    simp only [tracker]
    split
    all_goals
      rename_i after _
      have next : Twin { st with tracker := some after } { other with tracker := some after } :=
        ⟨rfl, h.rules, h.lastMode⟩
      exact next.tracked context _

theorem Twin.readMode {st other : Stages τ ρ} (h : Twin st other) (mode : DetectionMode) :
    Twin (st.readMode mode) (other.readMode mode) := by
  unfold Stages.readMode
  rw [h.lastMode]
  split
  · exact ⟨by simp [h.tracker], by simp [h.rules], rfl⟩
  · exact ⟨h.tracker, h.rules, rfl⟩

theorem Twin.frame {st other : Stages τ ρ} (h : Twin st other) (input : StageInput) :
    SameEvents (st.frame input).1 (other.frame input).1 ∧
      Twin (st.frame input).2 (other.frame input).2 :=
  (h.readMode input.mode).followed input.context input.detections

omit [ITracker τ] in
theorem evaluated_lastMode (st : Stages τ ρ) (context : RuleContext) (tracks : List Track) :
    (st.evaluated context tracks).2.lastMode = st.lastMode := by
  unfold evaluated
  split <;> rfl

theorem frame_lastMode (st : Stages τ ρ) (input : StageInput) :
    (st.frame input).2.lastMode = some input.mode := by
  have read : (st.readMode input.mode).lastMode = some input.mode := by
    unfold readMode
    split <;> rfl
  rw [frame, followed]
  split
  · rw [evaluated_lastMode, read]
  · split <;> rw [tracked, evaluated_lastMode, read]

/-- The first frame of a new mode finds the tracker and the rules as a start leaves them. -/
theorem readMode_twin {st : Stages τ ρ} {last mode : DetectionMode}
    (recorded : st.lastMode = some last)
    (changed : last ≠ mode) : Twin (st.readMode mode) (st.reset.readMode mode) := by
  simp only [readMode, recorded, Option.any_some, changed, ne_eq, not_false_eq_true, decide_true,
    if_true]
  exact ⟨rfl, rfl, rfl⟩

/-- From a change of the mode on, a run shows the tracks and events of a run from reset stages. -/
theorem run_changed {st : Stages τ ρ} {last : DetectionMode} (recorded : st.lastMode = some last)
    {input : StageInput} (changed : last ≠ input.mode) (inputs : List StageInput) :
    List.Forall₂ SameEvents (Mealy.run frame st (input :: inputs)).1
      (Mealy.run frame st.reset (input :: inputs)).1 := by
  obtain ⟨here, twin⟩ :=
    (readMode_twin recorded changed).followed input.context input.detections
  have onward := Mealy.run_simulates (R := Twin) (Q := SameEvents) (fun _ _ i h => Twin.frame h i)
    twin inputs
  exact .cons here onward.1

end Stages

namespace VisionPipeline

variable {σ δ τ ρ : Type}

def stages (p : VisionPipeline σ δ τ ρ) : Stages τ ρ where
  tracker := p.tracker
  rules := p.rules
  log := p.eventLog

def new (source : Option σ) (detectors : DetectionMode → Option δ) (queueCapacity : ℕ)
    (tracker : Option τ) (rules : Option (RuleEngine ρ)) : VisionPipeline σ δ τ ρ where
  source := source
  detectors := detectors
  queueCapacity := queueCapacity
  tracker := tracker
  rules := rules

theorem start_stages [IVideoSource σ] [ITracker τ] [IRule ρ] {p : VisionPipeline σ δ τ ρ}
    {s : Session σ δ τ ρ} (started : p.start = .started s) : s.stages = p.stages.reset := by
  obtain ⟨source, positive, rfl⟩ := start_started started
  rfl

end VisionPipeline

namespace Session

variable {σ δ τ ρ : Type} [IDetector δ] [ITracker τ] [IRule ρ] [ForgetfulTracker τ]
  [ForgetfulRule ρ]

theorem inferenceStep_reset (draw : Renderers) (s : Session σ δ τ ρ) :
    (s.inferenceStep draw).stages.reset = s.stages.reset := by
  cases pc : s.inference with
  | readMode f =>
    rw [inferenceStep_readMode pc, readModeStep_stages, Stages.reset_readMode]
  | track f =>
    rw [inferenceStep_track pc]
    unfold trackStep
    split
    · rfl
    · rename_i tracker there
      have forgets := ForgetfulTracker.update tracker f.presented.detections
        (InferenceWorker.trackContext f.packet)
      have same : ITracker.reset (InferenceWorker.track tracker f).2 = ITracker.reset tracker := by
        unfold InferenceWorker.track
        split
        all_goals
          rename_i updated
          rw [updated] at forgets
          exact forgets
      simp [stages, Stages.reset, there, same]
  | rules f =>
    rw [inferenceStep_rules pc]
    unfold rulesStep
    split
    · rfl
    · rename_i rules there
      simp [stages, Stages.reset, there, RuleEngine.reset_evaluate]
  | log f =>
    simp [inferenceStep, pc, stages, Stages.reset, EventLog.reset_push]
  | done => rw [inferenceStep, pc]
  | _ =>
    rw [inferenceStep, pc]
    rfl

theorem step_reset [IVideoSource σ] (draw : Renderers) (s : Session σ δ τ ρ) (label : Label) :
    (s.step draw label).stages.reset = s.stages.reset := by
  cases label with
  | capture now => rw [step, captureStep_stages]
  | inference => exact inferenceStep_reset draw s
  | setMode mode => rfl
  | stop => rw [step, stopStep_stages]

end Session

/-- A pipeline between its sessions, or the session that has it. -/
inductive Life (σ δ τ ρ : Type) where
  | idle (p : VisionPipeline σ δ τ ρ)
  | active (s : Session σ δ τ ρ)

inductive LifeEvent where
  | start
  | step (label : Label)

namespace Life

variable {σ δ τ ρ : Type}

def pipeline : Life σ δ τ ρ → VisionPipeline σ δ τ ρ
  | .idle p => p
  | .active s => s.pipeline

/-- The session ends when `stop` has joined its threads. -/
def ofSession (s : Session σ δ τ ρ) : Life σ δ τ ρ :=
  match s.stopping with
  | .joined => .idle s.pipeline
  | _ => .active s

variable [IVideoSource σ] [IDetector δ] [ITracker τ] [IRule ρ]

/- A second `start` or `stop` waits for a `stop` in progress. -/
def step (draw : Renderers) : Life σ δ τ ρ → LifeEvent → Life σ δ τ ρ
  | .idle p, .start =>
    match p.start with
    | .already => .idle p
    | .refused p | .threw _ p => .idle p
    | .started s => .active s
  | .idle p, .step (.setMode mode) => .idle (p.setMode mode)
  | .idle p, .step .stop => .idle p.stop
  | .idle p, .step _ => .idle p
  | .active s, .start => .active s
  | .active s, .step label => .ofSession (s.step draw label)

def run (draw : Renderers) (l : Life σ δ τ ρ) (history : List LifeEvent) : Life σ δ τ ρ :=
  Machine.run (step draw) l history

omit [IVideoSource σ] [IDetector δ] [ITracker τ] [IRule ρ] in
theorem ofSession_pipeline (s : Session σ δ τ ρ) : (ofSession s).pipeline = s.pipeline := by
  unfold ofSession
  split <;> rfl

variable [ForgetfulTracker τ] [ForgetfulRule ρ]

omit [IDetector δ] in
theorem start_reset {p after : VisionPipeline σ δ τ ρ} (left : p.start.pipeline = some after) :
    after.stages.reset = p.stages.reset := by
  have cleared : ∀ q : VisionPipeline σ δ τ ρ, q.cleared.stages.reset = q.stages.reset := by
    intro q
    exact q.stages.reset_reset
  unfold VisionPipeline.start at left
  split at left
  · cases left
  · split at left
    · cases left
      rfl
    · simp only at left
      split at left
      · cases left
        rfl
      · split at left
        all_goals
          cases left
          exact cleared _

theorem step_reset (draw : Renderers) (l : Life σ δ τ ρ) (event : LifeEvent) :
    (l.step draw event).pipeline.stages.reset = l.pipeline.stages.reset := by
  cases l with
  | idle p =>
    cases event with
    | start =>
      have left : ∀ after, p.start.pipeline = some after →
          after.stages.reset = p.stages.reset := fun after => start_reset
      simp only [step]
      split
      · rfl
      all_goals
        rename_i started
        exact left _ (by rw [started]; rfl)
    | step label => cases label <;> rfl
  | active s =>
    cases event with
    | start => rfl
    | step label =>
      rw [step, ofSession_pipeline]
      exact s.step_reset draw label

theorem run_reset (draw : Renderers) (l : Life σ δ τ ρ) (history : List LifeEvent) :
    (l.run draw history).pipeline.stages.reset = l.pipeline.stages.reset := by
  refine Machine.run_invariant
    (P := fun after : Life σ δ τ ρ => after.pipeline.stages.reset = l.pipeline.stages.reset) rfl ?_
    history
  intro before event same
  rw [step_reset, same]

end Life

/-- Two watched sessions show the same wherever they have been fed the same, the second one from a
change of the mode in the first one on, as far as the tracks and events go. -/
structure LikeNew {σ δ τ ρ : Type} (w v : Watched σ δ τ ρ) : Prop where
  restarted : ∀ i a b, w.fed.take (i + 1) = v.fed.take (i + 1) →
    w.seen[i]? = some a → v.seen[i]? = some b → a = b
  changed : ∀ k i x y a b, w.fed[k]? = some x → w.fed[k + 1]? = some y → x.mode ≠ y.mode →
    (w.fed.drop (k + 1)).take (i + 1) = v.fed.take (i + 1) →
    w.seen[k + 1 + i]? = some a → v.seen[i]? = some b → a.tracks = b.tracks ∧ a.events = b.events

namespace Watched

variable {σ δ τ ρ : Type} [ITracker τ] [IRule ρ]

theorem Steady.answered {first : Stages τ ρ} {w : Watched σ δ τ ρ} (h : w.Steady first) {i : ℕ}
    {output : StageOutput} (shown : w.seen[i]? = some output) :
    (Mealy.run Stages.frame first w.fed).1[i]? = some output := by
  obtain ⟨more, all⟩ := h.seen_prefix
  obtain ⟨inside, -⟩ := List.getElem?_eq_some_iff.mp shown
  rw [← all, List.getElem?_append_left inside, shown]

theorem Steady.likeNew [ForgetfulTracker τ] [ForgetfulRule ρ] {first : Stages τ ρ}
    (fresh : first.reset = first) {w v : Watched σ δ τ ρ} (hw : w.Steady first)
    (hv : v.Steady first) : LikeNew w v := by
  constructor
  · intro i a b same there here
    have equal : (Mealy.run Stages.frame first w.fed).1[i]? =
        (Mealy.run Stages.frame first v.fed).1[i]? := Mealy.run_getElem?_congr first same
    rw [hw.answered there, hv.answered here] at equal
    exact Option.some.inj equal
  · intro k i x y a b before after differs same there here
    have upto : w.fed.take (k + 1) = w.fed.take k ++ [x] := by simp [List.take_add_one, before]
    have onward : w.fed.drop (k + 1) = y :: w.fed.drop (k + 2) := by
      obtain ⟨inside, rfl⟩ := List.getElem?_eq_some_iff.mp after
      exact List.drop_eq_getElem_cons inside
    have left : (Mealy.run Stages.frame first (w.fed.take (k + 1))).2.reset = first := by
      refine (Mealy.run_invariant (R := fun st : Stages τ ρ => st.reset = first.reset) rfl ?_
        _).trans fresh
      intro st input kept
      rw [Stages.reset_frame, kept]
    have recorded :
        (Mealy.run Stages.frame first (w.fed.take (k + 1))).2.lastMode = some x.mode := by
      simp [upto, Mealy.run_append, Stages.frame_lastMode]
    have related := Stages.run_changed recorded differs (w.fed.drop (k + 2))
    rw [left, ← onward, ← Mealy.run_drop] at related
    have shown : ((Mealy.run Stages.frame first w.fed).1.drop (k + 1))[i]? = some a := by
      rw [List.getElem?_drop]
      exact hw.answered there
    have equal : (Mealy.run Stages.frame first (w.fed.drop (k + 1))).1[i]? =
        (Mealy.run Stages.frame first v.fed).1[i]? := Mealy.run_getElem?_congr first same
    have fresh := equal.trans (hv.answered here)
    have events := Mealy.related_at related shown fresh
    exact ⟨events.tracks, events.events⟩

end Watched

def RuleEngine.ofSpecs [PointPolygonTest] (specs : List RuleSpec) : RuleEngine Rule where
  entries := specs.map (fun spec => { rule := Rule.build spec, enabled := spec.enabled })

section Restarted

variable {σ δ κ : Type} [IVideoSource σ] [IDetector δ] [KalmanBoxFilter κ] [PointPolygonTest]

def VisionPipeline.constructed (source : Option σ) (detectors : DetectionMode → Option δ)
    (queueCapacity : ℕ) (config : TrackerConfig) (specs : List RuleSpec) :
    VisionPipeline σ δ (ByteTrackTracker κ) Rule :=
  .new source detectors queueCapacity (some { config := config }) (some (.ofSpecs specs))

/-- A pipeline with any history goes on, from its next start and from each change of the mode, as
a new one does; and to watch a session does not change it. -/
theorem restarted_like_new {source other : Option σ} {detectors others : DetectionMode → Option δ}
    {capacity size : ℕ} {config : TrackerConfig} {specs : List RuleSpec} {draw : Renderers}
    {history : List LifeEvent} {p : VisionPipeline σ δ (ByteTrackTracker κ) Rule}
    (idle : Life.run draw
      (.idle (.constructed source detectors capacity config specs)) history = .idle p)
    {s t : Session σ δ (ByteTrackTracker κ) Rule} (started : p.start = .started s)
    (begun : (VisionPipeline.constructed other others size config specs).start = .started t)
    (labels more : List Label) :
    s.pipeline.recentEvents = t.pipeline.recentEvents ∧ s.pipeline.stats = t.pipeline.stats ∧
      LikeNew (Watched.run draw { session := s } labels)
        (Watched.run draw { session := t } more) ∧
      (Watched.run draw { session := s } labels).session = s.run draw labels ∧
      (Watched.run draw { session := t } more).session = t.run draw more := by
  have kept := Life.run_reset draw
    (.idle (.constructed source detectors capacity config specs) :
      Life σ δ (ByteTrackTracker κ) Rule) history
  rw [idle] at kept
  have first : s.stages = p.stages.reset := VisionPipeline.start_stages started
  have same : t.stages = s.stages := by
    rw [first, VisionPipeline.start_stages begun]
    exact kept.symm
  have fresh : s.stages.reset = s.stages := by rw [first, Stages.reset_reset]
  have like := (Watched.run_steady started draw labels).likeNew fresh
    (same ▸ Watched.run_steady begun draw more)
  refine ⟨?_, ?_, like, Watched.run_session draw _ labels, Watched.run_session draw _ more⟩
  · exact congrArg (fun st => st.log.snapshot) same.symm
  · obtain ⟨_, _, rfl⟩ := VisionPipeline.start_started started
    obtain ⟨_, _, rfl⟩ := VisionPipeline.start_started begun
    rfl

end Restarted

section Line

local instance : PointPolygonTest := .parity

def linePipeline : VisionPipeline FakeVideoSource FakeDetector (ByteTrackTracker Rect) Rule :=
  .constructed (some { frameCount := 8 }) fakePipeline.detectors 2 {}
    [{ ruleId := "count-1", kind := .counting, b := ⟨10, 0⟩ }]

def lineHistory : List LifeEvent :=
  [.start] ++ List.replicate 8 (.step (.capture 0)) ++ List.replicate 16 (.step .inference) ++
    [.step (.setMode .object)] ++ List.replicate 5 (.step .stop) ++
    List.replicate 4 (.step (.capture 1)) ++ List.replicate 16 (.step .inference) ++
    List.replicate 6 (.step .stop)

def linePipelineAfter : VisionPipeline FakeVideoSource FakeDetector (ByteTrackTracker Rect) Rule :=
  (Life.run .plain (.idle linePipeline) lineHistory).pipeline

def lineSession (p : VisionPipeline FakeVideoSource FakeDetector (ByteTrackTracker Rect) Rule) :
    Session FakeVideoSource FakeDetector (ByteTrackTracker Rect) Rule where
  pipeline :=
    { ({ p with source := p.source.map (fun source => (IVideoSource.open_ source).2) } :
        VisionPipeline _ _ _ _).cleared with running := true }
  queue := .start 2 .dropOldest Nat.two_pos

theorem line_idle :
    Life.run .plain (.idle linePipeline) lineHistory = .idle linePipelineAfter := rfl

theorem line_started :
    linePipelineAfter.start = .started (lineSession linePipelineAfter) := rfl

theorem line_begun : linePipeline.start = .started (lineSession linePipeline) := rfl

theorem line_restarted_like_new : LikeNew
    (Watched.run .plain { session := lineSession linePipelineAfter }
      (List.replicate 8 (.capture 0) ++ List.replicate 16 .inference))
    (Watched.run .plain { session := lineSession linePipeline }
      (List.replicate 8 (.capture 0) ++ List.replicate 16 .inference)) :=
  (restarted_like_new line_idle line_started line_begun _ _).2.2.1

end Line

end VisionLab
