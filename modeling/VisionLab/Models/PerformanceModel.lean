import VisionLab.Pipeline.StatsProbe
import VisionLab.Pipeline.Fakes

/-! The performance panel. The workers report to the probe, a timer copies a snapshot of it into the
model behind the panel, and the panel reads a property again only when the model says that it has
changed. -/
namespace VisionLab

open Checked (Fault)

inductive PerformanceProperty where
  | capturedFrames | processedFrames | droppedFrames | captureQueueDepth
  | captureFps | inferenceFps | renderFps
  | avgInferenceLatencyMs | p50InferenceLatencyMs | p95InferenceLatencyMs | endToEndLatencyMs
  | activeTracks | createdTracks | lostTracks | removedTracks | avgTrackingLatencyMs
  | eventsEmitted | enabledRules | avgRuleLatencyMs
  deriving DecidableEq, Repr

namespace PerformanceProperty

def all : List PerformanceProperty :=
  [.capturedFrames, .processedFrames, .droppedFrames, .captureQueueDepth, .captureFps,
    .inferenceFps, .renderFps, .avgInferenceLatencyMs, .p50InferenceLatencyMs,
    .p95InferenceLatencyMs, .endToEndLatencyMs, .activeTracks, .createdTracks, .lostTracks,
    .removedTracks, .avgTrackingLatencyMs, .eventsEmitted, .enabledRules, .avgRuleLatencyMs]

def member (stats : TimedStats) : PerformanceProperty → ℚ
  | .capturedFrames => stats.capturedFrames
  | .processedFrames => stats.processedFrames
  | .droppedFrames => stats.droppedFrames
  | .captureQueueDepth => stats.captureQueueDepth
  | .captureFps => stats.captureFps
  | .inferenceFps => stats.inferenceFps
  | .renderFps => stats.renderFps
  | .avgInferenceLatencyMs => stats.avgInferenceLatencyMs
  | .p50InferenceLatencyMs => stats.p50InferenceLatencyMs
  | .p95InferenceLatencyMs => stats.p95InferenceLatencyMs
  | .endToEndLatencyMs => stats.endToEndLatencyMs
  | .activeTracks => stats.activeTracks
  | .createdTracks => stats.createdTracks
  | .lostTracks => stats.lostTracks
  | .removedTracks => stats.removedTracks
  | .avgTrackingLatencyMs => stats.avgTrackingLatencyMs
  | .eventsEmitted => stats.eventsEmitted
  | .enabledRules => stats.enabledRules
  | .avgRuleLatencyMs => stats.avgRuleLatencyMs

def isSize : PerformanceProperty → Bool
  | .captureQueueDepth | .activeTracks | .enabledRules => true
  | _ => false

def get (stats : TimedStats) (property : PerformanceProperty) : ℚ :=
  if property.isSize then (Int.bmod ⌊property.member stats⌋ (2 ^ 32) : ℤ)
  else property.member stats

theorem mem_all (property : PerformanceProperty) : property ∈ all := by
  cases property <;> decide

end PerformanceProperty

structure PerformanceModel where
  stats : TimedStats := {}
  deriving DecidableEq, Repr

namespace PerformanceModel

/-- With the properties whose change is signalled. -/
def update (stats : TimedStats) (m : PerformanceModel) :
    List PerformanceProperty × PerformanceModel :=
  (PerformanceProperty.all.filter
      (fun property => property.member m.stats ≠ property.member stats),
    { stats := stats })

end PerformanceModel

/-- The value on display for each property. -/
abbrev PerformancePage := PerformanceProperty → ℚ

namespace PerformancePage

/-- A binding reads its property again when the signal comes. -/
def refresh (signals : List PerformanceProperty) (m : PerformanceModel) (page : PerformancePage) :
    PerformancePage :=
  fun property => if property ∈ signals then property.get m.stats else page property

/-- No signal is missing. -/
theorem refresh_update {page : PerformancePage} {m : PerformanceModel}
    (shown : page = PerformanceProperty.get m.stats) (stats : TimedStats) :
    page.refresh (m.update stats).1 (m.update stats).2 = PerformanceProperty.get stats := by
  funext property
  unfold refresh
  split
  · rfl
  · rename_i quiet
    have same : property.member m.stats = property.member stats := by
      by_contra changed
      exact quiet (List.mem_filter.mpr ⟨property.mem_all, by simpa using changed⟩)
    rw [shown]
    simp only [PerformanceProperty.get, same]

end PerformancePage

namespace Session

variable {σ δ τ ρ : Type} [ITracker τ] [IRule ρ]

def report (latencyMs endToEndLatencyMs : ℚ) (s : Session σ δ τ ρ) : Label → Option ProbeCall
  | .capture _ =>
    match s.capture with
    | .captured _ => some .captured
    | .dropped count => some (.dropped count)
    | .setDepth depth => some (.queueDepth depth)
    | _ => none
  | .inference =>
    match s.inference with
    | .tracked _ => some (.tracked ((s.pipeline.tracker.map ITracker.stats).getD {}) latencyMs)
    | .ruled _ => some (.ruled ((s.pipeline.rules.map RuleEngine.stats).getD {}) latencyMs)
    | .inferred => some (.inferred latencyMs endToEndLatencyMs)
    | .setDepth depth => some (.queueDepth depth)
    | _ => none
  | .setMode _ | .stop => none

theorem step_report [IVideoSource σ] [IDetector δ] (draw : Renderers) (s : Session σ δ τ ρ)
    (label : Label) (latencyMs endToEndLatencyMs : ℚ) :
    (s.step draw label).pipeline.stats =
      ((s.report latencyMs endToEndLatencyMs label).elim s.pipeline.stats
        s.pipeline.stats.report) := by
  cases label with
  | capture now =>
    unfold step captureStep report
    cases here : s.capture with
    | read =>
      have source := congrArg VisionPipeline.stats s.pipeline.readSource_snd
      simp only
      split
      · rename_i read
        rw [read] at source
        exact source
      · rename_i read
        rw [read] at source
        exact source
    | _ => rfl
  | inference =>
    unfold step inferenceStep report
    cases here : s.inference with
    | readMode f => exact readModeStep_stats f s
    | track f =>
      simp only [trackStep]
      split <;> rfl
    | rules f =>
      simp only [rulesStep]
      split <;> rfl
    | _ => rfl
  | setMode mode => rfl
  | stop =>
    show s.stopStep.pipeline.stats = s.pipeline.stats
    unfold stopStep
    split
    · rfl
    · rfl
    · rfl
    · rfl
    · rfl
    · split <;> rfl
    · rfl

omit [IRule ρ] in
theorem report_not_reset {s : Session σ δ τ ρ} {label : Label} {latencyMs endToEndLatencyMs : ℚ}
    {call : ProbeCall} (told : s.report latencyMs endToEndLatencyMs label = some call) :
    Reports.isReset call = false := by
  cases label with
  | capture now =>
    unfold report at told
    cases here : s.capture <;> rw [here] at told <;> cases told <;> rfl
  | inference =>
    unfold report at told
    cases here : s.inference <;> rw [here] at told <;> cases told <;> rfl
  | setMode mode => cases told
  | stop => cases told

end Session

/-- A session, the probe of its pipeline, and the panel with the model behind it. -/
structure Monitored (σ δ τ ρ : Type) where
  session : Session σ δ τ ρ
  probe : StatsProbe
  model : PerformanceModel
  page : PerformancePage

inductive MonitorTurn where
  | work (label : Label) (latencyMs endToEndLatencyMs : ℚ)
  | tick (now : TimePoint)

namespace MonitorTurn

def isWork : MonitorTurn → Bool
  | .work _ _ _ => true
  | .tick _ => false

def label? : MonitorTurn → Option Label
  | .work label _ _ => some label
  | .tick _ => none

end MonitorTurn

namespace Monitored

variable {σ δ τ ρ : Type} [IVideoSource σ] [IDetector δ] [ITracker τ] [IRule ρ]

def onStatsTick (now : TimePoint) (m : Monitored σ δ τ ρ) : Except Fault (Monitored σ δ τ ρ) := do
  let stats ← m.probe.snapshot now
  let (signals, model) := m.model.update stats
  return { m with model := model, page := m.page.refresh signals model }

def step (draw : Renderers) (m : Monitored σ δ τ ρ) :
    MonitorTurn → Except Fault (Monitored σ δ τ ρ)
  | .work label latencyMs endToEndLatencyMs =>
    .ok
      { m with
        session := m.session.step draw label
        probe := (m.session.report latencyMs endToEndLatencyMs label).elim m.probe m.probe.step }
  | .tick now => m.onStatsTick now

def run (draw : Renderers) (m : Monitored σ δ τ ρ) (turns : List MonitorTurn) :
    Except Fault (Monitored σ δ τ ρ) :=
  turns.foldlM (step draw) m

def reported (draw : Renderers) (s : Session σ δ τ ρ) : List MonitorTurn → List ProbeCall
  | [] => []
  | .work label latencyMs endToEndLatencyMs :: turns =>
    (s.report latencyMs endToEndLatencyMs label).toList ++ reported draw (s.step draw label) turns
  | .tick _ :: turns => reported draw s turns

def worked (draw : Renderers) (s : Session σ δ τ ρ) (turns : List MonitorTurn) : Session σ δ τ ρ :=
  s.run draw (turns.filterMap MonitorTurn.label?)

theorem reported_concat (draw : Renderers) (s : Session σ δ τ ρ) (turns : List MonitorTurn)
    (turn : MonitorTurn) : reported draw s (turns ++ [turn]) =
      reported draw s turns ++ reported draw (worked draw s turns) [turn] := by
  induction turns generalizing s with
  | nil => rfl
  | cons first turns ih =>
    cases first with
    | work label latencyMs endToEndLatencyMs =>
      simp only [List.cons_append, reported, ih, List.append_assoc]
      rfl
    | tick now => exact ih s

theorem worked_concat (draw : Renderers) (s : Session σ δ τ ρ) (turns : List MonitorTurn)
    (turn : MonitorTurn) :
    worked draw s (turns ++ [turn]) = worked draw (worked draw s turns) [turn] := by
  simp only [worked, Session.run, List.filterMap_append, Machine.run_append]

theorem last_turn {turns before after : List MonitorTurn} {turn last : MonitorTurn}
    (split : turns ++ [last] = before ++ turn :: after) :
    (after = [] ∧ turns = before ∧ last = turn) ∨
      ∃ rest, after = rest ++ [last] ∧ turns = before ++ turn :: rest := by
  induction after using List.reverseRecOn with
  | nil =>
    obtain ⟨same, alike⟩ := List.append_inj' split rfl
    exact Or.inl ⟨rfl, same, (List.cons.inj alike).1⟩
  | append_singleton rest final _ =>
    rw [← List.cons_append, ← List.append_assoc] at split
    obtain ⟨same, alike⟩ := List.append_inj' split rfl
    exact Or.inr ⟨rest, by rw [(List.cons.inj alike).1], same⟩

def statsAt (draw : Renderers) (s : Session σ δ τ ρ) (began : TimePoint)
    (before : List MonitorTurn) (now : TimePoint) : TimedStats :=
  Reports.summary now { origin := began, calls := reported draw s before }

/-- What holds after the turns of a session: the probe keeps what was reported, the counters of the
session are those of the reports, and the model and the page are as of the last tick. -/
structure UpToDate (draw : Renderers) (s : Session σ δ τ ρ) (began : TimePoint)
    (turns : List MonitorTurn) (m : Monitored σ δ τ ρ) : Prop where
  session : m.session = worked draw s turns
  probe : m.probe.Keeps { origin := began, calls := reported draw s turns }
  counters : m.session.pipeline.stats =
    ({ origin := began, calls := reported draw s turns } : Reports).counters
  page : m.page = PerformanceProperty.get m.model.stats
  latest : ∀ before now after, turns = before ++ .tick now :: after →
    after.all MonitorTurn.isWork = true → m.model.stats = statsAt draw s began before now

variable {draw : Renderers} {s : Session σ δ τ ρ} {began : TimePoint} {turns : List MonitorTurn}
  {m : Monitored σ δ τ ρ}

theorem work_upToDate (h : m.UpToDate draw s began turns) (label : Label)
    (latencyMs endToEndLatencyMs : ℚ) :
    ∃ after, m.step draw (.work label latencyMs endToEndLatencyMs) = .ok after ∧
      after.UpToDate draw s began (turns ++ [.work label latencyMs endToEndLatencyMs]) := by
  refine ⟨_, rfl, ?_⟩
  have told := reported_concat draw s turns (.work label latencyMs endToEndLatencyMs)
  simp only [reported, List.append_nil, ← h.session] at told
  have stats := Session.step_report draw m.session label latencyMs endToEndLatencyMs
  constructor
  case session =>
    rw [worked_concat, ← h.session]
    rfl
  case page => exact h.page
  case latest =>
    intro before now after split quiet
    rcases last_turn split with ⟨-, -, same⟩ | ⟨rest, rfl, early⟩
    · cases same
    · simp only [List.all_append, Bool.and_eq_true] at quiet
      exact h.latest before now rest early quiet.1
  case probe =>
    rw [told]
    cases here : m.session.report latencyMs endToEndLatencyMs label with
    | none => simpa using h.probe
    | some call =>
      have kept := StatsProbe.step_keeps h.probe call
      rw [Reports.add_of_not_reset _ (Session.report_not_reset here)] at kept
      exact kept
  case counters =>
    rw [told]
    cases here : m.session.report latencyMs endToEndLatencyMs label with
    | none =>
      rw [here] at stats
      simpa using stats.trans h.counters
    | some call =>
      rw [here] at stats
      have counted := Reports.counters_add
        { origin := began, calls := reported draw s turns } call
      rw [Reports.add_of_not_reset _ (Session.report_not_reset here)] at counted
      exact stats.trans ((congrArg (fun stats => stats.report call) h.counters).trans counted.symm)

theorem tick_upToDate (h : m.UpToDate draw s began turns) (now : TimePoint) :
    ∃ after, m.step draw (.tick now) = .ok after ∧
      after.UpToDate draw s began (turns ++ [.tick now]) := by
  have told := reported_concat draw s turns (.tick now)
  simp only [reported, List.append_nil] at told
  refine ⟨_, by simp only [step, onStatsTick, StatsProbe.snapshot_summary h.probe]; rfl, ?_⟩
  constructor
  case session =>
    rw [worked_concat, ← h.session]
    rfl
  case probe =>
    rw [told]
    exact h.probe
  case counters =>
    rw [told]
    exact h.counters
  case page => exact PerformancePage.refresh_update h.page _
  case latest =>
    intro before time after split quiet
    rcases last_turn split with ⟨-, rfl, same⟩ | ⟨rest, rfl, -⟩
    · cases same
      rfl
    · simp [MonitorTurn.isWork] at quiet

theorem run_upToDate (h : m.UpToDate draw s began []) (turns : List MonitorTurn) :
    ∃ after, m.run draw turns = .ok after ∧ after.UpToDate draw s began turns := by
  induction turns using List.reverseRecOn with
  | nil => exact ⟨m, rfl, h⟩
  | append_singleton turns turn ih =>
    obtain ⟨before, ran, known⟩ := ih
    have next : ∃ after, before.step draw turn = .ok after ∧
        after.UpToDate draw s began (turns ++ [turn]) := by
      cases turn with
      | work label latencyMs endToEndLatencyMs =>
        exact work_upToDate known label latencyMs endToEndLatencyMs
      | tick now => exact tick_upToDate known now
    obtain ⟨after, done, last⟩ := next
    refine ⟨after, ?_, last⟩
    unfold run at ran ⊢
    rw [List.foldlM_append, ran]
    simp only [bind, Except.bind, List.foldlM_cons, List.foldlM_nil, done]
    rfl

/-- Whatever an earlier session left in the probe and on the page, from the first tick of a session
on the page shows the statistics of what the workers have reported in this session up to the last
tick: its counters are those of the session at that moment, and its percentiles are in order. -/
theorem page_shows_session {p : VisionPipeline σ δ τ ρ} {s : Session σ δ τ ρ}
    (started : p.start = .started s) (draw : Renderers) (created began : TimePoint)
    (earlier : List ProbeCall) (model : PerformanceModel) (turns : List MonitorTurn) :
    ∃ probe m, StatsProbe.create created = .ok probe ∧
      run draw
        { session := s
          probe := (Machine.run StatsProbe.step probe earlier).reset began
          model := model
          page := PerformanceProperty.get model.stats } turns = .ok m ∧
      ∀ before now after, turns = before ++ .tick now :: after →
        after.all MonitorTurn.isWork = true →
        m.page = PerformanceProperty.get (statsAt draw s began before now) ∧
        (statsAt draw s began before now).toPipelineStats =
          (worked draw s before).pipeline.stats ∧
        (statsAt draw s began before now).p50InferenceLatencyMs ≤
          (statsAt draw s began before now).p95InferenceLatencyMs := by
  obtain ⟨probe, made, fresh⟩ := StatsProbe.create_keeps created
  have reset := StatsProbe.step_keeps (StatsProbe.run_keeps fresh earlier) (.reset began)
  have first : UpToDate draw s began []
      { session := s
        probe := (Machine.run StatsProbe.step probe earlier).reset began
        model := model
        page := PerformanceProperty.get model.stats } := by
    refine ⟨rfl, reset, ?_, rfl, ?_⟩
    · obtain ⟨source, positive, rfl⟩ := VisionPipeline.start_started started
      rfl
    · intro before now after split
      simp at split
  obtain ⟨m, ran, last⟩ := run_upToDate first turns
  refine ⟨probe, m, made, ran, ?_⟩
  intro before now after split quiet
  obtain ⟨early, -, known⟩ := run_upToDate first before
  refine ⟨by rw [last.page, last.latest before now after split quiet], ?_, ?_⟩
  · rw [← known.session, known.counters]
    rfl
  · exact StatsProbe.median_le_tail known.probe now

/-- One frame comes and is inferred, and the timer ticks two seconds after the start. -/
theorem fake_page_shows_session :
    ∃ probe m, StatsProbe.create 0 = .ok probe ∧
      run .plain
        { session := fakeSession
          probe := (Machine.run StatsProbe.step probe [.captured, .dropped 3]).reset 0
          model := {}
          page := PerformanceProperty.get {} }
        (List.replicate 7 (.work (.capture 0) 0 0) ++
          List.replicate 14 (.work .inference 8 20) ++ [.tick 2000000000]) = .ok m ∧
      m.page .capturedFrames = 1 ∧ m.page .droppedFrames = 0 ∧ m.page .inferenceFps = 1 / 2 ∧
      m.page .p95InferenceLatencyMs = 8 := by
  obtain ⟨probe, m, made, ran, known⟩ := page_shows_session fakePipeline_start .plain 0 0
    [.captured, .dropped 3] {} (List.replicate 7 (.work (.capture 0) 0 0) ++
      List.replicate 14 (.work .inference 8 20) ++ [.tick 2000000000])
  obtain ⟨page, -, -⟩ := known _ 2000000000 [] rfl rfl
  refine ⟨probe, m, made, ran, ?_⟩
  rw [page]
  decide +kernel

end Monitored

end VisionLab
