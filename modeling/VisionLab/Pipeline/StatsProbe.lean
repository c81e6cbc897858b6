import VisionLab.Core.LatencyWindow
import VisionLab.Pipeline.InferenceWorker

/-! The probe to which the workers report. It counts and keeps windows as the reports come; a
snapshot of it is a function of the reports since the last reset. -/
namespace VisionLab

open Checked (Fault)

/-- The statistics with their times. The counters of `PipelineStats` are what the model of the threads
keeps of them. -/
structure TimedStats extends PipelineStats where
  captureFps : ℚ := 0
  inferenceFps : ℚ := 0
  renderFps : ℚ := 0
  avgInferenceLatencyMs : ℚ := 0
  p50InferenceLatencyMs : ℚ := 0
  p95InferenceLatencyMs : ℚ := 0
  endToEndLatencyMs : ℚ := 0
  avgTrackingLatencyMs : ℚ := 0
  avgRuleLatencyMs : ℚ := 0
  deriving DecidableEq, Repr

structure StatsProbe where
  totals : TimedStats := {}
  latencies : LatencyWindow
  trackingLatencies : LatencyWindow
  ruleLatencies : LatencyWindow
  origin : TimePoint

/-- What a worker reports, and the reset by `start`. -/
inductive ProbeCall where
  | captured
  | dropped (count : ℕ)
  | inferred (inferenceLatencyMs endToEndLatencyMs : ℚ)
  | tracked (stats : TrackerStats) (trackingLatencyMs : ℚ)
  | ruled (stats : RuleEngineStats) (ruleLatencyMs : ℚ)
  | queueDepth (depth : ℕ)
  | reset (now : TimePoint)
  deriving DecidableEq, Repr

namespace StatsProbe

def create (now : TimePoint) : Except String StatsProbe := do
  let latencies ← LatencyWindow.create
  let trackingLatencies ← LatencyWindow.create
  let ruleLatencies ← LatencyWindow.create
  return {
    latencies := latencies
    trackingLatencies := trackingLatencies
    ruleLatencies := ruleLatencies
    origin := now }

def onCaptured (p : StatsProbe) : StatsProbe :=
  { p with totals := { p.totals with toPipelineStats := p.totals.onCaptured } }

def onDropped (count : ℕ) (p : StatsProbe) : StatsProbe :=
  { p with totals := { p.totals with toPipelineStats := p.totals.onDropped count } }

def onInferred (inferenceLatencyMs endToEndLatencyMs : ℚ) (p : StatsProbe) : StatsProbe :=
  { p with
    totals :=
      { p.totals with
        toPipelineStats := p.totals.onInferred
        endToEndLatencyMs := endToEndLatencyMs }
    latencies := p.latencies.record inferenceLatencyMs }

def onTracked (stats : TrackerStats) (trackingLatencyMs : ℚ) (p : StatsProbe) : StatsProbe :=
  { p with
    totals := { p.totals with toPipelineStats := p.totals.onTracked stats }
    trackingLatencies := p.trackingLatencies.record trackingLatencyMs }

def onRuled (stats : RuleEngineStats) (ruleLatencyMs : ℚ) (p : StatsProbe) : StatsProbe :=
  { p with
    totals := { p.totals with toPipelineStats := p.totals.onRuled stats }
    ruleLatencies := p.ruleLatencies.record ruleLatencyMs }

def setQueueDepth (depth : ℕ) (p : StatsProbe) : StatsProbe :=
  { p with totals := { p.totals with toPipelineStats := p.totals.setQueueDepth depth } }

def reset (now : TimePoint) (p : StatsProbe) : StatsProbe where
  totals := {}
  latencies := p.latencies.reset
  trackingLatencies := p.trackingLatencies.reset
  ruleLatencies := p.ruleLatencies.reset
  origin := now

/-- The time that has elapsed is zero or less if the clock has not moved. -/
def snapshot (now : TimePoint) (p : StatsProbe) : Except Fault TimedStats := do
  let p50 ← p.latencies.percentile 50
  let p95 ← p.latencies.percentile 95
  let elapsed := secondsBetween p.origin now
  return {
    p.totals with
    avgInferenceLatencyMs := p.latencies.mean
    p50InferenceLatencyMs := p50
    p95InferenceLatencyMs := p95
    avgTrackingLatencyMs := p.trackingLatencies.mean
    avgRuleLatencyMs := p.ruleLatencies.mean
    captureFps := if 0 < elapsed then p.totals.capturedFrames / elapsed else p.totals.captureFps
    inferenceFps :=
      if 0 < elapsed then p.totals.processedFrames / elapsed else p.totals.inferenceFps
    renderFps := if 0 < elapsed then p.totals.processedFrames / elapsed else p.totals.renderFps }

def step (p : StatsProbe) : ProbeCall → StatsProbe
  | .captured => p.onCaptured
  | .dropped count => p.onDropped count
  | .inferred inferenceLatencyMs endToEndLatencyMs =>
    p.onInferred inferenceLatencyMs endToEndLatencyMs
  | .tracked stats trackingLatencyMs => p.onTracked stats trackingLatencyMs
  | .ruled stats ruleLatencyMs => p.onRuled stats ruleLatencyMs
  | .queueDepth depth => p.setQueueDepth depth
  | .reset now => p.reset now

end StatsProbe

/- What the reports say, one kind at a time. -/

namespace ProbeCall

def isCaptured : ProbeCall → Bool
  | .captured => true
  | _ => false

def lost : ProbeCall → ℕ
  | .dropped count => count
  | _ => 0

def frame? : ProbeCall → Option (ℚ × ℚ)
  | .inferred inferenceLatencyMs endToEndLatencyMs => some (inferenceLatencyMs, endToEndLatencyMs)
  | _ => none

def tracker? : ProbeCall → Option (TrackerStats × ℚ)
  | .tracked stats trackingLatencyMs => some (stats, trackingLatencyMs)
  | _ => none

def rules? : ProbeCall → Option (RuleEngineStats × ℚ)
  | .ruled stats ruleLatencyMs => some (stats, ruleLatencyMs)
  | _ => none

def depth? : ProbeCall → Option ℕ
  | .queueDepth depth => some depth
  | _ => none

end ProbeCall

/-- The reports since the last reset, and when that was. -/
structure Reports where
  origin : TimePoint
  calls : List ProbeCall := []

namespace Reports

def add (r : Reports) : ProbeCall → Reports
  | .reset now => { origin := now }
  | call => { r with calls := r.calls ++ [call] }

def frames (r : Reports) : List (ℚ × ℚ) := r.calls.filterMap ProbeCall.frame?

def trackers (r : Reports) : List (TrackerStats × ℚ) := r.calls.filterMap ProbeCall.tracker?

def rules (r : Reports) : List (RuleEngineStats × ℚ) := r.calls.filterMap ProbeCall.rules?

def latest {α β : Type} (reports : List (α × β)) : Option α := (reports.map Prod.fst).getLast?

def counters (r : Reports) : PipelineStats :=
  let tracker := (latest r.trackers).getD {}
  let rules := (latest r.rules).getD {}
  { capturedFrames := r.calls.countP ProbeCall.isCaptured
    processedFrames := r.frames.length
    droppedFrames := (r.calls.map ProbeCall.lost).sum
    captureQueueDepth := (r.calls.filterMap ProbeCall.depth?).getLast?.getD 0
    activeTracks := tracker.activeTracks
    createdTracks := tracker.createdTracks
    lostTracks := tracker.lostTracks
    removedTracks := tracker.removedTracks
    eventsEmitted := rules.eventsEmitted
    enabledRules := rules.enabledRules }

def recent (latencies : List ℚ) : List ℚ := latencies.rtake 256

def average (latencies : List ℚ) : ℚ :=
  if latencies = [] then 0 else latencies.sum / latencies.length

/-- The value below which there are so many per cent of the latencies, with the values between two of
them on the line that joins these. -/
def quantile (percent : ℚ) (latencies : List ℚ) : ℚ :=
  if latencies = [] then 0
  else
    Samples.interpolate (fun i => (latencies.insertionSort (· ≤ ·)).getD i 0)
      (LatencyWindow.rank percent latencies.length)

def rate (frames : ℕ) (now : TimePoint) (r : Reports) : ℚ :=
  if r.origin < now then frames / secondsBetween r.origin now else 0

def summary (now : TimePoint) (r : Reports) : TimedStats where
  toPipelineStats := r.counters
  captureFps := r.rate r.counters.capturedFrames now
  inferenceFps := r.rate r.counters.processedFrames now
  renderFps := r.rate r.counters.processedFrames now
  avgInferenceLatencyMs := average (recent (r.frames.map Prod.fst))
  p50InferenceLatencyMs := quantile 50 (recent (r.frames.map Prod.fst))
  p95InferenceLatencyMs := quantile 95 (recent (r.frames.map Prod.fst))
  endToEndLatencyMs := (r.frames.map Prod.snd).getLast?.getD 0
  avgTrackingLatencyMs := average (recent (r.trackers.map Prod.snd))
  avgRuleLatencyMs := average (recent (r.rules.map Prod.snd))

end Reports

def PipelineStats.report (stats : PipelineStats) : ProbeCall → PipelineStats
  | .captured => stats.onCaptured
  | .dropped count => stats.onDropped count
  | .inferred _ _ => stats.onInferred
  | .tracked tracker _ => stats.onTracked tracker
  | .ruled rules _ => stats.onRuled rules
  | .queueDepth depth => stats.setQueueDepth depth
  | .reset _ => {}

namespace Reports

variable (r : Reports)

def isReset : ProbeCall → Bool
  | .reset _ => true
  | _ => false

theorem add_of_not_reset {call : ProbeCall} (other : isReset call = false) :
    r.add call = { r with calls := r.calls ++ [call] } := by
  cases call with
  | reset now => contradiction
  | _ => rfl

theorem frames_concat (call : ProbeCall) :
    ({ r with calls := r.calls ++ [call] } : Reports).frames = r.frames ++ call.frame?.toList := by
  cases here : call.frame? <;> simp [frames, here]

theorem trackers_concat (call : ProbeCall) :
    ({ r with calls := r.calls ++ [call] } : Reports).trackers =
      r.trackers ++ call.tracker?.toList := by
  cases here : call.tracker? <;> simp [trackers, here]

theorem rules_concat (call : ProbeCall) :
    ({ r with calls := r.calls ++ [call] } : Reports).rules = r.rules ++ call.rules?.toList := by
  cases here : call.rules? <;> simp [rules, here]

theorem counters_add (call : ProbeCall) : (r.add call).counters = r.counters.report call := by
  cases call with
  | reset now => rfl
  | _ =>
    rw [add_of_not_reset r rfl]
    simp [counters, frames_concat, trackers_concat, rules_concat, latest, ProbeCall.isCaptured,
      ProbeCall.lost, ProbeCall.frame?, ProbeCall.tracker?, ProbeCall.rules?, ProbeCall.depth?,
      PipelineStats.report, PipelineStats.onCaptured, PipelineStats.onDropped,
      PipelineStats.onInferred, PipelineStats.onTracked, PipelineStats.onRuled,
      PipelineStats.setQueueDepth]

end Reports

namespace LatencyWindow

/-- A window of the default capacity that has recorded these latencies since it was empty. -/
structure Holds (latencies : List ℚ) (w : LatencyWindow) : Prop where
  capacity : w.capacity = 256
  stored : w.fromOldest = Reports.recent latencies

variable {w : LatencyWindow} {latencies : List ℚ}

theorem Holds.record (h : w.Holds latencies) (milliseconds : ℚ) :
    (w.record milliseconds).Holds (latencies ++ [milliseconds]) := by
  refine ⟨(capacity_step w (.record milliseconds)).trans h.capacity, ?_⟩
  have stored : w.fromOldest = latencies.rtake w.capacity := by
    rw [h.capacity]
    exact h.stored
  rw [fromOldest_record stored, h.capacity]
  rfl

theorem Holds.reset (h : w.Holds latencies) : w.reset.Holds [] :=
  ⟨h.capacity, rfl⟩

theorem create_holds : ∃ w, create = .ok w ∧ w.Holds [] := by
  obtain ⟨w, made, capacity, empty⟩ := create_ok (by decide : 1 ≤ 256)
  exact ⟨w, made, capacity, by rw [fromOldest, empty, List.rotate_nil]; rfl⟩

theorem Holds.samples (h : w.Holds latencies) : w.samples.Perm (Reports.recent latencies) :=
  h.stored ▸ (List.rotate_perm _ _).symm

theorem Holds.mean (h : w.Holds latencies) :
    w.mean = Reports.average (Reports.recent latencies) :=
  mean_eq_of_perm h.samples

theorem Holds.percentile (h : w.Holds latencies) (percent : ℚ) :
    w.percentile percent = .ok (Reports.quantile percent (Reports.recent latencies)) := by
  have same := h.samples
  unfold Reports.quantile
  split
  · rename_i nothing
    exact percentile_empty (List.perm_nil.mp (nothing ▸ same)) percent
  · rename_i some_
    have filled : w.samples ≠ [] := fun empty => some_ (List.perm_nil.mp (empty ▸ same.symm))
    have sorted : (Reports.recent latencies).insertionSort (· ≤ ·) =
        w.samples.insertionSort (· ≤ ·) :=
      ((List.perm_insertionSort (· ≤ ·) _).trans
        (same.symm.trans (List.perm_insertionSort (· ≤ ·) _).symm)).eq_of_pairwise'
        (List.pairwise_insertionSort (· ≤ ·) _) (List.pairwise_insertionSort (· ≤ ·) _)
    rw [percentile_eq filled, sorted, same.length_eq]
    rfl

end LatencyWindow

namespace StatsProbe

/-- The probe has counted and kept what the reports say. -/
structure Keeps (r : Reports) (p : StatsProbe) : Prop where
  origin : p.origin = r.origin
  totals : p.totals =
    { toPipelineStats := r.counters, endToEndLatencyMs := (r.frames.map Prod.snd).getLast?.getD 0 }
  latencies : p.latencies.Holds (r.frames.map Prod.fst)
  trackingLatencies : p.trackingLatencies.Holds (r.trackers.map Prod.snd)
  ruleLatencies : p.ruleLatencies.Holds (r.rules.map Prod.snd)

variable {p : StatsProbe} {r : Reports}

theorem create_keeps (now : TimePoint) : ∃ p, create now = .ok p ∧ p.Keeps { origin := now } := by
  obtain ⟨w, made, empty⟩ := LatencyWindow.create_holds
  refine ⟨_, by simp only [create, made]; rfl, rfl, rfl, ?_, ?_, ?_⟩
  · exact empty
  · exact empty
  · exact empty

theorem step_keeps (h : p.Keeps r) (call : ProbeCall) : (p.step call).Keeps (r.add call) := by
  constructor
  case origin =>
    cases call with
    | reset now => rfl
    | _ => exact h.origin
  case totals =>
    rw [Reports.counters_add]
    cases call with
    | reset now => rfl
    | _ =>
      simp [step, onCaptured, onDropped, onInferred, onTracked, onRuled, setQueueDepth, h.totals,
        Reports.add, Reports.frames_concat, ProbeCall.frame?, PipelineStats.report]
  case latencies =>
    cases call with
    | reset now => exact h.latencies.reset
    | inferred inferenceLatencyMs endToEndLatencyMs =>
      simpa [step, onInferred, Reports.add, Reports.frames_concat, ProbeCall.frame?] using
        h.latencies.record inferenceLatencyMs
    | _ =>
      show p.latencies.Holds _
      simpa [Reports.add, Reports.frames_concat, ProbeCall.frame?] using h.latencies
  case trackingLatencies =>
    cases call with
    | reset now => exact h.trackingLatencies.reset
    | tracked stats trackingLatencyMs =>
      simpa [step, onTracked, Reports.add, Reports.trackers_concat, ProbeCall.tracker?] using
        h.trackingLatencies.record trackingLatencyMs
    | _ =>
      show p.trackingLatencies.Holds _
      simpa [Reports.add, Reports.trackers_concat, ProbeCall.tracker?] using h.trackingLatencies
  case ruleLatencies =>
    cases call with
    | reset now => exact h.ruleLatencies.reset
    | ruled stats ruleLatencyMs =>
      simpa [step, onRuled, Reports.add, Reports.rules_concat, ProbeCall.rules?] using
        h.ruleLatencies.record ruleLatencyMs
    | _ =>
      show p.ruleLatencies.Holds _
      simpa [Reports.add, Reports.rules_concat, ProbeCall.rules?] using h.ruleLatencies

theorem run_keeps (h : p.Keeps r) (calls : List ProbeCall) :
    (Machine.run step p calls).Keeps (Machine.run Reports.add r calls) := by
  induction calls generalizing p r with
  | nil => exact h
  | cons call calls ih => exact ih (step_keeps h call)

theorem secondsBetween_pos {previous current : TimePoint} :
    0 < secondsBetween previous current ↔ previous < current := by
  unfold secondsBetween
  rw [div_pos_iff_of_pos_right (by decide), Int.cast_pos, sub_pos]

/-- A snapshot is the summary of the reports. -/
theorem snapshot_summary (h : p.Keeps r) (now : TimePoint) :
    p.snapshot now = .ok (r.summary now) := by
  simp only [snapshot, h.latencies.percentile, bind, Except.bind, pure, Except.pure,
    h.latencies.mean, h.trackingLatencies.mean, h.ruleLatencies.mean, h.totals, h.origin,
    secondsBetween_pos]
  rfl

theorem median_le_tail (h : p.Keeps r) (now : TimePoint) :
    (r.summary now).p50InferenceLatencyMs ≤ (r.summary now).p95InferenceLatencyMs := by
  have shown : p.latencies.Shows p.latencies.fromOldest := LatencyWindow.shows_of_stored rfl
  simp only [Reports.summary]
  exact shown.increasing 50 95 _ _ (by norm_num) (h.latencies.percentile 50)
    (h.latencies.percentile 95)

end StatsProbe

end VisionLab
