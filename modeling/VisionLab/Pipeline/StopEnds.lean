import VisionLab.Lib.Progress
import VisionLab.Pipeline.FrameAccounting

/-! A stop of the pipeline comes to its end. `joinWorkers` raises both flags and closes the queue
before it waits, so neither worker can be left asleep in the queue or start over: each has a bounded
number of steps left, and nothing that another thread does gives it more. -/
namespace VisionLab
open Machine BoundedQueue

def StopPhase.progress : StopPhase → ℕ
  | .running => 0
  | .halted => 1
  | .captureStopped => 2
  | .inferenceStopped => 3
  | .sourceClosed => 4
  | .queueClosed => 5
  | .joined => 6

/-- The steps that the capture worker has left once it has to end and pushes nothing more. -/
def CaptureState.left : CaptureState → ℕ
  | .done => 0
  | .loop | .retry | .push _ _ => 1
  | .setDepth _ | .before _ => 2
  | .depth | .read => 3
  | .dropped _ => 4
  | .after _ => 5
  | .captured _ => 6

/-- The steps that the inference worker has left once it has to end and never waits. -/
def InferenceState.left : InferenceState → ℕ
  | .done => 0
  | .loop => 1
  | .presented => 2
  | .setDepth _ => 3
  | .depth => 4
  | .inferred => 5
  | .publish _ => 6
  | .render _ => 7
  | .ruled _ => 8
  | .log _ => 9
  | .rules _ => 10
  | .tracked _ => 11
  | .track _ => 12
  | .readMode _ => 13
  | .detect _ => 14
  | .provide _ => 15
  | .pop => 16

theorem CaptureState.left_le (state : CaptureState) : state.left ≤ 6 := by
  cases state <;> simp [left]

theorem InferenceState.left_le (state : InferenceState) : state.left ≤ 16 := by
  cases state <;> simp [left]

theorem CaptureState.left_eq_zero {state : CaptureState} : state.left = 0 ↔ state = .done := by
  cases state <;> simp [left]

theorem InferenceState.left_eq_zero {state : InferenceState} : state.left = 0 ↔ state = .done := by
  cases state <;> simp [left]

/-- The frames that the inference worker will still publish without another look at its flag. -/
def InferenceState.owes : InferenceState → ℕ
  | .pop | .provide _ | .detect _ | .readMode _ | .track _ | .tracked _ | .rules _ | .log _
  | .ruled _ | .render _ | .publish _ => 1
  | _ => 0

theorem InferenceState.owes_le (state : InferenceState) : state.owes ≤ 1 := by
  cases state <;> simp [owes]

namespace Label

def isCapture : Label → Bool
  | .capture _ => true
  | _ => false

def isInference : Label → Bool
  | .inference => true
  | _ => false

def isStop : Label → Bool
  | .stop => true
  | _ => false

end Label

namespace Session

variable {σ δ τ ρ : Type}

/-- Each of the three threads takes a step in the round. -/
def FairRound (round : List Label) : Prop :=
  round.any Label.isCapture = true ∧ round.any Label.isInference = true ∧
    round.any Label.isStop = true

instance (round : List Label) : Decidable (FairRound round) :=
  inferInstanceAs (Decidable (_ ∧ _ ∧ _))

structure Orderly (s : Session σ δ τ ρ) : Prop where
  capture : 2 ≤ s.stopping.progress → s.captureStop = true
  inference : 3 ≤ s.stopping.progress → s.inferenceStop = true
  queue : 5 ≤ s.stopping.progress → s.queue.queue.closed = true
  joined : s.stopping = .joined → s.ended = true

/-- The queue is closed, and so are both flags up. -/
structure Closing (s : Session σ δ τ ρ) : Prop extends Orderly s where
  closed : 5 ≤ s.stopping.progress

structure SameFlags (s after : Session σ δ τ ρ) : Prop where
  stopping : after.stopping = s.stopping
  captureStop : after.captureStop = s.captureStop
  inferenceStop : after.inferenceStop = s.inferenceStop
  closed : after.queue.queue.closed = s.queue.queue.closed

theorem Orderly.of_flags {s after : Session σ δ τ ρ} (h : s.Orderly) (flags : SameFlags s after)
    (stays : s.ended = true → after.ended = true) : after.Orderly := by
  constructor
  · rw [flags.stopping, flags.captureStop]
    exact h.capture
  · rw [flags.stopping, flags.inferenceStop]
    exact h.inference
  · rw [flags.stopping, flags.closed]
    exact h.queue
  · rw [flags.stopping]
    exact fun joined => stays (h.joined joined)

section Workers

variable [IVideoSource σ]

theorem captureStep_flags (now : TimePoint) (s : Session σ δ τ ρ) :
    SameFlags s (s.captureStep now) ∧ (s.captureStep now).inference = s.inference := by
  obtain ⟨source, captured, dropped, depth, queue, capture, frameId, after⟩ :=
    captureStep_changes now s
  have closed : (s.captureStep now).queue.queue.closed = s.queue.queue.closed := by
    rcases (captureStep_queue now s).2 with same | ⟨packet, _, _, pushed⟩
    · rw [same]
    · rw [pushed]
      exact (push_frame s.queue.queue packet).2.2
  refine ⟨⟨?_, ?_, ?_, closed⟩, ?_⟩ <;> rw [after]

theorem captureStep_done {s : Session σ δ τ ρ} (now : TimePoint) (done : s.capture = .done) :
    s.captureStep now = s := by
  simp only [captureStep, done]

/-- A closed queue takes no frame, so a step of the worker brings it nearer to its end. -/
theorem captureStep_left {s : Session σ δ τ ρ} (h : s.Closing) (now : TimePoint) :
    (s.captureStep now).capture.left ≤ s.capture.left - 1 := by
  have flag : s.captureMustEnd = true := by
    simp [captureMustEnd, h.capture (by have := h.closed; omega)]
  have shut := h.queue h.closed
  unfold captureStep
  cases state : s.capture with
  | loop => simp [flag, CaptureState.left]
  | read =>
    simp only
    split <;> simp [CaptureState.left]
  | retry => simp [flag, CaptureState.left]
  | push packet droppedBefore =>
    have refused : (s.queue.queue.push packet).2 = .closed := by
      have spec := push_spec s.queue.queue packet
      generalize s.queue.queue.push packet = result at spec ⊢
      cases spec <;> simp_all
    simp [refused, CaptureState.left]
  | after droppedBefore =>
    simp only
    split <;> simp [CaptureState.left]
  | done => simp [state, CaptureState.left]
  | _ => simp [CaptureState.left]

variable [IDetector δ] [ITracker τ] [IRule ρ]

omit [IVideoSource σ] in
theorem inferenceStep_flags (draw : Renderers) (s : Session σ δ τ ρ) :
    SameFlags s (s.inferenceStep draw) := by
  unfold inferenceStep
  split
  case h_2 => exact ⟨rfl, rfl, rfl, (pop_frame s.queue.queue).2.2.1⟩
  case h_6 f _ =>
    unfold trackStep
    split <;> exact ⟨rfl, rfl, rfl, rfl⟩
  case h_8 f _ =>
    unfold rulesStep
    split <;> exact ⟨rfl, rfl, rfl, rfl⟩
  all_goals exact ⟨rfl, rfl, rfl, rfl⟩

omit [IVideoSource σ] in
theorem inferenceStep_left {s : Session σ δ τ ρ} (h : s.Closing) (draw : Renderers) :
    (s.inferenceStep draw).inference.left ≤ s.inference.left - 1 := by
  have flag := h.inference (by have := h.closed; omega)
  have shut := h.queue h.closed
  unfold inferenceStep
  cases state : s.inference with
  | loop => simp [flag, InferenceState.left]
  | pop =>
    have answered : s.queue.queue.pop.2 ≠ .waits := by
      have spec := pop_spec s.queue.queue
      generalize s.queue.queue.pop = result at spec ⊢
      cases spec <;> simp_all
    simp only
    split <;> simp_all [InferenceState.left]
  | track f =>
    simp only [trackStep]
    split <;> simp [InferenceState.left]
  | rules f =>
    simp only [rulesStep]
    split <;> simp [InferenceState.left]
  | done => simp [state, InferenceState.left]
  | _ => simp [detectStep, readModeStep, setStats, InferenceState.left]

omit [IDetector δ] [ITracker τ] [IRule ρ] in
theorem stopStep_progress (s : Session σ δ τ ρ) :
    s.stopStep.capture = s.capture ∧ s.stopStep.inference = s.inference ∧
      s.stopStep.stopping.progress =
        if s.stopping = .joined ∨ s.stopping = .queueClosed ∧ s.ended = false then
          s.stopping.progress
        else s.stopping.progress + 1 := by
  unfold stopStep
  cases phase : s.stopping with
  | queueClosed =>
    by_cases spent : s.ended = true
    · simp [spent, StopPhase.progress]
    · simp [spent, phase]
  | _ => simp [phase, StopPhase.progress]

omit [IDetector δ] [ITracker τ] [IRule ρ] in
theorem stopStep_orderly {s : Session σ δ τ ρ} (h : s.Orderly) : s.stopStep.Orderly := by
  obtain ⟨capture, inference, queue, joined⟩ := h
  unfold stopStep
  cases phase : s.stopping with
  | queueClosed =>
    simp only [phase, StopPhase.progress] at capture inference queue
    simp only
    split
    · rename_i spent
      exact ⟨fun _ => capture (by decide), fun _ => inference (by decide),
        fun _ => queue (by decide), fun _ => spent⟩
    · constructor <;> simp_all [StopPhase.progress]
  | joined =>
    simp only
    exact ⟨capture, inference, queue, joined⟩
  | _ =>
    simp only [phase, StopPhase.progress] at capture inference queue
    constructor <;> simp_all [StopPhase.progress, BoundedQueue.Traced.close, BoundedQueue.close]

theorem step_orderly (draw : Renderers) (s : Session σ δ τ ρ) (label : Label) (h : s.Orderly) :
    (s.step draw label).Orderly := by
  cases label with
  | capture now =>
    refine h.of_flags (captureStep_flags now s).1 (fun spent => ?_)
    obtain ⟨capture, inference⟩ := (ended_iff s).mp spent
    refine (ended_iff _).mpr ⟨?_, (captureStep_flags now s).2.trans inference⟩
    simp only [step, captureStep_done now capture, capture]
  | inference =>
    refine h.of_flags (inferenceStep_flags draw s) (fun spent => ?_)
    obtain ⟨capture, inference⟩ := (ended_iff s).mp spent
    refine (ended_iff _).mpr ⟨(inferenceStep_frame draw s).capture.trans capture, ?_⟩
    simp only [step, inferenceStep, inference]
  | setMode mode => exact h.of_flags ⟨rfl, rfl, rfl, rfl⟩ id
  | stop => exact stopStep_orderly h

theorem step_progress (draw : Renderers) (s : Session σ δ τ ρ) (label : Label) :
    s.stopping.progress ≤ (s.step draw label).stopping.progress := by
  cases label with
  | capture now =>
    simp only [step, (captureStep_flags now s).1.stopping]
    exact le_refl _
  | inference =>
    simp only [step, (inferenceStep_flags draw s).stopping]
    exact le_refl _
  | setMode mode => exact le_refl _
  | stop =>
    have moved := (stopStep_progress s).2.2
    simp only [step]
    split at moved <;> omega

theorem step_closing (draw : Renderers) (s : Session σ δ τ ρ) (label : Label) (h : s.Closing) :
    (s.step draw label).Closing :=
  ⟨step_orderly draw s label h.toOrderly, h.closed.trans (step_progress draw s label)⟩

theorem step_capture_left (draw : Renderers) (s : Session σ δ τ ρ) (label : Label)
    (h : s.Closing) : (s.step draw label).capture.left ≤ s.capture.left ∧
      (label.isCapture = true → (s.step draw label).capture.left ≤ s.capture.left - 1) := by
  cases label with
  | capture now =>
    have less := captureStep_left h now
    exact ⟨less.trans (Nat.sub_le _ _), fun _ => less⟩
  | inference =>
    simp only [step, (inferenceStep_frame draw s).capture]
    exact ⟨le_refl _, fun own => by cases own⟩
  | setMode mode => exact ⟨le_refl _, fun own => by cases own⟩
  | stop =>
    simp only [step, (stopStep_progress s).1]
    exact ⟨le_refl _, fun own => by cases own⟩

theorem step_inference_left (draw : Renderers) (s : Session σ δ τ ρ) (label : Label)
    (h : s.Closing) : (s.step draw label).inference.left ≤ s.inference.left ∧
      (label.isInference = true →
        (s.step draw label).inference.left ≤ s.inference.left - 1) := by
  cases label with
  | capture now =>
    simp only [step, (captureStep_flags now s).2]
    exact ⟨le_refl _, fun own => by cases own⟩
  | inference =>
    have less := inferenceStep_left h draw
    exact ⟨less.trans (Nat.sub_le _ _), fun _ => less⟩
  | setMode mode => exact ⟨le_refl _, fun own => by cases own⟩
  | stop =>
    simp only [step, (stopStep_progress s).2.1]
    exact ⟨le_refl _, fun own => by cases own⟩

theorem step_over (draw : Renderers) (s : Session σ δ τ ρ) (label : Label)
    (h : s.Closing ∧ s.ended = true) :
    (s.step draw label).Closing ∧ (s.step draw label).ended = true := by
  obtain ⟨capture, inference⟩ := (ended_iff s).mp h.2
  have captureLess := (step_capture_left draw s label h.1).1
  have inferenceLess := (step_inference_left draw s label h.1).1
  rw [CaptureState.left_eq_zero.mpr capture] at captureLess
  rw [InferenceState.left_eq_zero.mpr inference] at inferenceLess
  exact ⟨step_closing draw s label h.1, (ended_iff _).mpr
    ⟨CaptureState.left_eq_zero.mp (Nat.le_zero.mp captureLess),
      InferenceState.left_eq_zero.mp (Nat.le_zero.mp inferenceLess)⟩⟩

/- The three parts of a stop. -/

theorem stop_closes (draw : Renderers) :
    Within (step (σ := σ) (δ := δ) (τ := τ) (ρ := ρ) draw) FairRound 5 Orderly Closing := by
  have closing := Within.of_rank (step (σ := σ) (δ := δ) (τ := τ) (ρ := ρ) draw) FairRound
    (fun s => 5 - s.stopping.progress) Label.isStop (step_orderly draw) ?_ ?_
    (fun _ fair => fair.2.2) (fun s _ => Nat.sub_le _ _)
  · refine closing.mono (le_refl _) (fun s after => ⟨after.1, ?_⟩)
    omega
  · intro s label _
    have := step_progress draw s label
    omega
  · rintro s (_ | _ | _ | _) _ own
    · contradiction
    · contradiction
    · contradiction
    · have moved := (stopStep_progress s).2.2
      simp only [step]
      split at moved
      · rename_i waits
        have late : 5 ≤ s.stopping.progress := by
          rcases waits with phase | ⟨phase, _⟩ <;> simp [phase, StopPhase.progress]
        omega
      · omega

theorem workers_end (draw : Renderers) :
    Within (step (σ := σ) (δ := δ) (τ := τ) (ρ := ρ) draw) FairRound 16 Closing
      (fun s => s.Closing ∧ s.ended = true) := by
  have capture := Within.of_rank (step (σ := σ) (δ := δ) (τ := τ) (ρ := ρ) draw) FairRound
    (fun s => s.capture.left) Label.isCapture (step_closing draw)
    (fun s label h => (step_capture_left draw s label h).1)
    (fun s label h => (step_capture_left draw s label h).2) (fun _ fair => fair.1)
    (fun s _ => s.capture.left_le)
  have inference := Within.of_rank (step (σ := σ) (δ := δ) (τ := τ) (ρ := ρ) draw) FairRound
    (fun s => s.inference.left) Label.isInference (step_closing draw)
    (fun s label h => (step_inference_left draw s label h).1)
    (fun s label h => (step_inference_left draw s label h).2) (fun _ fair => fair.2.1)
    (fun s _ => s.inference.left_le)
  refine (capture.and inference).mono (by decide) (fun s done => ⟨done.1.1, ?_⟩)
  exact (ended_iff s).mpr
    ⟨CaptureState.left_eq_zero.mp done.1.2, InferenceState.left_eq_zero.mp done.2.2⟩

theorem stop_joins (draw : Renderers) :
    Within (step (σ := σ) (δ := δ) (τ := τ) (ρ := ρ) draw) FairRound 1
      (fun s => s.Closing ∧ s.ended = true) (fun s => s.stopping = .joined) := by
  have joining := Within.of_rank (step (σ := σ) (δ := δ) (τ := τ) (ρ := ρ) draw) FairRound
    (fun s => 6 - s.stopping.progress) Label.isStop (step_over draw) ?_ ?_
    (fun _ fair => fair.2.2) (n := 1) ?_
  · refine joining.mono (le_refl _) (fun s after => ?_)
    revert after
    cases s.stopping <;> simp [StopPhase.progress]
  · intro s label _
    have := step_progress draw s label
    omega
  · rintro s (_ | _ | _ | _) h own
    · contradiction
    · contradiction
    · contradiction
    · have moved := (stopStep_progress s).2.2
      simp only [step]
      split at moved
      · rename_i waits
        rcases waits with phase | ⟨_, spent⟩
        · rw [moved, phase]
          decide
        · exact absurd (h.2.symm.trans spent) (by decide)
      · omega
  · intro s h
    have := h.1.closed
    omega

/-- While its flag is up, the worker publishes no frame but the one it may be at. -/
theorem step_published (draw : Renderers) (s : Session σ δ τ ρ) (label : Label)
    (flag : s.inferenceStop = true) : (s.step draw label).inferenceStop = true ∧
      (s.step draw label).record.published.length + (s.step draw label).inference.owes ≤
        s.record.published.length + s.inference.owes := by
  cases label with
  | capture now =>
    have aside := captureStep_aside now s
    simp only [step, (captureStep_flags now s).1.inferenceStop, aside.published, aside.inference]
    exact ⟨flag, le_refl _⟩
  | inference =>
    refine ⟨(inferenceStep_flags draw s).inferenceStop.trans flag, ?_⟩
    simp only [step, inferenceStep]
    cases state : s.inference with
    | loop => simp [flag, InferenceState.owes]
    | pop =>
      simp only
      split <;> simp [InferenceState.owes]
    | readMode f =>
      simp only [readModeStep_published]
      simp [readModeStep, InferenceState.owes]
    | track f =>
      simp only [trackStep]
      split <;> simp [InferenceState.owes]
    | rules f =>
      simp only [rulesStep]
      split <;> simp [InferenceState.owes]
    | done => simp [state, InferenceState.owes]
    | _ => simp [detectStep, setStats, InferenceState.owes]
  | setMode mode => exact ⟨flag, le_refl _⟩
  | stop =>
    have aside := stopStep_aside s
    simp only [step, aside.published, aside.inference]
    refine ⟨?_, le_refl _⟩
    unfold stopStep
    split
    case h_6 => split <;> exact flag
    all_goals first | exact flag | rfl

theorem run_published (draw : Renderers) {s : Session σ δ τ ρ} (flag : s.inferenceStop = true)
    (labels : List Label) :
    (s.run draw labels).record.published.length ≤ s.record.published.length + 1 := by
  have bound : (s.run draw labels).inferenceStop = true ∧
      (s.run draw labels).record.published.length + (s.run draw labels).inference.owes ≤
        s.record.published.length + s.inference.owes := by
    refine Machine.run_invariant (P := fun after : Session σ δ τ ρ => after.inferenceStop = true ∧
      after.record.published.length + after.inference.owes ≤
        s.record.published.length + s.inference.owes) ⟨flag, le_refl _⟩ ?_ labels
    intro after label h
    have published := step_published draw after label h.1
    exact ⟨published.1, published.2.trans h.2⟩
  have owes := s.inference.owes_le
  have total := bound.2
  omega

omit [IDetector δ] in
theorem start_orderly {p : VisionPipeline σ δ τ ρ} {s : Session σ δ τ ρ}
    (started : p.start = .started s) : s.Orderly := by
  obtain ⟨source, positive, rfl⟩ := VisionPipeline.start_started started
  constructor <;> simp [StopPhase.progress]

/-- How a session goes on from `s` when it is being stopped. -/
structure EndsSoon (s after : Session σ δ τ ρ) : Prop where
  joined : after.stopping = .joined
  ended : after.ended = true
  published : s.inferenceStop = true →
    after.record.published.length ≤ s.record.published.length + 1

theorem stop_ends_soon {p : VisionPipeline σ δ τ ρ} {s : Session σ δ τ ρ}
    (started : p.start = .started s) (draw : Renderers) (before : List Label)
    (rounds : List (List Label)) (fair : ∀ round ∈ rounds, FairRound round)
    (long : 22 ≤ rounds.length) :
    EndsSoon (s.run draw before) ((s.run draw before).run draw rounds.flatten) := by
  have orderly : (s.run draw before).Orderly :=
    Machine.run_invariant (start_orderly started) (step_orderly draw) before
  have whole := ((stop_closes (σ := σ) (δ := δ) (τ := τ) (ρ := ρ) draw).trans
    (workers_end draw)).trans (stop_joins draw)
  have joined := whole _ orderly rounds fair long
  exact ⟨joined, (Machine.run_invariant orderly (step_orderly draw) rounds.flatten).joined joined,
    fun flag => run_published draw flag rounds.flatten⟩

end Workers

/-- A frame is on its way when the pipeline is stopped. -/
theorem fake_stop_ends_soon :
    EndsSoon (fakeSession.run .plain (List.replicate 7 (.capture 0) ++ [.inference, .stop]))
      ((fakeSession.run .plain (List.replicate 7 (.capture 0) ++ [.inference, .stop])).run .plain
        (List.replicate 22 [.inference, .setMode .object, .capture 0, .stop]).flatten) :=
  stop_ends_soon fakePipeline_start .plain _ _ (by decide) (by decide)

end Session

end VisionLab
