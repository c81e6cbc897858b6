import Mathlib.Data.List.Pairwise
import VisionLab.Pipeline.Fakes

/-! The frame balance of a session. Each worker's counters agree with the history of the queue at
every point of its iteration; the two agreements do not see each other's steps. -/
namespace VisionLab
open BoundedQueue

/-- How the capture counters stand to the queue, by the point the worker has reached: `accepted`
frames pushed, `evicted` of them dropped by the queue. -/
def CaptureState.Agrees (accepted evicted : ℕ) (frameId : ℤ) (stats : PipelineStats) :
    CaptureState → Prop
  | .loop | .read | .retry | .depth | .setDepth _ =>
    frameId = accepted ∧ stats.capturedFrames = accepted ∧ stats.droppedFrames = evicted
  | .before packet =>
    packet.frameId = accepted + 1 ∧ frameId = accepted + 1 ∧
      stats.capturedFrames = accepted ∧ stats.droppedFrames = evicted
  | .push packet droppedBefore =>
    packet.frameId = accepted + 1 ∧ frameId = accepted + 1 ∧
      stats.capturedFrames = accepted ∧ stats.droppedFrames = evicted ∧ droppedBefore = evicted
  | .captured droppedBefore =>
    frameId = accepted ∧ stats.capturedFrames + 1 = accepted ∧
      stats.droppedFrames = droppedBefore ∧ droppedBefore ≤ evicted
  | .after droppedBefore =>
    frameId = accepted ∧ stats.capturedFrames = accepted ∧
      stats.droppedFrames = droppedBefore ∧ droppedBefore ≤ evicted
  | .dropped count =>
    frameId = accepted ∧ stats.capturedFrames = accepted ∧ stats.droppedFrames + count = evicted
  | .done => stats.capturedFrames = accepted ∧ stats.droppedFrames = evicted

/-- How publication and the inference counter stand to the popped frames, by the point the worker
has reached. -/
def InferenceState.Agrees (returned : List FramePacket) (published : List PresentedFrame)
    (stats : PipelineStats) : InferenceState → Prop
  | .loop | .pop | .depth | .setDepth _ | .presented | .done =>
    published.map PresentedFrame.frameId = returned.map FramePacket.frameId ∧
      stats.processedFrames = returned.length
  | .provide f | .detect f | .readMode f | .track f | .tracked f | .rules f | .log f | .ruled f
  | .render f | .publish f =>
    published.map PresentedFrame.frameId ++ [f.presented.frameId] =
        returned.map FramePacket.frameId ∧
      stats.processedFrames + 1 = returned.length
  | .inferred =>
    published.map PresentedFrame.frameId = returned.map FramePacket.frameId ∧
      stats.processedFrames + 1 = returned.length

def CaptureState.atRest : CaptureState → Bool
  | .loop | .read | .retry | .done => true
  | _ => false

def InferenceState.atRest : InferenceState → Bool
  | .loop | .pop | .done => true
  | _ => false

def InferenceState.inHand : InferenceState → List ℤ
  | .provide f | .detect f | .readMode f | .track f | .tracked f | .rules f | .log f | .ruled f
  | .render f | .publish f => [f.presented.frameId]
  | _ => []

theorem CaptureState.Agrees.congr {accepted evicted : ℕ} {frameId : ℤ}
    {stats after : PipelineStats} {state : CaptureState}
    (h : state.Agrees accepted evicted frameId stats)
    (captured : after.capturedFrames = stats.capturedFrames)
    (dropped : after.droppedFrames = stats.droppedFrames) :
    state.Agrees accepted evicted frameId after := by
  cases state <;> simpa only [CaptureState.Agrees, captured, dropped] using h

theorem InferenceState.Agrees.congr {returned : List FramePacket}
    {published : List PresentedFrame} {stats after : PipelineStats} {state : InferenceState}
    (h : state.Agrees returned published stats)
    (processed : after.processedFrames = stats.processedFrames) :
    state.Agrees returned published after := by
  cases state <;> simpa only [InferenceState.Agrees, processed] using h

theorem CaptureState.Agrees.at_rest {accepted evicted : ℕ} {frameId : ℤ} {stats : PipelineStats}
    {state : CaptureState} (h : state.Agrees accepted evicted frameId stats)
    (rest : state.atRest = true) :
    stats.capturedFrames = accepted ∧ stats.droppedFrames = evicted := by
  cases state with
  | loop => exact h.2
  | read => exact h.2
  | retry => exact h.2
  | done => exact h
  | _ => contradiction

theorem InferenceState.Agrees.in_hand {returned : List FramePacket}
    {published : List PresentedFrame} {stats : PipelineStats} {state : InferenceState}
    (h : state.Agrees returned published stats) :
    published.map PresentedFrame.frameId ++ state.inHand = returned.map FramePacket.frameId := by
  cases state <;> simpa only [inHand, List.append_nil] using h.1

theorem InferenceState.Agrees.counted {returned : List FramePacket}
    {published : List PresentedFrame} {stats : PipelineStats} {state : InferenceState}
    (h : state.Agrees returned published stats) :
    stats.processedFrames ≤ published.length ∧ published.length ≤ stats.processedFrames + 1 := by
  have lengths := congrArg List.length h.in_hand
  simp only [List.length_append, List.length_map] at lengths
  cases state <;> (
    have count := h.2
    simp only [inHand, List.length_nil, List.length_singleton] at lengths
    omega)

theorem InferenceState.Agrees.at_rest {returned : List FramePacket}
    {published : List PresentedFrame} {stats : PipelineStats} {state : InferenceState}
    (h : state.Agrees returned published stats) (rest : state.atRest = true) :
    published.map PresentedFrame.frameId = returned.map FramePacket.frameId ∧
      stats.processedFrames = returned.length := by
  cases state with
  | loop => exact h
  | pop => exact h
  | done => exact h
  | _ => contradiction

def frameIds (n : ℕ) : List ℤ := (List.range' 1 n).map (fun i : ℕ => (i : ℤ))

theorem frameIds_succ (n : ℕ) : frameIds (n + 1) = frameIds n ++ [(n : ℤ) + 1] := by
  have last : ((1 + n : ℕ) : ℤ) = n + 1 := by omega
  simp only [frameIds, List.range'_1_concat, List.map_append, List.map_cons, List.map_nil, last]

theorem frameIds_increasing (n : ℕ) : (frameIds n).Pairwise (· < ·) := by
  rw [frameIds, List.pairwise_map]
  exact (List.pairwise_lt_range' 1).imp (fun h => by omega)

theorem numbered_getElem {packets : List FramePacket}
    (numbered : packets.map FramePacket.frameId = frameIds packets.length) {i : ℕ}
    (inside : i < packets.length) : packets[i].frameId = i + 1 := by
  have here := congrArg (fun ids => ids[i]?) numbered
  simp only [List.getElem?_map, List.getElem?_eq_getElem inside, Option.map_some, frameIds,
    List.getElem?_range' inside] at here
  have value := Option.some.inj here
  omega

namespace Session

variable {σ δ τ ρ : Type}

def accepted (s : Session σ δ τ ρ) : List FramePacket := s.queue.history.accepted
def returned (s : Session σ δ τ ρ) : List FramePacket := s.queue.history.returned

structure Balanced (s : Session σ δ τ ρ) : Prop where
  lawful : s.queue.Lawful
  policy : s.queue.queue.policy = .dropOldest
  numbered : s.accepted.map FramePacket.frameId = frameIds s.accepted.length
  capture : s.capture.Agrees s.accepted.length s.queue.queue.dropped s.frameId s.pipeline.stats
  inference : s.inference.Agrees s.returned s.record.published s.pipeline.stats
  joined : s.stopping = .joined →
    s.ended = true ∧ s.record.leftover = s.queue.queue.queue

/- What a push and a pop do to the history, under the policy of the pipeline. -/

theorem push_returned (q : Traced FramePacket) (packet : FramePacket) :
    (q.push packet).history.returned = q.history.returned := by
  unfold Traced.push History.afterPush
  split <;> rfl

theorem push_accepted (q : Traced FramePacket) (packet : FramePacket) :
    ((∃ e, (q.queue.push packet).2 = .accepted e) ∧
      (q.push packet).history.accepted = q.history.accepted ++ [packet] ∧
      q.queue.dropped ≤ (q.push packet).queue.dropped) ∨
    ((∀ e, (q.queue.push packet).2 ≠ .accepted e) ∧
      (q.push packet).history.accepted = q.history.accepted ∧
      (q.queue.policy = .dropOldest → (q.queue.push packet).2 = .closed ∧
        (q.push packet).queue.dropped = q.queue.dropped)) := by
  have spec := push_spec q.queue packet
  unfold Traced.push
  generalize q.queue.push packet = result at spec ⊢
  cases spec with
  | waits blocking => exact Or.inr ⟨by simp, rfl, by simp [blocking]⟩
  | closed => exact Or.inr ⟨by simp, rfl, fun _ => ⟨rfl, rfl⟩⟩
  | full newest => exact Or.inr ⟨by simp, rfl, by simp [newest]⟩
  | evicts front rest => exact Or.inl ⟨⟨_, rfl⟩, rfl, Nat.le_succ _⟩
  | appends => exact Or.inl ⟨⟨_, rfl⟩, rfl, Nat.le_refl _⟩

theorem pop_accepted (q : Traced FramePacket) : q.pop.history.accepted = q.history.accepted := by
  unfold Traced.pop History.afterPop
  split <;> rfl

theorem pop_returned (q : Traced FramePacket) : q.pop.history.returned =
    match q.queue.pop.2 with
    | .item packet => q.history.returned ++ [packet]
    | .waits | .drained => q.history.returned := by
  unfold Traced.pop History.afterPop
  cases q.queue.pop.2 <;> rfl

/- A capture step. -/

section Capture

variable [IVideoSource σ]

theorem captureStep_queue (now : TimePoint) (s : Session σ δ τ ρ) :
    (s.captureStep now).stopping = s.stopping ∧
      ((s.captureStep now).queue = s.queue ∨ ∃ packet droppedBefore,
        s.capture = .push packet droppedBefore ∧
          (s.captureStep now).queue = s.queue.push packet) := by
  unfold captureStep
  split
  case h_2 => split <;> exact ⟨rfl, Or.inl rfl⟩
  case h_5 packet droppedBefore pc => exact ⟨rfl, Or.inr ⟨packet, droppedBefore, pc, rfl⟩⟩
  all_goals exact ⟨rfl, Or.inl rfl⟩

theorem captureStep_frame (now : TimePoint) (s : Session σ δ τ ρ) :
    (s.captureStep now).returned = s.returned ∧
      (s.captureStep now).queue.queue.policy = s.queue.queue.policy := by
  rcases (captureStep_queue now s).2 with same | ⟨packet, _, _, pushed⟩
  · simp only [returned, same, and_self]
  · simp only [returned, pushed]
    exact ⟨push_returned s.queue packet, (push_frame s.queue.queue packet).2.1⟩

theorem captureStep_lawful {s : Session σ δ τ ρ} (h : s.Balanced) (now : TimePoint) :
    (s.captureStep now).queue.Lawful := by
  rcases (captureStep_queue now s).2 with same | ⟨packet, _, _, pushed⟩
  · rw [same]
    exact h.lawful
  · rw [pushed]
    exact Traced.push_lawful h.lawful packet

theorem captureStep_numbered {s : Session σ δ τ ρ} (h : s.Balanced) (now : TimePoint) :
    (s.captureStep now).accepted.map FramePacket.frameId =
      frameIds (s.captureStep now).accepted.length := by
  have numbered := h.numbered
  simp only [accepted] at numbered ⊢
  rcases (captureStep_queue now s).2 with same | ⟨packet, _, pc, pushed⟩
  · simpa only [same] using numbered
  · have agrees := h.capture
    rw [pc] at agrees
    rw [pushed]
    rcases push_accepted s.queue packet with ⟨-, more, -⟩ | ⟨-, unchanged, -⟩
    · rw [more, List.map_append, List.length_append, numbered, List.length_singleton,
        frameIds_succ, List.map_singleton, agrees.1]
      rfl
    · simpa only [unchanged] using numbered

theorem captureStep_agrees {s : Session σ δ τ ρ} (h : s.Balanced) (now : TimePoint) :
    (s.captureStep now).capture.Agrees (s.captureStep now).accepted.length
      (s.captureStep now).queue.queue.dropped (s.captureStep now).frameId
      (s.captureStep now).pipeline.stats := by
  have agrees := h.capture
  unfold captureStep
  generalize pc : s.capture = state at agrees ⊢
  cases state with
  | loop =>
    simp only
    split
    · exact agrees.2
    · exact agrees
  | read =>
    obtain ⟨frame, captured, dropped⟩ := agrees
    have kept := s.pipeline.readSource_snd
    simp only
    split
    · rename_i image pipeline read
      rw [read] at kept
      subst kept
      refine ⟨?_, ?_, captured, dropped⟩
      · change s.frameId + 1 = _
        rw [frame]
        rfl
      · rw [frame]
        rfl
    · rename_i pipeline read
      rw [read] at kept
      subst kept
      exact ⟨frame, captured, dropped⟩
  | retry =>
    simp only
    split
    · exact agrees.2
    · exact agrees
  | before packet =>
    obtain ⟨number, frame, captured, dropped⟩ := agrees
    exact ⟨number, frame, captured, dropped, rfl⟩
  | push packet droppedBefore =>
    obtain ⟨number, frame, captured, dropped, before⟩ := agrees
    simp only [accepted] at captured frame ⊢
    rcases push_accepted s.queue packet with ⟨⟨e, result⟩, more, grows⟩ | ⟨-, same, refused⟩
    · rw [result, more]
      have length : (s.queue.history.accepted ++ [packet]).length =
          s.queue.history.accepted.length + 1 := List.length_append
      refine ⟨?_, ?_, ?_, ?_⟩
      · rw [frame, length]
        rfl
      · rw [captured, length]
      · rw [dropped, before]
      · rw [before]
        exact grows
    · obtain ⟨result, still⟩ := refused h.policy
      rw [result, same, still]
      exact ⟨captured, dropped⟩
  | captured droppedBefore =>
    exact agrees
  | after droppedBefore =>
    obtain ⟨frame, captured, dropped, bound⟩ := agrees
    by_cases more : droppedBefore < s.queue.queue.droppedCount
    · simp only [if_pos more]
      refine ⟨frame, captured, ?_⟩
      rw [dropped]
      exact Nat.add_sub_cancel' bound
    · simp only [if_neg more]
      exact ⟨frame, captured, dropped.trans (Nat.le_antisymm bound (Nat.le_of_not_lt more))⟩
  | dropped count =>
    exact agrees
  | depth =>
    exact agrees
  | setDepth depth =>
    exact agrees
  | done =>
    simp only
    rw [pc]
    exact agrees

end Capture

/- An inference step. -/

section Inference

variable [ITracker τ] [IRule ρ]

structure InferenceFrame (s after : Session σ δ τ ρ) : Prop where
  capture : after.capture = s.capture
  frameId : after.frameId = s.frameId
  stopping : after.stopping = s.stopping
  accepted : after.accepted = s.accepted
  policy : after.queue.queue.policy = s.queue.queue.policy
  evicted : after.queue.queue.dropped = s.queue.queue.dropped
  capturedFrames : after.pipeline.stats.capturedFrames = s.pipeline.stats.capturedFrames
  droppedFrames : after.pipeline.stats.droppedFrames = s.pipeline.stats.droppedFrames

omit [ITracker τ] [IRule ρ] in
theorem InferenceFrame.of_eq {s after : Session σ δ τ ρ} (capture : after.capture = s.capture)
    (frameId : after.frameId = s.frameId) (stopping : after.stopping = s.stopping)
    (queue : after.queue = s.queue)
    (captured : after.pipeline.stats.capturedFrames = s.pipeline.stats.capturedFrames)
    (dropped : after.pipeline.stats.droppedFrames = s.pipeline.stats.droppedFrames) :
    InferenceFrame s after :=
  ⟨capture, frameId, stopping, by simp only [Session.accepted, queue], by rw [queue],
    by rw [queue], captured, dropped⟩

variable [IDetector δ]

theorem inferenceStep_frame (draw : Renderers) (s : Session σ δ τ ρ) :
    InferenceFrame s (s.inferenceStep draw) := by
  unfold inferenceStep
  split
  case h_2 =>
    have frame := pop_frame s.queue.queue
    exact ⟨rfl, rfl, rfl, pop_accepted s.queue, frame.2.1, frame.2.2.2, rfl, rfl⟩
  case h_5 f _ => exact .of_eq rfl rfl rfl rfl (by simp) (by simp)
  case h_6 f _ =>
    unfold trackStep
    split <;> exact .of_eq rfl rfl rfl rfl rfl rfl
  case h_8 f _ =>
    unfold rulesStep
    split <;> exact .of_eq rfl rfl rfl rfl rfl rfl
  all_goals exact .of_eq rfl rfl rfl rfl rfl rfl

theorem inferenceStep_lawful {s : Session σ δ τ ρ} (h : s.Balanced) (draw : Renderers) :
    (s.inferenceStep draw).queue.Lawful := by
  unfold inferenceStep
  split
  case h_2 => exact Traced.pop_lawful h.lawful
  case h_6 f _ =>
    unfold trackStep
    split <;> exact h.lawful
  case h_8 f _ =>
    unfold rulesStep
    split <;> exact h.lawful
  all_goals exact h.lawful

theorem inferenceStep_agrees {s : Session σ δ τ ρ} (h : s.Balanced) (draw : Renderers) :
    (s.inferenceStep draw).inference.Agrees (s.inferenceStep draw).returned
      (s.inferenceStep draw).record.published (s.inferenceStep draw).pipeline.stats := by
  have agrees := h.inference
  unfold inferenceStep
  generalize pc : s.inference = state at agrees ⊢
  cases state with
  | loop =>
    simp only
    split <;> exact agrees
  | pop =>
    obtain ⟨ids, count⟩ := agrees
    have after := pop_returned s.queue
    simp only [returned] at ids count ⊢
    cases result : s.queue.queue.pop.2 with
    | waits =>
      rw [result] at after
      simp only at after ⊢
      rw [after]
      exact ⟨ids, count⟩
    | drained =>
      rw [result] at after
      simp only at after ⊢
      rw [after]
      exact ⟨ids, count⟩
    | item packet =>
      rw [result] at after
      simp only at after ⊢
      rw [after]
      refine ⟨?_, ?_⟩
      · rw [ids, List.map_append]
        rfl
      · rw [count, List.length_append, List.length_singleton]
  | provide f =>
    exact agrees
  | detect f =>
    exact agrees
  | readMode f =>
    simp only
    rw [readModeStep_stats, readModeStep_published]
    exact agrees
  | track f =>
    simp only [trackStep]
    split <;> exact agrees
  | tracked f =>
    exact agrees
  | rules f =>
    simp only [rulesStep]
    split <;> exact agrees
  | log f =>
    exact agrees
  | ruled f =>
    exact agrees
  | render f =>
    obtain ⟨ids, count⟩ := agrees
    refine ⟨?_, count⟩
    rw [InferenceWorker.render_frameId]
    exact ids
  | publish f =>
    obtain ⟨ids, count⟩ := agrees
    refine ⟨?_, count⟩
    rw [List.map_append]
    exact ids
  | inferred =>
    exact agrees
  | depth =>
    exact agrees
  | setDepth depth =>
    exact agrees
  | presented =>
    exact agrees
  | done =>
    simp only
    rw [pc]
    exact agrees

end Inference

section Mailbox

/-- The mailbox holds the newest frame, and `isRunning` falls with the first step of `stop`. -/
structure Mailbox (s : Session σ δ τ ρ) : Prop where
  newest : s.pipeline.latest = s.record.published.getLast?
  running : s.pipeline.running = decide (s.stopping = .running)

theorem start_mailbox [IVideoSource σ] [ITracker τ] [IRule ρ] {p : VisionPipeline σ δ τ ρ}
    {s : Session σ δ τ ρ} (started : p.start = .started s) : s.Mailbox := by
  obtain ⟨source, positive, rfl⟩ := VisionPipeline.start_started started
  exact ⟨rfl, rfl⟩

variable [IVideoSource σ]

theorem captureStep_mailbox {s : Session σ δ τ ρ} (h : s.Mailbox) (now : TimePoint) :
    (s.captureStep now).Mailbox := by
  obtain ⟨_, _, _, _, _, _, _, after⟩ := captureStep_changes now s
  rw [after]
  exact ⟨h.newest, h.running⟩

theorem stopStep_mailbox {s : Session σ δ τ ρ} (h : s.Mailbox) : s.stopStep.Mailbox := by
  obtain ⟨newest, running⟩ := h
  unfold stopStep
  cases phase : s.stopping with
  | queueClosed =>
    simp only
    split
    · exact ⟨newest, by simp [running, phase]⟩
    · exact ⟨newest, by simp [running]⟩
  | joined => exact ⟨newest, by simp [running]⟩
  | _ => exact ⟨newest, by simp [running, phase]⟩

variable [IDetector δ] [ITracker τ] [IRule ρ]

omit [IVideoSource σ] in
theorem inferenceStep_mailbox {s : Session σ δ τ ρ} (h : s.Mailbox) (draw : Renderers) :
    (s.inferenceStep draw).Mailbox ∧
      s.record.published <+: (s.inferenceStep draw).record.published := by
  obtain ⟨newest, running⟩ := h
  unfold inferenceStep
  cases s.inference with
  | readMode f =>
    simp only [readModeStep]
    constructor
    · constructor
      · split <;> split <;> exact newest
      · split <;> exact running
    · split <;> exact List.prefix_rfl
  | track f =>
    simp only [trackStep]
    split <;> exact ⟨⟨newest, running⟩, List.prefix_rfl⟩
  | rules f =>
    simp only [rulesStep]
    split <;> exact ⟨⟨newest, running⟩, List.prefix_rfl⟩
  | publish f => exact ⟨⟨by simp, running⟩, List.prefix_append _ _⟩
  | _ => exact ⟨⟨newest, running⟩, List.prefix_rfl⟩

theorem step_mailbox {s : Session σ δ τ ρ} (h : s.Mailbox) (draw : Renderers) (label : Label) :
    (s.step draw label).Mailbox ∧ s.record.published <+: (s.step draw label).record.published := by
  cases label with
  | capture now =>
    refine ⟨captureStep_mailbox h now, ?_⟩
    rw [step, (captureStep_aside now s).published]
  | inference => exact inferenceStep_mailbox h draw
  | setMode mode => exact ⟨⟨h.newest, h.running⟩, List.prefix_rfl⟩
  | stop =>
    refine ⟨stopStep_mailbox h, ?_⟩
    rw [step, (stopStep_aside s).published]

end Mailbox

/- Whole runs. -/

theorem ended_iff (s : Session σ δ τ ρ) :
    s.ended = true ↔ s.capture = .done ∧ s.inference = .done := by
  unfold ended
  split
  · rename_i capture inference
    simp only [capture, inference, and_self]
  · rename_i other
    constructor
    · intro h
      contradiction
    · rintro ⟨capture, inference⟩
      exact absurd inference (other capture)

/-- What a thread that has ended leaves alone stays as `joinWorkers` found it. -/
theorem Balanced.still {s : Session σ δ τ ρ} (h : s.Balanced) (step : Session σ δ τ ρ)
    (stopping : step.stopping = s.stopping) (idle : s.ended = true → step = s) :
    step.stopping = .joined →
      step.ended = true ∧ step.record.leftover = step.queue.queue.queue := by
  intro joined
  rw [stopping] at joined
  have ended := h.joined joined
  rw [idle ended.1]
  exact ended

theorem captureStep_balanced [IVideoSource σ] {s : Session σ δ τ ρ} (h : s.Balanced)
    (now : TimePoint) : (s.captureStep now).Balanced := by
  have stopping := (captureStep_queue now s).1
  obtain ⟨returned, policy⟩ := captureStep_frame now s
  have aside := captureStep_aside now s
  refine ⟨captureStep_lawful h now, policy.trans h.policy, captureStep_numbered h now,
    captureStep_agrees h now, ?_, h.still _ stopping ?_⟩
  · rw [aside.inference, returned, aside.published]
    exact h.inference.congr aside.processed
  · intro ended
    unfold captureStep
    rw [((ended_iff s).mp ended).1]

variable [IDetector δ] [ITracker τ] [IRule ρ]

theorem inferenceStep_balanced {s : Session σ δ τ ρ} (h : s.Balanced) (draw : Renderers) :
    (s.inferenceStep draw).Balanced := by
  have frame := inferenceStep_frame draw s
  refine ⟨inferenceStep_lawful h draw, frame.policy.trans h.policy, ?_, ?_,
    inferenceStep_agrees h draw, h.still _ frame.stopping ?_⟩
  · rw [frame.accepted]
    exact h.numbered
  · rw [frame.capture, frame.accepted, frame.evicted, frame.frameId]
    exact h.capture.congr frame.capturedFrames frame.droppedFrames
  · intro ended
    unfold inferenceStep
    rw [((ended_iff s).mp ended).2]

variable [IVideoSource σ]

omit [IDetector δ] [ITracker τ] [IRule ρ] in
theorem stopStep_balanced {s : Session σ δ τ ρ} (h : s.Balanced) : s.stopStep.Balanced := by
  unfold stopStep
  split
  case h_5 =>
    exact ⟨⟨h.lawful.holds, h.lawful.counted, h.lawful.spared⟩, h.policy, h.numbered, h.capture,
      h.inference, nofun⟩
  case h_6 =>
    split
    · rename_i ended
      exact ⟨h.lawful, h.policy, h.numbered, h.capture, h.inference, fun _ => ⟨ended, rfl⟩⟩
    · exact h
  case h_7 => exact h
  all_goals exact ⟨h.lawful, h.policy, h.numbered, h.capture, h.inference, nofun⟩

theorem step_balanced (draw : Renderers) (s : Session σ δ τ ρ) (label : Label)
    (h : s.Balanced) : (s.step draw label).Balanced := by
  cases label with
  | capture now => exact captureStep_balanced h now
  | inference => exact inferenceStep_balanced h draw
  | setMode mode => exact ⟨h.lawful, h.policy, h.numbered, h.capture, h.inference, h.joined⟩
  | stop => exact stopStep_balanced h

omit [IDetector δ] in
theorem start_balanced {p : VisionPipeline σ δ τ ρ} {s : Session σ δ τ ρ}
    (started : p.start = .started s) : s.Balanced := by
  obtain ⟨source, positive, rfl⟩ := VisionPipeline.start_started started
  exact ⟨Traced.start_lawful _ _ positive, rfl, rfl, ⟨rfl, rfl, rfl⟩, ⟨rfl, rfl⟩, nofun⟩

/-- The frame balance, as an observer of the session sees it. -/
structure Accounts (s : Session σ δ τ ρ) : Prop where
  /-- Between frames the counters add up. -/
  balance : s.capture.atRest = true → s.inference.atRest = true →
    s.pipeline.stats.capturedFrames =
      s.pipeline.stats.processedFrames + s.pipeline.stats.droppedFrames + s.queue.queue.size
  /-- So they do after `joinWorkers`, with what the workers left in the queue. -/
  joined : s.stopping = .joined →
    s.pipeline.stats.capturedFrames =
      s.pipeline.stats.processedFrames + s.pipeline.stats.droppedFrames + s.record.leftover.length
  /-- The queued frames are a run of consecutive ids that ends at the last one pushed. -/
  queued : ∃ first : ℤ,
    s.queue.queue.queue.map FramePacket.frameId =
      (List.range s.queue.queue.size).map (fun i : ℕ => first + i) ∧
    ∀ last, s.accepted.getLast? = some last → first + s.queue.queue.size = last.frameId + 1
  increasing : (s.record.published.map PresentedFrame.frameId).Pairwise (· < ·)
  /-- Every popped frame is published once, in its turn. -/
  published : s.record.published.map PresentedFrame.frameId ++ s.inference.inHand =
    s.returned.map FramePacket.frameId
  /-- What was published last is what the readers find. -/
  newest : s.pipeline.latest = s.record.published.getLast?
  /-- Every published frame is counted once, in its turn. -/
  inferred : s.pipeline.stats.processedFrames ≤ s.record.published.length ∧
    s.record.published.length ≤ s.pipeline.stats.processedFrames + 1
  settled : s.inference.atRest = true →
    s.record.published.map PresentedFrame.frameId = s.returned.map FramePacket.frameId ∧
      s.pipeline.stats.processedFrames = s.returned.length

omit [IVideoSource σ] [IDetector δ] [ITracker τ] [IRule ρ] in
theorem Balanced.length {s : Session σ δ τ ρ} (h : s.Balanced) :
    s.accepted.length = s.returned.length + s.queue.queue.dropped + s.queue.queue.size := by
  have counted := h.lawful.counted
  rw [h.policy] at counted
  rw [counted]
  exact h.lawful.holds.length

omit [IVideoSource σ] [IDetector δ] [ITracker τ] [IRule ρ] in
theorem Balanced.balance {s : Session σ δ τ ρ} (h : s.Balanced)
    (capture : s.capture.atRest = true) (inference : s.inference.atRest = true) :
    s.pipeline.stats.capturedFrames =
      s.pipeline.stats.processedFrames + s.pipeline.stats.droppedFrames + s.queue.queue.size := by
  obtain ⟨captured, dropped⟩ := h.capture.at_rest capture
  rw [captured, dropped, (h.inference.at_rest inference).2]
  exact h.length

omit [IVideoSource σ] [IDetector δ] [ITracker τ] [IRule ρ] in
theorem Balanced.queued {s : Session σ δ τ ρ} (h : s.Balanced) :
    ∃ first : ℤ,
      s.queue.queue.queue.map FramePacket.frameId =
        (List.range s.queue.queue.size).map (fun i : ℕ => first + i) ∧
      ∀ last, s.accepted.getLast? = some last →
        first + s.queue.queue.size = last.frameId + 1 := by
  have present : s.queue.queue.queue = s.accepted.drop s.queue.history.ledger.next :=
    h.lawful.holds.present
  have bound : s.queue.history.ledger.next ≤ s.accepted.length := h.lawful.holds.next_le
  have size : s.queue.queue.size = s.accepted.length - s.queue.history.ledger.next := by
    rw [size, present, List.length_drop]
  refine ⟨s.queue.history.ledger.next + 1, ?_, ?_⟩
  · apply List.ext_getElem
    · rw [List.length_map, List.length_map, List.length_range]
      rfl
    · intro i inQueue inRange
      have here : s.queue.history.ledger.next + i < s.accepted.length := by
        rw [List.length_map, List.length_range] at inRange
        omega
      simp only [present, List.getElem_map, List.getElem_drop, List.getElem_range,
        numbered_getElem h.numbered here]
      omega
  · intro last ends
    rw [List.getLast?_eq_getElem?] at ends
    obtain ⟨inside, rfl⟩ := List.getElem?_eq_some_iff.mp ends
    rw [numbered_getElem h.numbered inside]
    omega

omit [IVideoSource σ] [IDetector δ] [ITracker τ] [IRule ρ] in
theorem Balanced.accounts {s : Session σ δ τ ρ} (h : s.Balanced) (mailbox : s.Mailbox) :
    s.Accounts := by
  have increasing : (s.returned.map FramePacket.frameId).Pairwise (· < ·) := by
    apply List.Pairwise.sublist (h.lawful.holds.taken_sublist.map FramePacket.frameId)
    have numbered := h.numbered
    simp only [accepted, History.accepted] at numbered
    rw [numbered]
    exact frameIds_increasing _
  refine ⟨h.balance, ?_, h.queued, ?_, h.inference.in_hand, mailbox.newest, h.inference.counted,
    h.inference.at_rest⟩
  · intro joined
    obtain ⟨ended, leftover⟩ := h.joined joined
    obtain ⟨capture, inference⟩ := (ended_iff s).mp ended
    rw [leftover]
    exact h.balance (by rw [capture]; rfl) (by rw [inference]; rfl)
  · rw [← h.inference.in_hand] at increasing
    exact (List.pairwise_append.mp increasing).1

/-- The frame balance of a session: it holds in every state that any interleaving of the two
workers, the mode switch and the stopping thread reaches, whatever the stages throw. -/
theorem frame_accounting {p : VisionPipeline σ δ τ ρ} {first : Session σ δ τ ρ}
    (started : p.start = .started first) (draw : Renderers) (labels : List Label) :
    (first.run draw labels).Accounts :=
  (Machine.run_invariant (start_balanced started) (step_balanced draw) labels).accounts
    (Machine.run_invariant (start_mailbox started) (fun _ label h => (step_mailbox h draw label).1)
      labels)

/-- Two frames captured, the first of them seen through, and the pipeline stopped. -/
theorem fake_frame_accounting :
    (fakeSession.run .plain
      (List.replicate 16 (.capture 0) ++ List.replicate 16 .inference ++
        List.replicate 5 .stop ++ [.capture 0, .inference, .stop])).Accounts :=
  frame_accounting fakePipeline_start .plain _

end Session

end VisionLab
