import Mathlib.Data.List.Nodup
import VisionLab.Utilities.CameraManager

/-! The delivery of a session's events to the database writer. Three counters take part: the numbers
the rule engine gives, the positions in the bounded log, and the mark up to which the GUI thread has
handed events over. -/
namespace VisionLab

namespace CameraManager

variable {α β : Type}

theorem persist_map (eventId : β → ℕ) (f : α → β) (mark : ℕ) (events : List α) :
    (persist eventId mark (events.map f)).2 =
      (persist (fun event => eventId (f event)) mark events).2.map f ∧
    (persist eventId mark (events.map f)).1 =
      (persist (fun event => eventId (f event)) mark events).1 := by
  induction events generalizing mark with
  | nil => exact ⟨rfl, rfl⟩
  | cons event events ih =>
    simp only [List.map_cons, persist]
    split
    · exact ih mark
    · exact ⟨congrArg (f event :: ·) (ih _).1, (ih _).2⟩

/-- Over consecutive numbers the loop skips what lies below the mark and takes all the rest. -/
theorem persist_consecutive (eventId : α → ℕ) (mark start : ℕ) (events : List α)
    (numbers : events.map eventId = List.range' (start + 1) events.length) :
    (persist eventId mark events).2 = events.drop (mark - start) ∧
    (persist eventId mark events).1 =
      if events = [] then mark else max mark (start + events.length) := by
  induction events generalizing mark start with
  | nil => exact ⟨by simp [persist], rfl⟩
  | cons event events ih =>
    rw [List.map_cons, List.length_cons, List.range'_succ] at numbers
    obtain ⟨number, numbers⟩ := List.cons.inj numbers
    simp only [persist, number, List.length_cons, reduceCtorEq, if_false]
    by_cases skipped : start + 1 ≤ mark
    · rw [if_pos skipped]
      obtain ⟨given, last⟩ := ih mark (start + 1) numbers
      have one : mark - start = mark - (start + 1) + 1 := by omega
      refine ⟨by rw [given, one, List.drop_succ_cons], ?_⟩
      rw [last]
      split
      · rename_i empty
        rw [empty, List.length_nil]
        omega
      · omega
    · rw [if_neg skipped]
      obtain ⟨given, last⟩ := ih (start + 1) (start + 1) numbers
      have none : mark - start = 0 := by omega
      refine ⟨?_, ?_⟩
      · rw [given, none, Nat.sub_self, List.drop_zero, List.drop_zero]
      · rw [last]
        split
        · rename_i empty
          rw [empty, List.length_nil]
          omega
        · omega

end CameraManager

/-- The events evaluated and not yet pushed to the log. -/
def InferenceState.pending : InferenceState → List VisionEvent
  | .log f => f.presented.events
  | _ => []

namespace Session

variable {σ δ τ ρ : Type}

/-- The events of the session carry the numbers 1, 2, …, and the log shows the newest of them. -/
structure Numbered (s : Session σ δ τ ρ) : Prop where
  shows : s.pipeline.eventLog.Shows s.record.emitted
  emitted : s.record.emitted.map VisionEvent.eventId = List.range' 1 s.record.emitted.length
  pending : s.inference.pending.map VisionEvent.eventId =
    List.range' (s.record.emitted.length + 1) s.inference.pending.length
  counter : ∀ rules, s.pipeline.rules = some rules →
    rules.nextEventId = s.record.emitted.length + 1 + s.inference.pending.length

/-- What a step that has nothing to do with events leaves alone. -/
structure EventFrame (s after : Session σ δ τ ρ) : Prop where
  log : after.pipeline.eventLog = s.pipeline.eventLog
  emitted : after.record.emitted = s.record.emitted
  rules : after.pipeline.rules = s.pipeline.rules
  pending : after.inference.pending = s.inference.pending

theorem EventFrame.refl (s : Session σ δ τ ρ) : EventFrame s s := ⟨rfl, rfl, rfl, rfl⟩

theorem EventFrame.numbered {s after : Session σ δ τ ρ} (frame : EventFrame s after)
    (h : s.Numbered) : after.Numbered := by
  refine ⟨?_, ?_, ?_, ?_⟩
  · rw [frame.log, frame.emitted]
    exact h.shows
  · rw [frame.emitted]
    exact h.emitted
  · rw [frame.pending, frame.emitted]
    exact h.pending
  · rw [frame.rules, frame.pending, frame.emitted]
    exact h.counter

theorem Aside.events {s after : Session σ δ τ ρ} (aside : Aside s after) : EventFrame s after :=
  ⟨aside.log, aside.emitted, aside.rules, by rw [aside.inference]⟩

variable [IDetector δ] [ITracker τ] [IRule ρ]

theorem inferenceStep_events (draw : Renderers) (s : Session σ δ τ ρ)
    (reads : ∀ f, s.inference ≠ .readMode f) (rules : ∀ f, s.inference ≠ .rules f)
    (logs : ∀ f, s.inference ≠ .log f) : EventFrame s (s.inferenceStep draw) := by
  have idle : s.inference.pending = [] := by
    cases pc : s.inference with
    | log f => exact absurd pc (logs f)
    | _ => rfl
  unfold inferenceStep
  cases pc : s.inference with
  | readMode f => exact absurd pc (reads f)
  | rules f => exact absurd pc (rules f)
  | log f => exact absurd pc (logs f)
  | done => exact .refl s
  | loop =>
    refine ⟨rfl, rfl, rfl, ?_⟩
    rw [idle]
    simp only
    split <;> rfl
  | pop =>
    refine ⟨rfl, rfl, rfl, ?_⟩
    rw [idle]
    simp only
    split <;> rfl
  | track f =>
    simp only [trackStep]
    split <;> exact ⟨rfl, rfl, rfl, idle.symm⟩
  | _ => exact ⟨rfl, rfl, rfl, idle.symm⟩

omit [IDetector δ] in
/-- A mode change restarts the numbers, so no event may have been emitted before. -/
theorem readModeStep_numbered {s : Session σ δ τ ρ} (h : s.Numbered) {f : InFlight}
    (here : s.inference = .readMode f)
    (early : s.modeChanged = true → s.record.emitted = []) : (s.readModeStep f).Numbered := by
  have idle : s.inference.pending = [] := by rw [here]; rfl
  have same := readModeStep_emitted f s
  refine ⟨?_, ?_, rfl, ?_⟩
  · rw [same, readModeStep_log]
    exact h.shows
  · rw [same]
    exact h.emitted
  · intro rules there
    rw [same]
    change rules.nextEventId = s.record.emitted.length + 1
    by_cases changed : s.modeChanged = true
    · simp only [readModeStep, if_pos changed, VisionPipeline.resetStages,
        Option.map_eq_some_iff] at there
      obtain ⟨before, -, rfl⟩ := there
      rw [early changed]
      rfl
    · simp only [readModeStep, if_neg changed] at there
      have counter := h.counter rules there
      rwa [idle] at counter

omit [IDetector δ] [ITracker τ] in
theorem rulesStep_numbered {s : Session σ δ τ ρ} (h : s.Numbered) {f : InFlight}
    (here : s.inference = .rules f) : (s.rulesStep f).Numbered := by
  have idle : s.inference.pending = [] := by rw [here]; rfl
  unfold rulesStep
  cases there : s.pipeline.rules with
  | none => exact ⟨h.shows, h.emitted, rfl, fun rules some' => by simp [there] at some'⟩
  | some rules =>
    have counter := h.counter rules there
    rw [idle, List.length_nil, Nat.add_zero] at counter
    obtain ⟨ids, next⟩ := rules.evaluate_ids f.presented.tracks
      (InferenceWorker.ruleContext f.packet)
    rw [counter] at ids next
    refine ⟨h.shows, h.emitted, ids, ?_⟩
    intro after same
    have after_eq := Option.some.inj same
    rw [← after_eq]
    exact next

omit [IDetector δ] [ITracker τ] [IRule ρ] in
theorem logStep_numbered {s : Session σ δ τ ρ} (h : s.Numbered) {f : InFlight}
    (here : s.inference = .log f) :
    ({ s with
        pipeline := { s.pipeline with eventLog := s.pipeline.eventLog.push f.presented.events }
        inference := .ruled f
        record := { s.record with emitted := s.record.emitted ++ f.presented.events } } :
      Session σ δ τ ρ).Numbered := by
  have waiting : s.inference.pending = f.presented.events := by rw [here]; rfl
  have pending := h.pending
  have counter := h.counter
  rw [waiting] at pending counter
  refine ⟨EventLog.push_shows h.shows _, ?_, rfl, ?_⟩
  · have next : s.record.emitted.length + 1 = 1 + s.record.emitted.length := Nat.add_comm _ _
    rw [next] at pending
    rw [List.map_append, List.length_append, h.emitted, pending, List.range'_append_1]
  · intro rules there
    rw [counter rules there]
    simp only [List.length_append]
    change _ = _ + 1 + 0
    omega

omit [IDetector δ] in
theorem start_numbered [IVideoSource σ] {p : VisionPipeline σ δ τ ρ} {s : Session σ δ τ ρ}
    (started : p.start = .started s) : s.Numbered := by
  obtain ⟨source, positive, rfl⟩ := VisionPipeline.start_started started
  refine ⟨EventLog.reset_shows _, rfl, rfl, ?_⟩
  intro rules there
  obtain ⟨before, -, rfl⟩ := Option.map_eq_some_iff.mp there
  rfl

theorem inferenceStep_numbered {s : Session σ δ τ ρ} (h : s.Numbered) (draw : Renderers)
    (early : ∀ f, s.inference = .readMode f → s.modeChanged = true → s.record.emitted = []) :
    (s.inferenceStep draw).Numbered := by
  cases pc : s.inference with
  | readMode f =>
    rw [inferenceStep_readMode pc]
    exact readModeStep_numbered h pc (early f pc)
  | rules f =>
    rw [inferenceStep_rules pc]
    exact rulesStep_numbered h pc
  | log f =>
    rw [inferenceStep, pc]
    exact logStep_numbered h pc
  | _ =>
    have frame := inferenceStep_events draw s (by simp [pc]) (by simp [pc]) (by simp [pc])
    exact frame.numbered h

theorem inferenceStep_grows (draw : Renderers) (s : Session σ δ τ ρ) :
    s.record.emitted <+: (s.inferenceStep draw).record.emitted ∧
    (s.inferenceStep draw).pipeline.eventLog.capacity = s.pipeline.eventLog.capacity := by
  cases pc : s.inference with
  | readMode f =>
    rw [inferenceStep_readMode pc, readModeStep_emitted, readModeStep_log]
    exact ⟨List.prefix_rfl, rfl⟩
  | rules f =>
    rw [inferenceStep_rules pc]
    unfold rulesStep
    split <;> exact ⟨List.prefix_rfl, rfl⟩
  | log f =>
    rw [inferenceStep, pc]
    exact ⟨List.prefix_append _ _, EventLog.push_capacity _ _⟩
  | _ =>
    have frame := inferenceStep_events draw s (by simp [pc]) (by simp [pc]) (by simp [pc])
    rw [frame.log, frame.emitted]
    exact ⟨List.prefix_rfl, rfl⟩

theorem step_grows [IVideoSource σ] (draw : Renderers) (s : Session σ δ τ ρ) (label : Label) :
    s.record.emitted <+: (s.step draw label).record.emitted ∧
    (s.step draw label).pipeline.eventLog.capacity = s.pipeline.eventLog.capacity := by
  cases label with
  | capture now =>
    have frame := (captureStep_aside now s).events
    rw [step, frame.log, frame.emitted]
    exact ⟨List.prefix_rfl, rfl⟩
  | inference => exact inferenceStep_grows draw s
  | setMode mode => exact ⟨List.prefix_rfl, rfl⟩
  | stop =>
    have frame := (stopStep_aside s).events
    rw [step, frame.log, frame.emitted]
    exact ⟨List.prefix_rfl, rfl⟩

theorem step_numbered [IVideoSource σ] {s : Session σ δ τ ρ} (h : s.Numbered) (draw : Renderers)
    (label : Label)
    (early : label = .inference → ∀ f, s.inference = .readMode f → s.modeChanged = true →
      s.record.emitted = []) : (s.step draw label).Numbered := by
  cases label with
  | capture now => exact (captureStep_aside now s).events.numbered h
  | inference => exact inferenceStep_numbered h draw (early rfl)
  | setMode mode => exact ⟨h.shows, h.emitted, h.pending, h.counter⟩
  | stop => exact (stopStep_aside s).events.numbered h

end Session

/-- A session in progress, seen from the GUI thread: the camera manager, the session, and the
events handed to the writer so far, each with its position among the emitted events. -/
structure Delivery (σ δ τ ρ : Type) where
  camera : CameraManager σ δ τ ρ
  session : Session σ δ τ ρ
  handed : List (VisionEvent × ℕ) := []

inductive Turn where
  | worker (label : Label)
  | notify

namespace Delivery

variable {σ δ τ ρ : Type}

def emitted (d : Delivery σ δ τ ρ) : List VisionEvent := d.session.record.emitted

def view (d : Delivery σ δ τ ρ) : CameraManager σ δ τ ρ :=
  { d.camera with pipeline := some d.session.pipeline }

def offset (d : Delivery σ δ τ ρ) : ℕ := d.session.pipeline.eventLog.offset d.emitted

def window (d : Delivery σ δ τ ρ) : List (VisionEvent × ℕ) := d.view.recentEvents.zipIdx d.offset

def notify (d : Delivery σ δ τ ρ) : Delivery σ δ τ ρ :=
  match d.view.shown with
  | none => d
  | some _ =>
    { d with
      camera := d.view.notifyFrame.1
      handed := d.handed ++
        (CameraManager.persist (fun event : VisionEvent × ℕ => event.1.eventId)
          d.camera.persistedMaxEventId d.window).2 }

/-- What `notifyFrame` does once its guards have let `presented` pass. -/
def handOver (d : Delivery σ δ τ ρ) (presented : PresentedFrame) : Delivery σ δ τ ρ :=
  { d with
    camera :=
      { d.view with
        frame := presented.rgb
        detections := presented.detections
        tracks := presented.tracks
        persistedMaxEventId :=
          (CameraManager.persist VisionEvent.eventId d.camera.persistedMaxEventId
            d.view.recentEvents).1 }
    handed := d.handed ++
      (CameraManager.persist (fun event : VisionEvent × ℕ => event.1.eventId)
        d.camera.persistedMaxEventId d.window).2 }

theorem notify_eq {d : Delivery σ δ τ ρ} {presented : PresentedFrame}
    (shown : d.view.shown = some presented) : d.notify = d.handOver presented := by
  unfold notify CameraManager.notifyFrame
  rw [shown]
  rfl

theorem notify_handed (d : Delivery σ δ τ ρ) :
    d.notify.handed.map Prod.fst = d.handed.map Prod.fst ++ d.view.notifyFrame.2 := by
  have events : d.window.map Prod.fst = d.view.recentEvents := List.zipIdx_map_fst _ _
  have same := CameraManager.persist_map VisionEvent.eventId Prod.fst
    d.camera.persistedMaxEventId d.window
  rw [events] at same
  unfold notify CameraManager.notifyFrame
  cases d.view.shown with
  | none => simp only [List.append_nil]
  | some presented =>
    simp only [List.map_append]
    rw [← same.1]
    rfl

variable [IVideoSource σ] [IDetector δ] [ITracker τ] [IRule ρ]

def step (draw : Renderers) (d : Delivery σ δ τ ρ) : Turn → Delivery σ δ τ ρ
  | .worker label => { d with session := d.session.step draw label }
  | .notify => d.notify

def run (draw : Renderers) (d : Delivery σ δ τ ρ) (turns : List Turn) : Delivery σ δ τ ρ :=
  Machine.run (step draw) d turns

/-- Every event in the log has been handed over once, in the order of emission. -/
structure ExactlyOnce (d : Delivery σ δ τ ρ) : Prop where
  once : ∀ p, d.offset ≤ p → p < d.emitted.length → (d.handed.map Prod.snd).count p = 1
  ordered : (d.handed.map Prod.snd).Pairwise (· < ·)
  faithful : ∀ event ∈ d.handed, d.emitted[event.2]? = some event.1

/-- A worker about to find another mode than before has emitted no event in this session. -/
def KeepsNumbering (d : Delivery σ δ τ ρ) (turn : Turn) : Prop :=
  match turn, d.session.inference with
  | .worker .inference, .readMode _ => d.session.modeChanged = true → d.emitted = []
  | _, _ => True

instance (d : Delivery σ δ τ ρ) (turn : Turn) : Decidable (d.KeepsNumbering turn) := by
  unfold KeepsNumbering
  split <;> infer_instance

structure Steady (d : Delivery σ δ τ ρ) : Prop where
  numbered : d.session.Numbered
  mark_le : d.camera.persistedMaxEventId ≤ d.emitted.length
  below : ∀ p ∈ d.handed.map Prod.snd, p < d.camera.persistedMaxEventId
  ordered : (d.handed.map Prod.snd).Pairwise (· < ·)
  faithful : ∀ event ∈ d.handed, d.emitted[event.2]? = some event.1
  seen : ∀ p, d.offset ≤ p → p < d.camera.persistedMaxEventId → p ∈ d.handed.map Prod.snd

omit [IVideoSource σ] [IDetector δ] [ITracker τ] [IRule ρ] in
theorem window_eq {d : Delivery σ δ τ ρ} (h : d.session.Numbered) :
    d.window = (d.emitted.drop d.offset).zipIdx d.offset := by
  have shows := h.shows
  have here : d.view.recentEvents = d.emitted.drop d.offset := by
    rw [offset, emitted, EventLog.Shows.offset_eq shows]
    exact shows
  rw [window, here]

omit [IVideoSource σ] [IDetector δ] [ITracker τ] [IRule ρ] in
theorem window_positions {d : Delivery σ δ τ ρ} (h : d.session.Numbered) :
    d.window.map Prod.snd = List.range' d.offset (d.emitted.length - d.offset) := by
  rw [window_eq h, List.zipIdx_map_snd, List.length_drop]

omit [IVideoSource σ] [IDetector δ] [ITracker τ] [IRule ρ] in
theorem window_numbers {d : Delivery σ δ τ ρ} (h : d.session.Numbered) :
    d.window.map (fun event => event.1.eventId) =
      List.range' (d.offset + 1) d.window.length := by
  have split : d.window.map (fun event => event.1.eventId) =
      (d.window.map Prod.fst).map VisionEvent.eventId := by
    rw [List.map_map]
    rfl
  have emitted := congrArg (List.drop d.offset) h.emitted
  rw [← List.map_drop, List.drop_range'] at emitted
  rw [Nat.mul_one] at emitted
  rw [split, window_eq h, List.zipIdx_map_fst, List.length_zipIdx, List.length_drop,
    Nat.add_comm d.offset 1]
  exact emitted

omit [IVideoSource σ] [IDetector δ] [ITracker τ] [IRule ρ] in
theorem window_length {d : Delivery σ δ τ ρ} (h : d.session.Numbered) :
    d.window.length = d.emitted.length - d.offset := by
  rw [window_eq h, List.length_zipIdx, List.length_drop]

omit [IVideoSource σ] [IDetector δ] [ITracker τ] [IRule ρ] in
theorem offset_lt {d : Delivery σ δ τ ρ} (h : d.session.Numbered) :
    d.emitted = [] ∨ d.offset < d.emitted.length := by
  have positive := d.session.pipeline.eventLog.capacity_pos
  cases some' : d.emitted with
  | nil => exact Or.inl rfl
  | cons event events =>
    right
    rw [← some', offset, emitted, EventLog.Shows.offset_eq h.shows]
    have length : 0 < d.session.record.emitted.length := by
      rw [← emitted, some', List.length_cons]
      exact Nat.succ_pos _
    omega

/-- What a `notifyFrame` that passes its guards hands over, and the mark it leaves. -/
structure Handed (d after : Delivery σ δ τ ρ) : Prop where
  session : after.session = d.session
  mark : after.camera.persistedMaxEventId = d.emitted.length
  handed : after.handed = d.handed ++ d.window.drop (d.camera.persistedMaxEventId - d.offset)

omit [IVideoSource σ] [IDetector δ] [ITracker τ] [IRule ρ] in
theorem handOver_spec {d : Delivery σ δ τ ρ} (h : d.Steady) (presented : PresentedFrame) :
    Handed d (d.handOver presented) := by
  obtain ⟨given, last⟩ := CameraManager.persist_consecutive
    (fun event : VisionEvent × ℕ => event.1.eventId) d.camera.persistedMaxEventId d.offset d.window
    (window_numbers h.numbered)
  have same := (CameraManager.persist_map VisionEvent.eventId Prod.fst
    d.camera.persistedMaxEventId d.window).2
  rw [window, List.zipIdx_map_fst, ← window] at same
  have length := window_length h.numbered
  have bound := h.mark_le
  refine ⟨rfl, ?_, ?_⟩
  · change (CameraManager.persist VisionEvent.eventId d.camera.persistedMaxEventId
      d.view.recentEvents).1 = _
    rw [same, last]
    rcases offset_lt h.numbered with none | inside
    · have empty : d.window = [] := by
        rw [← List.length_eq_zero_iff, length, none, List.length_nil, Nat.zero_sub]
      rw [if_pos empty]
      rw [none] at bound ⊢
      exact Nat.le_zero.mp bound
    · have some' : d.window ≠ [] := by
        intro empty
        rw [empty, List.length_nil] at length
        omega
      rw [if_neg some', length]
      omega
  · change _ ++ _ = _
    rw [given]

omit [IVideoSource σ] [IDetector δ] [ITracker τ] [IRule ρ] in
theorem notify_spec {d : Delivery σ δ τ ρ} (h : d.Steady) (passes : d.view.shown.isSome = true) :
    Handed d d.notify := by
  obtain ⟨presented, shown⟩ := Option.isSome_iff_exists.mp passes
  exact notify_eq shown ▸ handOver_spec h presented

omit [IVideoSource σ] [IDetector δ] [ITracker τ] [IRule ρ] in
theorem Handed.positions {d after : Delivery σ δ τ ρ} (handed : Handed d after)
    (h : d.session.Numbered) : after.handed.map Prod.snd = d.handed.map Prod.snd ++
      List.range' (max d.camera.persistedMaxEventId d.offset)
        (d.emitted.length - max d.camera.persistedMaxEventId d.offset) := by
  rw [handed.handed, List.map_append, List.map_drop, window_positions h, List.drop_range']
  congr 2 <;> omega

omit [IVideoSource σ] [IDetector δ] [ITracker τ] [IRule ρ] in
theorem Handed.steady {d after : Delivery σ δ τ ρ} (handed : Handed d after) (h : d.Steady) :
    after.Steady := by
  have positions := handed.positions h.numbered
  have bound := h.mark_le
  have same : after.emitted = d.emitted := by rw [emitted, handed.session, emitted]
  have still : after.offset = d.offset := by rw [offset, same, handed.session, offset]
  refine ⟨?_, ?_, ?_, ?_, ?_, ?_⟩
  · rw [handed.session]
    exact h.numbered
  · rw [handed.mark, same]
  · rw [positions, handed.mark]
    intro p given
    rcases List.mem_append.mp given with given | given
    · exact Nat.lt_of_lt_of_le (h.below p given) bound
    · have range := List.mem_range'_1.mp given
      omega
  · rw [positions, List.pairwise_append]
    refine ⟨h.ordered, List.pairwise_lt_range' 1, ?_⟩
    intro p given q more
    have before := h.below p given
    have range := List.mem_range'_1.mp more
    omega
  · rw [handed.handed, same]
    intro event given
    rcases List.mem_append.mp given with given | given
    · exact h.faithful event given
    · have inside := List.mem_of_mem_drop given
      rw [window_eq h.numbered] at inside
      obtain ⟨low, there⟩ := List.mem_zipIdx_iff_le_and_getElem?_sub.mp inside
      rw [List.getElem?_drop, Nat.add_sub_cancel' low] at there
      exact there
  · rw [positions, still, handed.mark]
    intro p low high
    by_cases old : p < d.camera.persistedMaxEventId
    · exact List.mem_append_left _ (h.seen p low old)
    · apply List.mem_append_right
      rw [List.mem_range'_1]
      omega

omit [IVideoSource σ] [IDetector δ] [ITracker τ] [IRule ρ] in
theorem Steady.exactlyOnce {d : Delivery σ δ τ ρ} (h : d.Steady)
    (mark : d.camera.persistedMaxEventId = d.emitted.length) : d.ExactlyOnce := by
  refine ⟨?_, h.ordered, h.faithful⟩
  intro p low high
  have distinct : (d.handed.map Prod.snd).Nodup := h.ordered.imp Nat.ne_of_lt
  exact List.count_eq_one_of_mem distinct (h.seen p low (by rw [mark]; exact high))

theorem worker_steady {d : Delivery σ δ τ ρ} (h : d.Steady) (draw : Renderers) (label : Label)
    (keeps : d.KeepsNumbering (.worker label)) : (d.step draw (.worker label)).Steady := by
  have early : label = .inference → ∀ f, d.session.inference = .readMode f →
      d.session.modeChanged = true → d.emitted = [] := by
    rintro rfl f here
    simpa only [KeepsNumbering, here] using keeps
  have numbered := Session.step_numbered h.numbered draw label early
  obtain ⟨grows, capacity⟩ := Session.step_grows draw d.session label
  have longer : d.emitted.length ≤ (d.step draw (.worker label)).emitted.length := grows.length_le
  have later : d.offset ≤ (d.step draw (.worker label)).offset := by
    rw [offset, offset, emitted, emitted, EventLog.Shows.offset_eq h.numbered.shows]
    refine Nat.le_trans ?_ (Nat.le_of_eq (EventLog.Shows.offset_eq numbered.shows).symm)
    rw [capacity]
    exact Nat.sub_le_sub_right longer _
  refine ⟨numbered, h.mark_le.trans longer, h.below, h.ordered, ?_, ?_⟩
  · intro event given
    have here := h.faithful event given
    obtain ⟨more, same⟩ := grows
    obtain ⟨inside, -⟩ := List.getElem?_eq_some_iff.mp here
    rw [emitted] at here inside
    change (d.session.step draw label).record.emitted[event.2]? = _
    rw [← same, List.getElem?_append_left inside]
    exact here
  · intro p low high
    exact h.seen p (later.trans low) high

theorem step_steady (draw : Renderers) (d : Delivery σ δ τ ρ) (turn : Turn)
    (keeps : d.KeepsNumbering turn) (h : d.Steady) : (d.step draw turn).Steady := by
  cases turn with
  | worker label => exact worker_steady h draw label keeps
  | notify =>
    cases passes : d.view.shown with
    | none =>
      have same : d.step draw .notify = d := by simp only [step, notify, passes]
      rw [same]
      exact h
    | some presented => exact (notify_spec h (by rw [passes]; rfl)).steady h

section Started

variable [TrackerFactory τ] [RuleFactory ρ]

omit [IDetector δ] [TrackerFactory τ] in
theorem start_steady {camera : CameraManager σ δ τ ρ} {first : Session σ δ τ ρ}
    (started : camera.start.session = some first) :
    (Steady { camera := camera.start.camera, session := first }) := by
  obtain ⟨-, mark, p, begun⟩ := CameraManager.start_session started
  refine ⟨Session.start_numbered begun, ?_, ?_, List.Pairwise.nil, ?_, ?_⟩
  · rw [mark]
    exact Nat.zero_le _
  · intro q given
    cases given
  · intro event given
    cases given
  · intro q _ high
    rw [mark] at high
    exact absurd high (Nat.not_lt_zero q)

omit [TrackerFactory τ] in
/-- In every run of a session that meets the condition at each step, a `notifyFrame` that passes
its guards leaves every event of the log handed over exactly once and in order, where what it adds
is what it gives to the writer. -/
theorem delivered_exactly_once {camera : CameraManager σ δ τ ρ} {first : Session σ δ τ ρ}
    (started : camera.start.session = some first) (draw : Renderers) (turns : List Turn)
    (keeps : Machine.EveryStep (step draw) KeepsNumbering
      { camera := camera.start.camera, session := first } turns)
    (passes : (run draw { camera := camera.start.camera, session := first } turns).view.shown.isSome
      = true) :
    ExactlyOnce (run draw { camera := camera.start.camera, session := first } turns).notify ∧
    (run draw { camera := camera.start.camera, session := first } turns).notify.handed.map
        Prod.fst =
      (run draw { camera := camera.start.camera, session := first } turns).handed.map Prod.fst ++
        (run draw { camera := camera.start.camera, session := first } turns).view.notifyFrame.2 := by
  have steady := Machine.run_guarded (start_steady started) (step_steady draw) keeps
  have handed := notify_spec steady passes
  have mark := handed.mark
  refine ⟨(handed.steady steady).exactlyOnce ?_, notify_handed _⟩
  rw [mark, emitted, emitted, handed.session]

end Started

def fakeCamera : CameraManager FakeVideoSource FakeDetector FakeTracker FakeRule where
  ruleSpecs := [{ ruleId := "fake", polygon := [⟨0, 0⟩, ⟨4, 0⟩, ⟨4, 4⟩] }]
  pipeline := some fakePipeline

def fakeFirst : Session FakeVideoSource FakeDetector FakeTracker FakeRule :=
  { fakeSession with
    pipeline :=
      { fakeSession.pipeline with
        rules := some { entries := [{ rule := { id := "fake", resetCount := 1 } }] } } }

theorem fakeCamera_start : fakeCamera.start.session = some fakeFirst := rfl

theorem fake_delivered_exactly_once :
    ExactlyOnce (run .plain { camera := fakeCamera.start.camera, session := fakeFirst }
      (List.replicate 16 (.worker (.capture 0)) ++ List.replicate 16 (.worker .inference) ++
        [.notify] ++ List.replicate 16 (.worker .inference))).notify :=
  (delivered_exactly_once fakeCamera_start .plain _ (by decide +kernel) (by decide +kernel)).1

/-- One event is handed over in the face mode. The object mode restarts the numbers, so the next
event is taken for the first one, though the guards let the second `notifyFrame` pass. -/
theorem mode_change_loses_event :
    (run .plain { camera := fakeCamera.start.camera, session := fakeFirst }
      (List.replicate 16 (.worker (.capture 0)) ++ List.replicate 16 (.worker .inference) ++
        [.notify, .worker (.setMode .object)] ++
        List.replicate 16 (.worker .inference))).view.shown.isSome = true ∧
    ¬ ExactlyOnce (run .plain { camera := fakeCamera.start.camera, session := fakeFirst }
      (List.replicate 16 (.worker (.capture 0)) ++ List.replicate 16 (.worker .inference) ++
        [.notify, .worker (.setMode .object)] ++
        List.replicate 16 (.worker .inference))).notify := by
  refine ⟨by decide +kernel, ?_⟩
  intro delivered
  have lost := delivered.once 1 (by decide +kernel) (by decide +kernel)
  revert lost
  decide +kernel

end Delivery

end VisionLab
