import Mathlib.Data.List.Chain
import VisionLab.Storage.EventDelivery

/-! What reaches the writer of a session that is stopped. The inference thread queues its
`notifyFrame` calls in the event loop of the GUI thread, where none of them runs during `stop`. -/
namespace VisionLab

namespace Session

variable {σ δ τ ρ : Type}

def Halts (s : Session σ δ τ ρ) : Prop :=
  s.stopping ≠ .running → s.pipeline.running = false

structure ModeFrame (s after : Session σ δ τ ρ) : Prop where
  mode : after.pipeline.mode = s.pipeline.mode
  lastMode : after.lastMode = s.lastMode ∨ after.lastMode = some s.pipeline.mode
  halted : s.pipeline.running = false → after.pipeline.running = false
  halts : s.Halts → after.Halts

theorem ModeFrame.refl (s : Session σ δ τ ρ) : ModeFrame s s := ⟨rfl, Or.inl rfl, id, id⟩

variable [IVideoSource σ]

theorem captureStep_mode (now : TimePoint) (s : Session σ δ τ ρ) :
    ModeFrame s (s.captureStep now) := by
  obtain ⟨_, _, _, _, _, _, _, after⟩ := captureStep_changes now s
  rw [after]
  exact ⟨rfl, Or.inl rfl, id, id⟩

theorem stopStep_mode (s : Session σ δ τ ρ) : ModeFrame s s.stopStep := by
  obtain ⟨_, running, _, _, _, _, _, after, first | later⟩ := stopStep_changes s
  · rw [after]
    exact ⟨rfl, Or.inl rfl, fun _ => first.2, fun _ _ => first.2⟩
  · rw [after]
    exact ⟨rfl, Or.inl rfl, later.2.trans, fun halts _ => later.2.trans (halts later.1)⟩

variable [IDetector δ] [ITracker τ] [IRule ρ]

omit [IVideoSource σ] in
theorem inferenceStep_mode (draw : Renderers) (s : Session σ δ τ ρ) :
    ModeFrame s (s.inferenceStep draw) := by
  unfold inferenceStep
  cases s.inference with
  | readMode f =>
    by_cases changed : s.modeChanged = true
    · simp only [readModeStep, changed, if_true]
      exact ⟨rfl, Or.inr rfl, id, id⟩
    · simp only [readModeStep, changed]
      exact ⟨rfl, Or.inr rfl, id, id⟩
  | track f =>
    simp only [trackStep]
    split <;> exact ⟨rfl, Or.inl rfl, id, id⟩
  | rules f =>
    simp only [rulesStep]
    split <;> exact ⟨rfl, Or.inl rfl, id, id⟩
  | done => exact .refl s
  | _ => exact ⟨rfl, Or.inl rfl, id, id⟩

theorem step_mode (draw : Renderers) (s : Session σ δ τ ρ) (label : Label)
    (keeps : ∀ mode, label = .setMode mode → mode = s.pipeline.mode) :
    ModeFrame s (s.step draw label) := by
  cases label with
  | capture now => exact captureStep_mode now s
  | inference => exact inferenceStep_mode draw s
  | setMode mode => exact ⟨keeps mode rfl, Or.inl rfl, id, id⟩
  | stop => exact stopStep_mode s

theorem step_halts (draw : Renderers) (s : Session σ δ τ ρ) (label : Label) :
    (s.pipeline.running = false → (s.step draw label).pipeline.running = false) ∧
      (s.Halts → (s.step draw label).Halts) := by
  cases label with
  | capture now => exact ⟨(captureStep_mode now s).halted, (captureStep_mode now s).halts⟩
  | inference => exact ⟨(inferenceStep_mode draw s).halted, (inferenceStep_mode draw s).halts⟩
  | setMode mode => exact ⟨id, id⟩
  | stop => exact ⟨(stopStep_mode s).halted, (stopStep_mode s).halts⟩

end Session

/-- What the GUI thread is in the middle of: a `notifyFrame` whose guards have passed, or `stop`. -/
inductive GuiState where
  | idle
  | notifying (presented : PresentedFrame)
  | stopping

/-- A session in progress, with the `notifyFrame` calls that wait in the event loop and, for each
that has taken its snapshot of the log, the number of events emitted by then. -/
structure GuiSession (σ δ τ ρ : Type) where
  delivery : Delivery σ δ τ ρ
  gui : GuiState := .idle
  posted : ℕ := 0
  returned : Bool := false
  passes : List ℕ := []

/-- A step of a worker, something new for the GUI thread, or its next step in what it has begun. -/
inductive GuiTurn where
  | capture (now : TimePoint)
  | inference
  | setMode (mode : DetectionMode)
  | deliver
  | stop
  | gui

namespace GuiSession

variable {σ δ τ ρ : Type}

def session (g : GuiSession σ δ τ ρ) : Session σ δ τ ρ := g.delivery.session

def capacity (g : GuiSession σ δ τ ρ) : ℕ := g.session.pipeline.eventLog.capacity

def deliver (g : GuiSession σ δ τ ρ) : GuiSession σ δ τ ρ :=
  match g.gui, g.posted with
  | .idle, posted + 1 =>
    { g with
      posted := posted
      gui := match g.delivery.view.shown with
        | none => .idle
        | some presented => .notifying presented }
  | _, _ => g

def stop (g : GuiSession σ δ τ ρ) : GuiSession σ δ τ ρ :=
  match g.gui with
  | .idle => if g.session.pipeline.running then { g with gui := .stopping } else g
  | _ => g

variable [IVideoSource σ] [IDetector δ] [ITracker τ] [IRule ρ]

def worker (draw : Renderers) (label : Label) (g : GuiSession σ δ τ ρ) : GuiSession σ δ τ ρ :=
  { g with delivery := g.delivery.step draw (.worker label) }

def inference (draw : Renderers) (g : GuiSession σ δ τ ρ) : GuiSession σ δ τ ρ :=
  { g.worker draw .inference with
    posted := match g.session.inference with
      | .presented => if g.session.pipeline.onPresented then g.posted + 1 else g.posted
      | _ => g.posted }

def setMode (draw : Renderers) (mode : DetectionMode) (g : GuiSession σ δ τ ρ) :
    GuiSession σ δ τ ρ :=
  match g.gui with
  | .idle => g.worker draw (.setMode mode)
  | _ => g

def carryOn (draw : Renderers) (g : GuiSession σ δ τ ρ) : GuiSession σ δ τ ρ :=
  match g.gui with
  | .idle => g
  | .notifying presented =>
    { g with
      gui := .idle
      delivery := g.delivery.handOver presented
      passes := g.passes ++ [g.delivery.emitted.length] }
  | .stopping =>
    match g.session.stopping with
    | .joined =>
      { g with
        gui := .idle
        returned := true
        delivery :=
          { g.delivery with
            camera := { g.delivery.camera with frame := {}, detections := [], tracks := [] } } }
    | _ => g.worker draw .stop

def step (draw : Renderers) (g : GuiSession σ δ τ ρ) : GuiTurn → GuiSession σ δ τ ρ
  | .capture now => g.worker draw (.capture now)
  | .inference => g.inference draw
  | .setMode mode => g.setMode draw mode
  | .deliver => g.deliver
  | .stop => g.stop
  | .gui => g.carryOn draw

def run (draw : Renderers) (g : GuiSession σ δ τ ρ) (turns : List GuiTurn) : GuiSession σ δ τ ρ :=
  Machine.run (step draw) g turns

def KeepsMode (g : GuiSession σ δ τ ρ) (turn : GuiTurn) : Prop :=
  match turn with
  | .setMode mode => mode = g.session.pipeline.mode
  | _ => True

instance (g : GuiSession σ δ τ ρ) (turn : GuiTurn) : Decidable (g.KeepsMode turn) := by
  unfold KeepsMode
  split <;> infer_instance

/-- Everything that one step can do. -/
inductive Stepped (draw : Renderers) (g : GuiSession σ δ τ ρ) (turn : GuiTurn) :
    GuiSession σ δ τ ρ → Prop where
  | worked (label : Label) (posted : ℕ)
      (asked : ∀ mode, label = .setMode mode → turn = .setMode mode) :
      Stepped draw g turn { g.worker draw label with posted := posted }
  | turned (gui : GuiState) (posted : ℕ)
      (begins : gui = g.gui ∨ g.gui = .idle ∧
        (gui = .idle ∨ gui = .stopping ∨ g.session.pipeline.running = true)) :
      Stepped draw g turn { g with gui := gui, posted := posted }
  | handed (presented : PresentedFrame) (notifying : g.gui = .notifying presented) :
      Stepped draw g turn
        { g with
          gui := .idle
          delivery := g.delivery.handOver presented
          passes := g.passes ++ [g.delivery.emitted.length] }
  | returned (stopping : g.gui = .stopping) (joined : g.session.stopping = .joined) :
      Stepped draw g turn
        { g with
          gui := .idle
          returned := true
          delivery :=
            { g.delivery with
              camera := { g.delivery.camera with frame := {}, detections := [], tracks := [] } } }

omit [IVideoSource σ] [IDetector δ] [ITracker τ] [IRule ρ] in
theorem running_of_shown {g : GuiSession σ δ τ ρ} {presented : PresentedFrame}
    (shown : g.delivery.view.shown = some presented) : g.session.pipeline.running = true := by
  cases runs : g.session.pipeline.running with
  | true => rfl
  | false =>
    rw [session] at runs
    simp [Delivery.view, CameraManager.shown, runs] at shown

theorem step_spec (draw : Renderers) (g : GuiSession σ δ τ ρ) (turn : GuiTurn) :
    Stepped draw g turn (g.step draw turn) := by
  have idles : Stepped draw g turn g := .turned g.gui g.posted (Or.inl rfl)
  cases turn with
  | capture now => exact .worked (.capture now) g.posted (by simp)
  | inference => exact .worked .inference _ (by simp)
  | setMode mode =>
    simp only [step, setMode]
    split
    · exact .worked (.setMode mode) g.posted (by simp)
    · exact idles
  | deliver =>
    simp only [step, deliver]
    split
    · rename_i posted idle _
      refine .turned _ posted (Or.inr ⟨idle, ?_⟩)
      cases shown : g.delivery.view.shown with
      | none => exact Or.inl rfl
      | some presented => exact Or.inr (Or.inr (running_of_shown shown))
    · exact idles
  | stop =>
    simp only [step, stop]
    split
    · rename_i idle
      split
      · exact .turned .stopping g.posted (Or.inr ⟨idle, Or.inr (Or.inl rfl)⟩)
      · exact idles
    · exact idles
  | gui =>
    simp only [step, carryOn]
    split
    · exact idles
    · rename_i presented notifying
      exact .handed presented notifying
    · rename_i stopping
      split
      · rename_i joined
        exact .returned stopping joined
      · exact .worked .stop g.posted (by simp)

/-- The invariant of a run without a change of the mode. -/
structure Accounted (g : GuiSession σ δ τ ρ) : Prop where
  steady : g.delivery.Steady
  unmoded : g.session.lastMode = none ∨ g.session.lastMode = some g.session.pipeline.mode
  mark : (0 :: g.passes).getLast? = some g.delivery.camera.persistedMaxEventId
  handed : ∀ p, p ∈ g.delivery.handed.map Prod.snd ↔ ∃ e ∈ g.passes, e - g.capacity ≤ p ∧ p < e
  complete : (0 :: g.passes).IsChain (fun before after => after ≤ before + g.capacity) →
    g.delivery.handed.map Prod.snd = List.range g.delivery.camera.persistedMaxEventId

omit [IVideoSource σ] [IDetector δ] [ITracker τ] [IRule ρ] in
theorem Accounted.still {g after : GuiSession σ δ τ ρ} (h : g.Accounted)
    (steady : after.delivery.Steady)
    (unmoded : after.session.lastMode = none ∨
      after.session.lastMode = some after.session.pipeline.mode)
    (passes : after.passes = g.passes) (capacity : after.capacity = g.capacity)
    (mark : after.delivery.camera.persistedMaxEventId = g.delivery.camera.persistedMaxEventId)
    (handed : after.delivery.handed = g.delivery.handed) : after.Accounted := by
  refine ⟨steady, unmoded, ?_, ?_, ?_⟩
  · simpa [passes, mark] using h.mark
  · simpa [passes, handed, capacity] using h.handed
  · simpa [passes, handed, capacity, mark] using h.complete

theorem worker_accounted {g : GuiSession σ δ τ ρ} (h : g.Accounted) (draw : Renderers)
    (label : Label) (keeps : ∀ mode, label = .setMode mode → mode = g.session.pipeline.mode) :
    (g.worker draw label).Accounted := by
  have frame := Session.step_mode draw g.session label keeps
  have unchanged : g.session.modeChanged = false := by
    rcases h.unmoded with none | same
    · simp [Session.modeChanged, none]
    · simp [Session.modeChanged, same]
  have numbering : g.delivery.KeepsNumbering (.worker label) := by
    unfold Delivery.KeepsNumbering
    split
    · intro changed
      rw [session] at unchanged
      simp [unchanged] at changed
    · trivial
  refine h.still (Delivery.worker_steady h.steady draw label numbering) ?_ rfl
    (Session.step_grows draw g.session label).2 rfl rfl
  change (g.session.step draw label).lastMode = none ∨
    (g.session.step draw label).lastMode = some (g.session.step draw label).pipeline.mode
  rw [frame.mode]
  rcases frame.lastMode with same | now
  · rw [same]
    exact h.unmoded
  · exact Or.inr now

omit [IVideoSource σ] [IDetector δ] [ITracker τ] [IRule ρ] in
theorem handOver_accounted {g : GuiSession σ δ τ ρ} (h : g.Accounted) (presented : PresentedFrame) :
    ({ g with
        gui := .idle
        delivery := g.delivery.handOver presented
        passes := g.passes ++ [g.delivery.emitted.length] } : GuiSession σ δ τ ρ).Accounted := by
  have spec := Delivery.handOver_spec h.steady presented
  have positions := spec.positions h.steady.numbered
  have offset : g.delivery.offset = g.delivery.emitted.length - g.capacity :=
    EventLog.Shows.offset_eq h.steady.numbered.shows
  have bound := h.steady.mark_le
  rw [offset] at positions
  refine ⟨spec.steady h.steady, h.unmoded, ?_, ?_, ?_⟩
  · rw [spec.mark, ← List.cons_append, List.getLast?_concat]
  · intro p
    change p ∈ (g.delivery.handOver presented).handed.map Prod.snd ↔
      ∃ e ∈ g.passes ++ [g.delivery.emitted.length], e - g.capacity ≤ p ∧ p < e
    simp only [positions, List.mem_append, h.handed, List.mem_range'_1, List.mem_singleton,
      or_and_right, exists_or, exists_eq_left]
    constructor
    · rintro (old | more)
      · exact Or.inl old
      · right
        omega
    · rintro (old | ⟨low, high⟩)
      · exact Or.inl old
      · by_cases below : p < g.delivery.camera.persistedMaxEventId
        · exact Or.inl ((h.handed p).mp (h.steady.seen p (by omega) below))
        · right
          omega
  · intro chain
    rw [← List.cons_append, List.isChain_append] at chain
    obtain ⟨before, -, gap⟩ := chain
    have near := gap _ h.mark _ rfl
    change g.delivery.emitted.length ≤ _ + g.capacity at near
    have whole : max g.delivery.camera.persistedMaxEventId
        (g.delivery.emitted.length - g.capacity) = g.delivery.camera.persistedMaxEventId := by omega
    have rest := List.range'_append_1 (s := 0) (m := g.delivery.camera.persistedMaxEventId)
      (n := g.delivery.emitted.length - g.delivery.camera.persistedMaxEventId)
    rw [Nat.zero_add, Nat.add_sub_cancel' bound] at rest
    rw [positions, spec.mark, whole, h.complete before, List.range_eq_range', List.range_eq_range',
      rest]

theorem step_accounted (draw : Renderers) (g : GuiSession σ δ τ ρ) (turn : GuiTurn)
    (keeps : g.KeepsMode turn) (h : g.Accounted) : (g.step draw turn).Accounted := by
  have spec := step_spec draw g turn
  generalize g.step draw turn = after at spec ⊢
  cases spec with
  | worked label posted asked =>
    have worked : (g.worker draw label).Accounted := by
      apply worker_accounted h draw label
      intro mode same
      rw [asked mode same] at keeps
      exact keeps
    exact worked.still worked.steady worked.unmoded rfl rfl rfl rfl
  | turned gui posted => exact h.still h.steady h.unmoded rfl rfl rfl rfl
  | handed presented => exact handOver_accounted h presented
  | returned =>
    refine h.still ?_ h.unmoded rfl rfl rfl rfl
    exact ⟨h.steady.numbered, h.steady.mark_le, h.steady.below, h.steady.ordered,
      h.steady.faithful, h.steady.seen⟩

structure Halting (g : GuiSession σ δ τ ρ) : Prop where
  halts : g.session.Halts
  gui : g.gui = .stopping ∨ g.gui = .idle ∧ g.session.pipeline.running = false

theorem worker_halts {g : GuiSession σ δ τ ρ} (h : g.session.Halts) (draw : Renderers)
    (label : Label) : (g.worker draw label).session.Halts :=
  (Session.step_halts draw g.session label).2 h

theorem worker_halting {g : GuiSession σ δ τ ρ} (h : g.Halting) (draw : Renderers) (label : Label) :
    (g.worker draw label).Halting := by
  refine ⟨worker_halts h.halts draw label, ?_⟩
  rcases h.gui with stopping | ⟨idle, ended⟩
  · exact Or.inl stopping
  · exact Or.inr ⟨idle, (Session.step_halts draw g.session label).1 ended⟩

/-- Once `stop` has been called, no `notifyFrame` passes its guards. -/
theorem step_silent {g : GuiSession σ δ τ ρ} (h : g.Halting) (draw : Renderers) (turn : GuiTurn) :
    (g.step draw turn).Halting ∧ (g.step draw turn).delivery.handed = g.delivery.handed := by
  have spec := step_spec draw g turn
  generalize g.step draw turn = after at spec ⊢
  cases spec with
  | worked label posted =>
    have worked := worker_halting h draw label
    exact ⟨⟨worked.halts, worked.gui⟩, rfl⟩
  | turned gui posted begins =>
    refine ⟨⟨h.halts, ?_⟩, rfl⟩
    rcases begins with rfl | ⟨idle, begins⟩
    · exact h.gui
    · have ended : g.session.pipeline.running = false := by simpa [idle] using h.gui
      rcases begins with rfl | rfl | runs
      · exact Or.inr ⟨rfl, ended⟩
      · exact Or.inl rfl
      · simp [runs] at ended
  | handed presented notifying =>
    have gui := h.gui
    simp [notifying] at gui
  | returned stopping joined =>
    exact ⟨⟨h.halts, Or.inr ⟨rfl, h.halts (by simp [joined])⟩⟩, rfl⟩

theorem run_silent {g : GuiSession σ δ τ ρ} (h : g.Halting) (draw : Renderers)
    (turns : List GuiTurn) : (g.run draw turns).delivery.handed = g.delivery.handed := by
  induction turns generalizing g with
  | nil => rfl
  | cons turn turns ih =>
    obtain ⟨halting, same⟩ := step_silent h draw turn
    exact (ih halting).trans same

theorem step_halts (draw : Renderers) (g : GuiSession σ δ τ ρ) (turn : GuiTurn)
    (h : g.session.Halts) : (g.step draw turn).session.Halts := by
  have spec := step_spec draw g turn
  generalize g.step draw turn = after at spec ⊢
  cases spec with
  | worked label posted => exact worker_halts h draw label
  | turned | handed | returned => exact h

theorem run_halts {g : GuiSession σ δ τ ρ} (h : g.session.Halts) (draw : Renderers)
    (turns : List GuiTurn) : (g.run draw turns).session.Halts := by
  induction turns generalizing g with
  | nil => exact h
  | cons turn turns ih => exact ih (step_halts draw g turn h)

/-- What has been handed over: the events that were in the log when a `notifyFrame` took its
snapshot of it, each once and in the order of emission. -/
structure HandsOver (g : GuiSession σ δ τ ρ) : Prop where
  exactly : ∀ p, (g.delivery.handed.map Prod.snd).count p =
    if ∃ e ∈ g.passes, e - g.capacity ≤ p ∧ p < e then 1 else 0
  ordered : (g.delivery.handed.map Prod.snd).Pairwise (· < ·)
  faithful : ∀ event ∈ g.delivery.handed, g.delivery.emitted[event.2]? = some event.1
  /-- If the log never drops an event between two snapshots, nor before the first, these are all the
  events emitted before the last one. -/
  complete : (0 :: g.passes).IsChain (fun before after => after ≤ before + g.capacity) →
    g.delivery.handed.map Prod.fst = g.delivery.emitted.take (g.passes.getLast?.getD 0)

theorem firsts_of_positions {α : Type} {xs : List α} {l : List (α × ℕ)} {n : ℕ}
    (positions : l.map Prod.snd = List.range n) (faithful : ∀ x ∈ l, xs[x.2]? = some x.1) :
    l.map Prod.fst = xs.take n := by
  apply List.ext_getElem?
  intro i
  have there := congrArg (fun l => l[i]?) positions
  simp only [List.getElem?_map] at there ⊢
  cases here : l[i]? with
  | none =>
    have beyond : n ≤ i := by simpa [here] using there.symm
    simp [Nat.not_lt.mpr beyond]
  | some x =>
    have inside : i < n ∧ i = x.2 := by
      simpa [here, List.getElem?_eq_some_iff] using there.symm
    obtain ⟨inside, rfl⟩ := inside
    simp [List.getElem?_take_of_lt inside, faithful x (List.mem_of_getElem? here)]

omit [IVideoSource σ] [IDetector δ] [ITracker τ] [IRule ρ] in
theorem Accounted.handsOver {g : GuiSession σ δ τ ρ} (h : g.Accounted) : g.HandsOver := by
  refine ⟨?_, h.steady.ordered, h.steady.faithful, ?_⟩
  · intro p
    have distinct : (g.delivery.handed.map Prod.snd).Nodup := h.steady.ordered.imp Nat.ne_of_lt
    split
    · rename_i inside
      exact List.count_eq_one_of_mem distinct ((h.handed p).mpr inside)
    · rename_i outside
      exact List.count_eq_zero_of_not_mem (fun member => outside ((h.handed p).mp member))
  · intro chain
    have mark : g.passes.getLast?.getD 0 = g.delivery.camera.persistedMaxEventId := by
      simpa [List.getLast?_cons] using h.mark
    rw [mark]
    exact firsts_of_positions (h.complete chain) h.steady.faithful

section Started

variable [TrackerFactory τ] [RuleFactory ρ]

def opening (camera : CameraManager σ δ τ ρ) (first : Session σ δ τ ρ) : GuiSession σ δ τ ρ where
  delivery := { camera := camera.start.camera, session := first }

omit [IDetector δ] [TrackerFactory τ] in
theorem opening_accounted {camera : CameraManager σ δ τ ρ} {first : Session σ δ τ ρ}
    (started : camera.start.session = some first) : (opening camera first).Accounted := by
  obtain ⟨-, mark, p, begun⟩ := CameraManager.start_session started
  obtain ⟨source, positive, rfl⟩ := VisionPipeline.start_started begun
  refine ⟨Delivery.start_steady started, Or.inl rfl, ?_, ?_, ?_⟩
  · simpa [opening] using mark.symm
  · simp [opening]
  · intro _
    simp [opening, mark]

omit [TrackerFactory τ] in
/-- In every run without a change of the mode, what has been handed over is what the snapshots have
found, and nothing is added from the moment that `stop` is called. -/
theorem run_handsOver {camera : CameraManager σ δ τ ρ} {first : Session σ δ τ ρ}
    (started : camera.start.session = some first) (draw : Renderers) (turns : List GuiTurn)
    (keeps : Machine.EveryStep (step draw) KeepsMode (opening camera first) turns) :
    ((opening camera first).run draw turns).HandsOver ∧
      ∀ pre post, turns = pre ++ post → ((opening camera first).run draw pre).gui = .stopping →
        ((opening camera first).run draw turns).delivery.handed =
          ((opening camera first).run draw pre).delivery.handed := by
  have accounted := Machine.run_guarded (opening_accounted started) (step_accounted draw) keeps
  refine ⟨accounted.handsOver, ?_⟩
  rintro pre post rfl stopping
  have fresh : (opening camera first).session.Halts := by
    obtain ⟨-, -, p, begun⟩ := CameraManager.start_session started
    obtain ⟨source, positive, rfl⟩ := VisionPipeline.start_started begun
    exact fun begun => absurd rfl begun
  have halts : ((opening camera first).run draw pre).session.Halts := run_halts fresh draw pre
  rw [run, Machine.run_append]
  exact run_silent ⟨halts, Or.inl stopping⟩ draw post

end Started

def boundCamera : CameraManager FakeVideoSource FakeDetector FakeTracker FakeRule :=
  Delivery.fakeCamera.bindPresentedCallback

def boundFirst : Session FakeVideoSource FakeDetector FakeTracker FakeRule :=
  { Delivery.fakeFirst with pipeline := { Delivery.fakeFirst.pipeline with onPresented := true } }

theorem boundCamera_start : boundCamera.start.session = some boundFirst := rfl

def oneFrame : List GuiTurn :=
  List.replicate 9 (.capture 0) ++ List.replicate 16 .inference

def wholeStop : List GuiTurn :=
  [.stop] ++ List.replicate 5 .gui ++ List.replicate 4 (.capture 0) ++
    List.replicate 4 .inference ++ List.replicate 2 .gui

theorem bound_handsOver :
    ((opening boundCamera boundFirst).run .plain
      (oneFrame ++ [.deliver, .gui] ++ oneFrame ++ wholeStop ++ [.deliver])).HandsOver :=
  (run_handsOver boundCamera_start .plain _ (by decide +kernel)).1

/-- After `stop` and the last `notifyFrame`, all events have been handed over, if every frame was
rendered and the log still held those that came after the last snapshot. -/
def LosesNothing (g : GuiSession σ δ τ ρ) : Prop :=
  (∀ presented ∈ g.session.record.published, presented.rgb.empty = false) →
    g.delivery.emitted.length ≤ g.passes.getLast?.getD 0 + g.capacity →
    g.returned = true → g.posted = 0 →
    g.delivery.handed.map Prod.fst = g.delivery.emitted

/-- The `notifyFrame` of the last frame waits until `stop` has returned, and finds the pipeline
stopped. -/
theorem stop_loses_event :
    Machine.EveryStep (step .plain) KeepsMode (opening boundCamera boundFirst)
        (oneFrame ++ wholeStop ++ [.deliver]) ∧
      ¬ ((opening boundCamera boundFirst).run .plain
          (oneFrame ++ wholeStop ++ [.deliver])).LosesNothing := by
  refine ⟨by decide +kernel, ?_⟩
  intro kept
  have all := kept (by decide +kernel) (by decide +kernel) (by decide +kernel) (by decide +kernel)
  revert all
  decide +kernel

end GuiSession

end VisionLab
