import VisionLab.Controllers.EventWindow

/-! When the list shows no event twice. The mark of the list is valid for one session; a call of
`startCamera` puts it back to zero even if the session goes on. -/
namespace VisionLab

theorem VisionPipeline.start_still {σ δ τ ρ : Type} [IVideoSource σ] [ITracker τ] [IRule ρ]
    {p after : VisionPipeline σ δ τ ρ} (off : p.running = false)
    (left : p.start.pipeline = some after) (refused : ∀ s, p.start ≠ .started s) :
    after.running = false := by
  unfold start at left refused
  split at left
  · cases left
  · split at left
    · cases left
      exact off
    · simp only at left
      split at left
      · cases left
        exact off
      · split at left
        · cases left
          exact off
        · simp_all

namespace CameraManager

variable {σ δ τ ρ : Type}

section Rules

variable [IRule ρ] [RuleFactory ρ]

theorem injectRules_running (c : CameraManager σ δ τ ρ) : c.injectRules.isRunning = c.isRunning := by
  unfold injectRules isRunning
  cases c.pipeline <;> rfl

theorem applyRuleSpecs_running (c : CameraManager σ δ τ ρ) (specs : List RuleSpec) :
    (c.applyRuleSpecs specs).2.isRunning = c.isRunning ∧
      (c.isRunning = true → (c.applyRuleSpecs specs).2 = c) := by
  unfold applyRuleSpecs
  split
  · exact ⟨rfl, fun _ => rfl⟩
  · rename_i stopped
    refine ⟨?_, fun running => absurd running stopped⟩
    split
    · rfl
    · unfold isRunning
      cases c.pipeline <;> rfl

variable [IVideoSource σ] [ITracker τ]

theorem start_running {c : CameraManager σ δ τ ρ} (running : c.isRunning = true) :
    c.start = { result := .ok true, camera := c } := by
  cases here : c.pipeline with
  | none => simp [isRunning, here] at running
  | some p =>
    have on : p.running = true := by simpa [isRunning, here] using running
    simp only [start, here, on, if_true]

theorem start_stopped {c : CameraManager σ δ τ ρ} (stopped : c.isRunning = false)
    (refused : c.start.session = none) : c.start.camera.isRunning = false := by
  have pipeline : ∀ (c : CameraManager σ δ τ ρ) (p : VisionPipeline σ δ τ ρ), c.pipeline = some p →
      p.running = false → (c.startPipeline p).session = none →
      (c.startPipeline p).camera.isRunning = false := by
    intro c p here off refused
    have kept (after : VisionPipeline σ δ τ ρ) (left : p.start.pipeline = some after)
        (none_ : ∀ s, p.start ≠ .started s) : after.running = false :=
      VisionPipeline.start_still off left none_
    unfold startPipeline at refused ⊢
    cases begun : p.start with
    | already => simpa [isRunning, here] using off
    | refused after => simpa [isRunning] using kept after (by rw [begun]; rfl) (by simp [begun])
    | threw what after => simpa [isRunning] using kept after (by rw [begun]; rfl) (by simp [begun])
    | started s => simp [begun] at refused
  unfold start at refused ⊢
  split
  · exact stopped
  · rename_i p here
    have off : p.running = false := by simpa [isRunning, here] using stopped
    simp only [here, off, Bool.false_eq_true, if_false] at refused ⊢
    have still : c.injectRules.isRunning = false := c.injectRules_running.trans stopped
    split
    · exact still
    · rename_i q there
      rw [there] at refused
      have off : q.running = false := by simpa [isRunning, there] using still
      exact pipeline c.injectRules q there off refused

theorem start_begins {c : CameraManager σ δ τ ρ} {s : Session σ δ τ ρ}
    (started : c.start.session = some s) :
    s.Numbered ∧ s.lastMode = none ∧ s.pipeline.running = true ∧ s.record.emitted = [] := by
  obtain ⟨-, -, p, begun⟩ := start_session started
  have numbered := Session.start_numbered begun
  obtain ⟨source, positive, rfl⟩ := VisionPipeline.start_started begun
  exact ⟨numbered, rfl, rfl, rfl⟩

end Rules

end CameraManager

namespace Session

variable {σ δ τ ρ : Type}

def Unmoded (s : Session σ δ τ ρ) : Prop := s.lastMode = none ∨ s.lastMode = some s.pipeline.mode

variable [IVideoSource σ] [IDetector δ] [ITracker τ] [IRule ρ]

omit [IDetector δ] [ITracker τ] [IRule ρ] in
theorem captureStep_running (now : TimePoint) (s : Session σ δ τ ρ) :
    (s.captureStep now).pipeline.running = s.pipeline.running := by
  obtain ⟨_, _, _, _, _, _, _, after⟩ := captureStep_changes now s
  rw [after]

omit [IVideoSource σ] in
theorem inferenceStep_running (draw : Renderers) (s : Session σ δ τ ρ) :
    (s.inferenceStep draw).pipeline.running = s.pipeline.running := by
  unfold inferenceStep
  cases s.inference with
  | readMode f =>
    simp only [readModeStep]
    split <;> rfl
  | track f =>
    simp only [trackStep]
    split <;> rfl
  | rules f =>
    simp only [rulesStep]
    split <;> rfl
  | _ => rfl

theorem step_events (draw : Renderers) {s : Session σ δ τ ρ} (numbered : s.Numbered)
    (unmoded : s.Unmoded) {label : Label} (keeps : ∀ mode, label ≠ .setMode mode) :
    (s.step draw label).Numbered ∧ (s.step draw label).Unmoded ∧
      s.record.emitted <+: (s.step draw label).record.emitted ∧
      (s.step draw label).pipeline.eventLog.capacity = s.pipeline.eventLog.capacity := by
  have frame := step_mode draw s label (fun mode same => absurd same (keeps mode))
  have unchanged : s.modeChanged = false := by
    rcases unmoded with none_ | same
    · simp [modeChanged, none_]
    · simp [modeChanged, same]
  refine ⟨?_, ?_, step_grows draw s label⟩
  · apply step_numbered numbered
    intro _ f _ changed
    simp [unchanged] at changed
  · unfold Unmoded
    rw [frame.mode]
    rcases frame.lastMode with same | now
    · exact same ▸ unmoded
    · exact Or.inr now

end Session

def eventAt (sessions : List (List VisionEvent)) (key : ℕ × ℕ) : Option VisionEvent :=
  sessions[key.1]?.bind (fun emitted => emitted[key.2]?)

theorem eventAt_grows (past : List (List VisionEvent)) {emitted after : List VisionEvent}
    (grows : emitted <+: after) {key : ℕ × ℕ} {event : VisionEvent}
    (there : eventAt (past ++ [emitted]) key = some event) :
    eventAt (past ++ [after]) key = some event := by
  unfold eventAt at there ⊢
  rw [List.getElem?_append] at there ⊢
  split
  · rename_i old
    rwa [if_pos old] at there
  · rename_i new
    rw [if_neg new] at there
    generalize key.1 - past.length = n at there ⊢
    cases n with
    | zero =>
      obtain ⟨more, rfl⟩ := grows
      simp only [List.getElem?_cons_zero, Option.bind_some] at there ⊢
      obtain ⟨inside, -⟩ := List.getElem?_eq_some_iff.mp there
      rwa [List.getElem?_append_left inside]
    | succ n => simp at there

theorem eventAt_new (past : List (List VisionEvent)) (emitted : List VisionEvent) {key : ℕ × ℕ}
    {event : VisionEvent} (there : eventAt past key = some event) :
    eventAt (past ++ [emitted]) key = some event := by
  unfold eventAt at there ⊢
  obtain ⟨session, found, -⟩ := Option.bind_eq_some_iff.mp there
  obtain ⟨inside, -⟩ := List.getElem?_eq_some_iff.mp found
  rwa [List.getElem?_append_left inside]

theorem eventAt_last (past : List (List VisionEvent)) (emitted : List VisionEvent) (p : ℕ) :
    eventAt (past ++ [emitted]) (past.length, p) = emitted[p]? := by
  simp [eventAt]

namespace EventWindow

variable {σ δ τ ρ : Type}

def sessions (w : EventWindow σ δ τ ρ) : List (List VisionEvent) :=
  w.past ++ (w.live.map (fun s => s.record.emitted)).toList

/-- Each row behind the first ones shows the event that is noted for it, no event has two rows, and
the rows of a session are in the order of emission. -/
structure ListsOnce (first : List EventModelRow) (w : EventWindow σ δ τ ρ) : Prop where
  rows : ∃ rows, w.eventModel.rows = first ++ rows ∧
    List.Forall₂ (fun row key => ∃ event wall, eventAt w.sessions key = some event ∧
      row = EventModel.fromEvent wall 0 event) rows w.listed
  once : w.listed.Nodup
  ordered : w.listed.Pairwise (fun a b => a.1 = b.1 → a.2 < b.2)

theorem ListsOnce.carried {first : List EventModelRow} {w after : EventWindow σ δ τ ρ}
    (h : w.ListsOnce first) (rows : after.eventModel.rows = w.eventModel.rows)
    (listed : after.listed = w.listed)
    (grows : ∀ key event, eventAt w.sessions key = some event →
      eventAt after.sessions key = some event) : after.ListsOnce first := by
  obtain ⟨live, there, shows⟩ := h.rows
  refine ⟨⟨live, rows.trans there, ?_⟩, ?_, ?_⟩
  · rw [listed]
    apply shows.imp
    rintro row key ⟨event, wall, emitted, same⟩
    exact ⟨event, wall, grows key event emitted, same⟩
  · rw [listed]
    exact h.once
  · rw [listed]
    exact h.ordered

/-- The invariant of a window whose list shows no event twice. -/
structure Sound (first : List EventModelRow) (w : EventWindow σ δ τ ρ) : Prop where
  lists : w.ListsOnce first
  working : ∀ s, w.live = some s →
    s.Numbered ∧ s.Unmoded ∧ s.Halts ∧ w.controller.camera.isSome = true
  running : ∀ s, w.live = some s → w.gui ≠ .stopping → s.pipeline.running = true
  still : w.live = none → w.gui = .idle ∧ w.cameraRuns = false
  mark : ∀ s, w.live = some s → w.eventModel.maxSessionEventId ≤ s.record.emitted.length
  below : ∀ key ∈ w.listed, key.1 < w.past.length ∨ w.live.isSome = true ∧ key.1 = w.past.length ∧
    (key.2 < w.eventModel.maxSessionEventId ∨ key.2 < w.offset)
  seen : ∀ p, w.offset ≤ p → p < w.eventModel.maxSessionEventId → w.live.isSome = true →
    (w.past.length, p) ∈ w.listed

theorem view_live {w : EventWindow σ δ τ ρ} {s : Session σ δ τ ρ} (live : w.live = some s)
    (there : w.controller.camera.isSome = true) :
    ∃ camera, w.view.camera = some camera ∧ camera.pipeline = some s.pipeline := by
  obtain ⟨camera, here⟩ := Option.isSome_iff_exists.mp there
  exact ⟨{ camera with pipeline := some s.pipeline }, by simp [view, live, here], rfl⟩

theorem cameraRuns_live {w : EventWindow σ δ τ ρ} {s : Session σ δ τ ρ} (live : w.live = some s)
    (there : w.controller.camera.isSome = true) : w.cameraRuns = s.pipeline.running := by
  obtain ⟨camera, here, pipeline⟩ := view_live live there
  simp [cameraRuns, here, CameraManager.isRunning, pipeline]

theorem offset_live {w : EventWindow σ δ τ ρ} {s : Session σ δ τ ρ} (live : w.live = some s)
    (numbered : s.Numbered) :
    w.offset = s.record.emitted.length - s.pipeline.eventLog.capacity := by
  have same := EventLog.Shows.offset_eq numbered.shows
  simpa [offset, live] using same

theorem recentEvents_live {w : EventWindow σ δ τ ρ} {s : Session σ δ τ ρ} (live : w.live = some s)
    (numbered : s.Numbered) (there : w.controller.camera.isSome = true) :
    w.recentEvents = s.record.emitted.drop w.offset := by
  obtain ⟨camera, here, pipeline⟩ := view_live live there
  have shows : s.pipeline.eventLog.events = _ := numbered.shows
  rw [offset_live live numbered, ← shows]
  simp [recentEvents, here, CameraManager.recentEvents, pipeline, VisionPipeline.recentEvents,
    EventLog.snapshot]

theorem Sound.quiet {first : List EventModelRow} {w after : EventWindow σ δ τ ρ}
    (h : w.Sound first) (model : after.eventModel = w.eventModel) (listed : after.listed = w.listed)
    (past : after.past = w.past) (live : after.live = w.live)
    (camera : after.controller.camera.isSome = w.controller.camera.isSome)
    (running : ∀ s, w.live = some s → after.gui ≠ .stopping → s.pipeline.running = true)
    (still : w.live = none → after.gui = .idle ∧ after.cameraRuns = false) : after.Sound first := by
  have sessions : after.sessions = w.sessions := by rw [sessions, sessions, past, live]
  have offset : after.offset = w.offset := by rw [offset, offset, live]
  refine ⟨?_, ?_, ?_, ?_, ?_, ?_, ?_⟩
  · refine h.lists.carried (congrArg EventModel.rows model) listed ?_
    intro key event there
    rwa [sessions]
  · simpa only [live, camera] using h.working
  · simpa only [live] using running
  · simpa only [live] using still
  · simpa only [live, model] using h.mark
  · simpa only [live, model, listed, past, offset] using h.below
  · simpa only [live, model, listed, past, offset] using h.seen

theorem Sound.resting {first : List EventModelRow} {w : EventWindow σ δ τ ρ} (live : w.live = none)
    (lists : w.ListsOnce first) (gui : w.gui = .idle) (off : w.cameraRuns = false)
    (past : ∀ key ∈ w.listed, key.1 < w.past.length) : w.Sound first := by
  have none_ {s : Session σ δ τ ρ} (same : w.live = some s) : False := by
    cases live.symm.trans same
  refine ⟨lists, ?_, ?_, fun _ => ⟨gui, off⟩, ?_, fun key member => Or.inl (past key member), ?_⟩
  · exact fun _ same => (none_ same).elim
  · exact fun _ same => (none_ same).elim
  · exact fun _ same => (none_ same).elim
  · intro p _ _ on
    simp [live] at on

theorem Sound.past_only {first : List EventModelRow} {w : EventWindow σ δ τ ρ} (h : w.Sound first)
    (live : w.live = none) : ∀ key ∈ w.listed, key.1 < w.past.length := by
  intro key member
  rcases h.below key member with old | ⟨on, -⟩
  · exact old
  · simp [live] at on

theorem eventId_eq {s : Session σ δ τ ρ} (numbered : s.Numbered) {p : ℕ} {event : VisionEvent}
    (there : s.record.emitted[p]? = some event) : event.eventId = p + 1 := by
  have number := congrArg (fun ids => ids[p]?) numbered.emitted
  obtain ⟨inside, -⟩ := List.getElem?_eq_some_iff.mp there
  simp only [List.getElem?_map, there, Option.map_some, List.getElem?_range' inside,
    Option.some.injEq] at number
  omega

/-- The events of the log above the mark, each with its position. -/
def fresh (w : EventWindow σ δ τ ρ) : List (VisionEvent × ℕ) :=
  (w.recentEvents.zipIdx w.offset).filter (fun event =>
    decide (w.eventModel.maxSessionEventId < event.1.eventId))

theorem mem_fresh {w : EventWindow σ δ τ ρ} {s : Session σ δ τ ρ} (live : w.live = some s)
    (numbered : s.Numbered) (there : w.controller.camera.isSome = true) (event : VisionEvent × ℕ) :
    event ∈ w.fresh ↔ s.record.emitted[event.2]? = some event.1 ∧ w.offset ≤ event.2 ∧
      w.eventModel.maxSessionEventId ≤ event.2 := by
  simp only [fresh, List.mem_filter, decide_eq_true_eq, recentEvents_live live numbered there,
    List.mem_zipIdx_iff_le_and_getElem?_sub, List.getElem?_drop]
  constructor
  · rintro ⟨⟨low, found⟩, above⟩
    rw [Nat.add_sub_cancel' low] at found
    have number := eventId_eq numbered found
    exact ⟨found, low, by omega⟩
  · rintro ⟨found, low, above⟩
    have number := eventId_eq numbered found
    rw [Nat.add_sub_cancel' low]
    exact ⟨⟨low, found⟩, by omega⟩

theorem fresh_ascending (w : EventWindow σ δ τ ρ) :
    w.fresh.Pairwise (fun a b => a.2 < b.2) := by
  apply List.Pairwise.filter
  apply List.pairwise_map.mp
  rw [List.zipIdx_map_snd]
  exact List.pairwise_lt_range' 1

/-- A look at the log appends the fresh events and moves the mark to the end. -/
theorem onFrameChanged_spec {w : EventWindow σ δ τ ρ} {s : Session σ δ τ ρ} (live : w.live = some s)
    (numbered : s.Numbered) (there : w.controller.camera.isSome = true)
    (mark : w.eventModel.maxSessionEventId ≤ s.record.emitted.length) (wall : ℤ) :
    (w.onFrameChanged wall).eventModel.rows =
        w.eventModel.rows ++ w.fresh.map (fun event => EventModel.fromEvent wall 0 event.1) ∧
      (w.onFrameChanged wall).eventModel.maxSessionEventId = s.record.emitted.length ∧
      (w.onFrameChanged wall).listed =
        w.listed ++ w.fresh.map (fun event => (w.past.length, event.2)) := by
  have recent := recentEvents_live live numbered there
  have length : w.recentEvents.length = s.record.emitted.length - w.offset := by
    rw [recent, List.length_drop]
  have numbers : w.recentEvents.map VisionEvent.eventId =
      List.range' (w.offset + 1) w.recentEvents.length := by
    rw [length, recent, List.map_drop, numbered.emitted, List.drop_range', Nat.mul_one,
      Nat.add_comm]
  obtain ⟨-, moved⟩ := EventModel.beyond_consecutive w.eventModel.maxSessionEventId w.offset
    w.recentEvents numbers
  have beyond : EventModel.beyond w.eventModel.maxSessionEventId w.recentEvents =
      w.fresh.map Prod.fst := by
    have whole : (w.recentEvents.zipIdx w.offset).map Prod.fst = w.recentEvents :=
      List.zipIdx_map_fst _ _
    conv_lhs => rw [← whole]
    rw [EventModel.beyond, List.filter_map]
    rfl
  refine ⟨?_, ?_, rfl⟩
  · rw [onFrameChanged, EventModel.ingest_live, beyond, List.map_map]
    rfl
  · have positive := s.pipeline.eventLog.capacity_pos
    have low := offset_live live numbered
    rw [onFrameChanged, EventModel.ingest_live]
    simp only [moved, length]
    split <;> omega

theorem Sound.ingested {first : List EventModelRow} {w : EventWindow σ δ τ ρ} (h : w.Sound first)
    {s : Session σ δ τ ρ} (live : w.live = some s) (gui : w.gui = .frameChanged) (wall : ℤ) :
    (w.onFrameChanged wall).Sound first := by
  obtain ⟨numbered, mode, halts, camera⟩ := h.working s live
  obtain ⟨rows, mark, listed⟩ := onFrameChanged_spec live numbered camera (h.mark s live) wall
  have fresh := mem_fresh live numbered camera
  have running := h.running s live (by simp [gui])
  -- every new row lies behind the mark and in the log
  have apart : ∀ key ∈ w.listed, ∀ more ∈ w.fresh.map (fun event => (w.past.length, event.2)),
      key.1 = more.1 → key.2 < more.2 := by
    intro key old more new same
    obtain ⟨event, member, rfl⟩ := List.mem_map.mp new
    obtain ⟨-, low, above⟩ := (fresh event).mp member
    rcases h.below key old with before | ⟨-, -, behind | behind⟩
    · simp only at same
      omega
    · exact Nat.lt_of_lt_of_le behind above
    · exact Nat.lt_of_lt_of_le behind low
  have ordered : (w.onFrameChanged wall).listed.Pairwise (fun a b => a.1 = b.1 → a.2 < b.2) := by
    rw [listed, List.pairwise_append, List.pairwise_map]
    refine ⟨h.lists.ordered, ?_, apart⟩
    apply w.fresh_ascending.imp
    intro a b below _
    exact below
  refine ⟨⟨?_, ?_, ordered⟩, ?_, ?_, ?_, ?_, ?_, ?_⟩
  · obtain ⟨before, there, shows⟩ := h.lists.rows
    refine ⟨before ++ w.fresh.map (fun event => EventModel.fromEvent wall 0 event.1), ?_, ?_⟩
    · rw [rows, there, List.append_assoc]
    · rw [listed]
      apply List.rel_append shows
      rw [List.forall₂_map_left_iff, List.forall₂_map_right_iff, List.forall₂_same]
      intro event member
      refine ⟨event.1, wall, ?_, rfl⟩
      have sessions : (w.onFrameChanged wall).sessions = w.past ++ [s.record.emitted] := by
        simp [EventWindow.sessions, onFrameChanged, live]
      have found := eventAt_last w.past s.record.emitted event.2
      rw [← sessions] at found
      exact found.trans ((fresh event).mp member).1
  · apply ordered.imp
    intro a b below same
    subst same
    exact Nat.lt_irrefl _ (below rfl)
  · intro t same
    obtain rfl := Option.some.inj (live.symm.trans same)
    exact ⟨numbered, mode, halts, camera⟩
  · intro t same _
    obtain rfl := Option.some.inj (live.symm.trans same)
    exact running
  · intro none_
    cases live.symm.trans none_
  · intro t same
    obtain rfl := Option.some.inj (live.symm.trans same)
    exact mark.le
  · rw [listed, mark]
    intro key member
    rcases List.mem_append.mp member with old | new
    · rcases h.below key old with before | ⟨on, same, low | behind⟩
      · exact Or.inl before
      · exact Or.inr ⟨on, same, Or.inl (Nat.lt_of_lt_of_le low (h.mark s live))⟩
      · exact Or.inr ⟨on, same, Or.inr behind⟩
    · obtain ⟨event, given, rfl⟩ := List.mem_map.mp new
      obtain ⟨inside, -⟩ := List.getElem?_eq_some_iff.mp ((fresh event).mp given).1
      exact Or.inr ⟨by simp [onFrameChanged, live], rfl, Or.inl inside⟩
  · rw [listed, mark]
    intro p low high on
    by_cases old : p < w.eventModel.maxSessionEventId
    · exact List.mem_append_left _ (h.seen p low old on)
    · apply List.mem_append_right
      have found := List.getElem?_eq_getElem high
      exact List.mem_map.mpr
        ⟨(s.record.emitted[p], p), (fresh _).mpr ⟨found, low, Nat.le_of_not_lt old⟩, rfl⟩

section Steps

variable [IVideoSource σ] [IDetector δ] [ITracker τ] [IRule ρ]

theorem Sound.worked {first : List EventModelRow} {w after : EventWindow σ δ τ ρ}
    (h : w.Sound first) {s : Session σ δ τ ρ} (live : w.live = some s) (draw : Renderers)
    (label : Label) (keeps : ∀ mode, label ≠ .setMode mode)
    (running : w.gui ≠ .stopping → (s.step draw label).pipeline.running = s.pipeline.running)
    (posted : ℕ) (now : after = { w with live := some (s.step draw label), posted := posted }) :
    after.Sound first := by
  subst now
  obtain ⟨numbered, unmoded, halts, camera⟩ := h.working s live
  obtain ⟨stays, mode, grows, capacity⟩ := s.step_events draw numbered unmoded keeps
  have offset : w.offset ≤
      ({ w with live := some (s.step draw label), posted := posted } : EventWindow σ δ τ ρ).offset := by
    rw [offset_live live numbered, offset_live rfl stays, capacity]
    exact Nat.sub_le_sub_right grows.length_le _
  refine ⟨?_, ?_, ?_, nofun, ?_, ?_, ?_⟩
  · refine h.lists.carried rfl rfl ?_
    intro key event there
    have before : w.sessions = w.past ++ [s.record.emitted] := by rw [sessions, live]; rfl
    rw [before] at there
    exact eventAt_grows w.past grows there
  · rintro _ ⟨⟩
    exact ⟨stays, mode, (s.step_halts draw label).2 halts, camera⟩
  · rintro _ ⟨⟩ free
    exact (running free).trans (h.running s live free)
  · rintro _ ⟨⟩
    exact (h.mark s live).trans grows.length_le
  · intro key member
    rcases h.below key member with old | ⟨-, same, low | behind⟩
    · exact Or.inl old
    · exact Or.inr ⟨rfl, same, Or.inl low⟩
    · exact Or.inr ⟨rfl, same, Or.inr (Nat.lt_of_lt_of_le behind offset)⟩
  · intro p low high _
    exact h.seen p (offset.trans low) high (by rw [live]; rfl)

omit [IDetector δ] [ITracker τ] [IRule ρ] [IVideoSource σ] in
theorem Sound.settled {first : List EventModelRow} {w : EventWindow σ δ τ ρ} (h : w.Sound first)
    {s : Session σ δ τ ρ} (live : w.live = some s) (joined : s.stopping = .joined) :
    (w.settle s).Sound first := by
  obtain ⟨-, -, halts, camera⟩ := h.working s live
  obtain ⟨before, here, pipeline⟩ := view_live live camera
  have off : s.pipeline.running = false := halts (by simp [joined])
  have same : (w.settle s).sessions = w.sessions := by simp [sessions, settle, live]
  refine .resting rfl (h.lists.carried rfl rfl ?_) rfl ?_ ?_
  · intro key event there
    rwa [same]
  · have shown : (w.settle s).view.camera = w.view.camera.map (fun camera =>
        { camera with frame := {}, detections := [], tracks := [] }) := rfl
    rw [cameraRuns, shown, here]
    simp [CameraManager.isRunning, pipeline, off]
  · intro key member
    have longer : (w.settle s).past.length = w.past.length + 1 := List.length_append
    rcases h.below key member with old | ⟨-, same, -⟩ <;> omega

section Starts

variable [RuleFactory ρ]

/-- A call of `startCamera` that the condition is about: the camera runs. Then no event that the log
still holds may have been listed. -/
def Harmless (w : EventWindow σ δ τ ρ) : WindowTurn → Prop
  | .startCamera => (w.gui.free && w.cameraRuns) = true →
      ∀ event ∈ w.recentEvents, w.eventModel.maxSessionEventId < event.eventId
  | _ => True

instance (w : EventWindow σ δ τ ρ) (turn : WindowTurn) : Decidable (w.Harmless turn) := by
  unfold Harmless
  split <;> infer_instance

omit [IDetector δ] in
theorem startCamera_running {w : EventWindow σ δ τ ρ} {s : Session σ δ τ ρ} (live : w.live = some s)
    (there : w.controller.camera.isSome = true) (gui : w.gui = .idle)
    (running : s.pipeline.running = true) :
    w.startCamera.live = some s ∧ w.startCamera.eventModel = w.eventModel.beginSession ∧
      w.startCamera.listed = w.listed ∧ w.startCamera.past = w.past ∧
      w.startCamera.gui = .idle ∧ w.startCamera.controller.camera.isSome = true ∧
      w.startCamera.posted = w.posted := by
  obtain ⟨camera, here, pipeline⟩ := view_live live there
  have on : camera.isRunning = true := by simp [CameraManager.isRunning, pipeline, running]
  have kept := (camera.applyRuleSpecs_running w.controller.ruleModel).2 on
  have started := CameraManager.start_running on
  have rules : w.view.ruleModel = w.controller.ruleModel := by simp [view, live]
  simp [startCamera, gui, here, kept, started, live, VisionController.startCamera, rules]

omit [IDetector δ] in
theorem startCamera_camera {c : VisionController σ δ τ ρ} {camera : CameraManager σ δ τ ρ}
    (here : c.camera = some camera) :
    c.startCamera.camera = some (camera.applyRuleSpecs c.ruleModel).2.start.camera := by
  simp only [VisionController.startCamera, here]
  split <;> rfl

omit [IDetector δ] in
theorem startCamera_opens {first : List EventModelRow} {w : EventWindow σ δ τ ρ} (h : w.Sound first)
    (live : w.live = none) (gui : w.gui = .idle) : w.startCamera.Sound first := by
  obtain ⟨-, off⟩ := h.still live
  have view : w.view = w.controller := by simp [EventWindow.view, live]
  cases here : w.view.camera with
  | none =>
    have same : w.startCamera = w := by simp [startCamera, gui, here]
    rwa [same]
  | some camera =>
    let ready := (camera.applyRuleSpecs w.controller.ruleModel).2
    have stopped : ready.isRunning = false := by
      have before : camera.isRunning = false := by simpa [cameraRuns, here] using off
      exact (camera.applyRuleSpecs_running w.controller.ruleModel).1.trans before
    have after : w.startCamera =
        { w with
          controller := w.view.startCamera
          eventModel := w.eventModel.beginSession
          live := ready.start.session } := by
      simp only [startCamera, gui, here, live, ready]
      split <;> simp_all
    have there : w.view.startCamera.camera = some ready.start.camera := by
      rw [startCamera_camera here, view]
    have past := h.past_only live
    have sessions : w.sessions = w.past := by simp [EventWindow.sessions, live]
    rw [after]
    cases begun : ready.start.session with
    | none =>
      refine .resting rfl (h.lists.carried rfl rfl ?_) gui ?_ past
      · intro key event found
        rw [sessions] at found
        simpa [EventWindow.sessions] using found
      · change (w.view.startCamera.camera.map CameraManager.isRunning).getD false = false
        rw [there]
        exact CameraManager.start_stopped stopped begun
    | some s =>
      obtain ⟨numbered, fresh, running, silent⟩ := CameraManager.start_begins begun
      have halts : s.Halts := by
        obtain ⟨-, -, p, started⟩ := CameraManager.start_session begun
        obtain ⟨source, positive, rfl⟩ := VisionPipeline.start_started started
        exact fun begins => absurd rfl begins
      refine ⟨h.lists.carried rfl rfl ?_, ?_, ?_, fun none_ => ?_, ?_, ?_, ?_⟩
      · intro key event found
        rw [sessions] at found
        exact eventAt_new w.past s.record.emitted found
      · rintro _ ⟨⟩
        exact ⟨numbered, Or.inl fresh, halts, by rw [there]; rfl⟩
      · rintro _ ⟨⟩ _
        exact running
      · simp at none_
      · exact fun _ _ => Nat.zero_le _
      · exact fun key member => Or.inl (past key member)
      · exact fun p _ high => absurd high (Nat.not_lt_zero p)

omit [IDetector δ] in
theorem startCamera_sound {first : List EventModelRow} {w : EventWindow σ δ τ ρ} (h : w.Sound first)
    (harmless : w.Harmless .startCamera) : w.startCamera.Sound first := by
  cases gui : w.gui with
  | idle =>
    cases live : w.live with
    | some s =>
      obtain ⟨numbered, mode, halts, camera⟩ := h.working s live
      have running := h.running s live (by simp [gui])
      obtain ⟨still, model, listed, past, idle, there, -⟩ :=
        startCamera_running live camera gui running
      have offset : w.startCamera.offset = w.offset := by
        rw [EventWindow.offset, EventWindow.offset, still, live]
      have mark : w.startCamera.eventModel.maxSessionEventId = 0 := by rw [model]; rfl
      -- the log begins behind everything listed
      have behind : w.eventModel.maxSessionEventId ≤ w.offset := by
        have low := h.mark s live
        have place := offset_live live numbered
        have positive := s.pipeline.eventLog.capacity_pos
        by_cases inside : w.offset < s.record.emitted.length
        · have oldest : s.record.emitted[w.offset] ∈ w.recentEvents := by
            rw [recentEvents_live live numbered camera, List.drop_eq_getElem_cons inside]
            exact List.mem_cons_self
          have runs : (w.gui.free && w.cameraRuns) = true := by
            rw [cameraRuns_live live camera, running, gui]
            rfl
          have above := harmless runs _ oldest
          rw [eventId_eq numbered (List.getElem?_eq_getElem inside)] at above
          omega
        · omega
      refine ⟨?_, ?_, ?_, ?_, ?_, ?_, ?_⟩
      · refine h.lists.carried (by rw [model]; rfl) listed ?_
        intro key event found
        rwa [sessions, still, past, ← live]
      · intro t same
        obtain rfl := Option.some.inj (still.symm.trans same)
        exact ⟨numbered, mode, halts, there⟩
      · intro t same _
        obtain rfl := Option.some.inj (still.symm.trans same)
        exact running
      · intro none_
        cases still.symm.trans none_
      · intro t same
        rw [mark]
        exact Nat.zero_le _
      · rw [listed, past, still, offset]
        intro key member
        rcases h.below key member with old | ⟨-, same, low | low⟩
        · exact Or.inl old
        · exact Or.inr ⟨rfl, same, Or.inr (Nat.lt_of_lt_of_le low behind)⟩
        · exact Or.inr ⟨rfl, same, Or.inr low⟩
      · rw [mark]
        intro p _ high
        exact absurd high (Nat.not_lt_zero p)
    | none => exact startCamera_opens h live gui
  | _ =>
    have same : w.startCamera = w := by simp [startCamera, gui]
    rwa [same]

omit [IVideoSource σ] [IDetector δ] [ITracker τ] [IRule ρ] [RuleFactory ρ] in
theorem stopCamera_sound {first : List EventModelRow} {w : EventWindow σ δ τ ρ}
    (h : w.Sound first) : w.stopCamera.Sound first := by
  unfold stopCamera
  split
  · rename_i gui
    refine h.quiet rfl rfl rfl rfl rfl ?_ ?_
    · intro s live _
      exact h.running s live (by simp [gui])
    · intro none_
      obtain ⟨-, off⟩ := h.still none_
      refine ⟨by simp [off], ?_⟩
      simpa [cameraRuns, view, none_] using off
  · exact h

omit [IVideoSource σ] [IDetector δ] [ITracker τ] [IRule ρ] [RuleFactory ρ] in
theorem deliver_sound {first : List EventModelRow} {w : EventWindow σ δ τ ρ} (h : w.Sound first) :
    w.deliver.Sound first := by
  unfold deliver
  split
  · rename_i posted gui _
    refine h.quiet rfl rfl rfl rfl rfl ?_ ?_
    · intro s live _
      exact h.running s live (by simp [gui])
    · intro none_
      obtain ⟨-, off⟩ := h.still none_
      refine ⟨?_, by simpa [cameraRuns, view, none_] using off⟩
      have silent : w.view.camera.bind CameraManager.shown = none := by
        cases here : w.view.camera with
        | none => rfl
        | some camera =>
          have stopped : camera.isRunning = false := by simpa [cameraRuns, here] using off
          rw [Option.bind_some, CameraManager.shown]
          cases there : camera.pipeline with
          | none => rfl
          | some p =>
            have still : p.running = false := by
              simpa [CameraManager.isRunning, there] using stopped
            simp [still]
      rw [silent]
  · exact h

omit [RuleFactory ρ] in
theorem carryOn_sound {first : List EventModelRow} {w : EventWindow σ δ τ ρ} (h : w.Sound first)
    (draw : Renderers) (wall : ℤ) : (w.carryOn wall).Sound first := by
  unfold carryOn
  split
  · exact h
  · rename_i presented gui
    cases live : w.live with
    | none =>
      obtain ⟨idle, -⟩ := h.still live
      simp [gui] at idle
    | some s =>
      obtain ⟨-, -, -, camera⟩ := h.working s live
      refine h.quiet rfl rfl rfl live.symm ?_ ?_ ?_
      · simp [view, live]
      · intro t same _
        exact h.running t same (by simp [gui])
      · intro none_
        cases live.symm.trans none_
  · rename_i gui
    cases live : w.live with
    | none =>
      obtain ⟨idle, -⟩ := h.still live
      simp [gui] at idle
    | some s => exact h.ingested live gui wall
  · rename_i gui
    split
    · rename_i none_
      obtain ⟨idle, -⟩ := h.still none_
      simp [gui] at idle
    · rename_i s live
      split
      · rename_i joined
        exact h.settled live joined
      · exact h.worked live draw .stop (by simp) (fun free => absurd gui free) w.posted rfl

theorem step_sound {first : List EventModelRow} (draw : Renderers) (w : EventWindow σ δ τ ρ)
    (turn : WindowTurn) (harmless : w.Harmless turn) (h : w.Sound first) :
    (w.step draw turn).Sound first := by
  cases turn with
  | startCamera => exact startCamera_sound h harmless
  | stopCamera => exact stopCamera_sound h
  | capture now =>
    cases live : w.live with
    | none =>
      have same : w.step draw (.capture now) = w := by simp [step, live]; rw [← live]
      rwa [same]
    | some s =>
      refine h.worked live draw (.capture now) (by simp)
        (fun _ => s.captureStep_running now) w.posted ?_
      simp [step, live, Session.step]
  | inference =>
    cases live : w.live with
    | none =>
      have same : w.step draw .inference = w := by simp [step, inference, live]
      rwa [same]
    | some s =>
      refine h.worked live draw .inference (by simp) (fun _ => s.inferenceStep_running draw)
        (w.inference draw).posted ?_
      simp only [step, inference, live, Session.step]
  | deliver => exact deliver_sound h
  | gui wall => exact carryOn_sound h draw wall

def FramePending (w : EventWindow σ δ τ ρ) : Prop :=
  0 < w.posted ∧ (w.view.camera.bind CameraManager.shown).isSome = true

omit [IVideoSource σ] [IDetector δ] [ITracker τ] [IRule ρ] [RuleFactory ρ] in
theorem shown_live {w after : EventWindow σ δ τ ρ} {s : Session σ δ τ ρ} (live : w.live = some s)
    (there : w.controller.camera.isSome = true) (still : after.live = some s)
    (here : after.controller.camera.isSome = true) :
    after.view.camera.bind CameraManager.shown = w.view.camera.bind CameraManager.shown := by
  obtain ⟨before, found, pipeline⟩ := view_live live there
  obtain ⟨now, found_, pipeline_⟩ := view_live still here
  simp only [found, found_, Option.bind_some, CameraManager.shown, pipeline, pipeline_]

/-- A `notifyFrame` that passes its guards is the call of the manager and then a look at the log. -/
theorem deliver_looks {w : EventWindow σ δ τ ρ} (gui : w.gui = .idle) (pending : w.FramePending)
    (draw : Renderers) (wall : ℤ) :
    ∃ controller posted,
      controller.camera = w.view.camera.map (fun camera => camera.notifyFrame.1) ∧
      w.run draw [.deliver, .gui wall, .gui wall] = onFrameChanged wall
        { w with controller := controller, gui := .frameChanged, posted := posted } := by
  obtain ⟨some_, passes⟩ := pending
  obtain ⟨presented, shown⟩ := Option.isSome_iff_exists.mp passes
  obtain ⟨camera, there, passing⟩ := Option.bind_eq_some_iff.mp shown
  obtain ⟨posted, waiting⟩ := Nat.exists_eq_succ_of_ne_zero (Nat.ne_of_gt some_)
  let delivered : EventWindow σ δ τ ρ :=
    { w with posted := posted, gui := .notifying presented }
  have first : w.step draw .deliver = delivered := by
    simp only [step, deliver, gui, waiting, shown, delivered]
  refine ⟨{ w.controller with
    camera := delivered.view.camera.map (fun camera => camera.takeFrame presented) }, posted, ?_, ?_⟩
  · change w.view.camera.map (fun camera => camera.takeFrame presented) = _
    rw [there, Option.map_some, Option.map_some, CameraManager.notifyFrame_takeFrame passing]
  · rw [run, Machine.run_cons, first]
    rfl

/-- The look at the log that follows a harmful call lists an event again. -/
theorem startCamera_repeats {first : List EventModelRow} {w : EventWindow σ δ τ ρ} (h : w.Sound first)
    (harm : ¬w.Harmless .startCamera) (pending : w.FramePending) (draw : Renderers) (wall : ℤ) :
    ¬(w.run draw [.startCamera, .deliver, .gui wall, .gui wall]).listed.Nodup := by
  simp only [Harmless, not_forall, Nat.not_lt, Bool.and_eq_true] at harm
  obtain ⟨⟨free, runs⟩, event, inside, old⟩ := harm
  have gui : w.gui = .idle := by
    cases gui : w.gui with
    | idle => rfl
    | _ => simp [gui, WindowState.free] at free
  cases live : w.live with
  | none =>
    obtain ⟨-, off⟩ := h.still live
    simp [off] at runs
  | some s =>
    obtain ⟨numbered, -, -, camera⟩ := h.working s live
    have running := h.running s live (by simp [gui])
    obtain ⟨still, model, listed, past, idle, there, posted⟩ :=
      startCamera_running live camera gui running
    have waits : w.startCamera.FramePending := by
      refine ⟨posted ▸ pending.1, ?_⟩
      rw [shown_live live camera still there]
      exact pending.2
    obtain ⟨controller, left, taken, looks⟩ := deliver_looks idle waits draw wall
    have present : controller.camera.isSome = true := by
      cases here : w.startCamera.view.camera with
      | none => simp [FramePending, here] at waits
      | some camera => simp [taken, here]
    let looking : EventWindow σ δ τ ρ :=
      { w.startCamera with controller := controller, gui := .frameChanged, posted := left }
    have mark : looking.eventModel.maxSessionEventId = 0 := by
      change w.startCamera.eventModel.maxSessionEventId = 0
      rw [model]
      rfl
    have offset : looking.offset = w.offset := by
      change w.startCamera.offset = w.offset
      rw [EventWindow.offset, EventWindow.offset, still, live]
    have zero : looking.eventModel.maxSessionEventId ≤ s.record.emitted.length := by
      rw [mark]
      exact Nat.zero_le _
    have on : looking.live = some s := still
    obtain ⟨-, -, rows⟩ := onFrameChanged_spec on numbered present zero wall
    -- the event of the log stands in the list already
    rw [recentEvents_live live numbered camera] at inside
    obtain ⟨i, there_⟩ := List.mem_iff_getElem?.mp inside
    rw [List.getElem?_drop] at there_
    have number := eventId_eq numbered there_
    have before : (w.past.length, w.offset + i) ∈ w.listed :=
      h.seen (w.offset + i) (Nat.le_add_right _ _) (by omega) (by rw [live]; rfl)
    have again : (event, w.offset + i) ∈ looking.fresh := by
      apply (mem_fresh on numbered present _).mpr
      rw [offset, mark]
      exact ⟨there_, Nat.le_add_right _ _, Nat.zero_le _⟩
    have last : w.run draw [.startCamera, .deliver, .gui wall, .gui wall] =
        looking.onFrameChanged wall := looks
    have prior : looking.listed = w.listed ∧ looking.past = w.past := ⟨listed, past⟩
    rw [last, rows, prior.1, prior.2]
    intro once
    have apart := List.disjoint_of_nodup_append once
    exact apart before (List.mem_map.mpr ⟨_, again, rfl⟩)

/-- A controller before its first start, with what the list shows by then. -/
def opening (controller : VisionController σ δ τ ρ) (model : EventModel) : EventWindow σ δ τ ρ where
  controller := controller
  eventModel := model

/-- In every run whose starts meet the condition no event is listed twice. The first start that does
not meet it leads to a repetition as soon as the next `notifyFrame` passes its guards. -/
theorem listed_once (controller : VisionController σ δ τ ρ)
    (stopped : (controller.camera.map CameraManager.isRunning).getD false = false)
    (model : EventModel) (draw : Renderers) (turns : List WindowTurn)
    (harmless : Machine.EveryStep (step draw) Harmless (opening controller model) turns) :
    (∀ pre, pre <+: turns → ((opening controller model).run draw pre).ListsOnce model.rows) ∧
      let w := (opening controller model).run draw turns
      ¬w.Harmless .startCamera → w.FramePending → ∀ wall,
        ¬(w.run draw [.startCamera, .deliver, .gui wall, .gui wall]).ListsOnce model.rows := by
  have begins : (opening controller model).Sound model.rows :=
    .resting rfl ⟨⟨[], (List.append_nil _).symm, .nil⟩, .nil, .nil⟩ rfl stopped nofun
  constructor
  · rintro pre ⟨post, rfl⟩
    obtain ⟨early, -⟩ := (Machine.everyStep_append _ pre post).mp harmless
    exact (Machine.run_guarded begins (step_sound draw) early).lists
  · intro w harm pending wall again
    have sound : w.Sound model.rows := Machine.run_guarded begins (step_sound draw) harmless
    exact startCamera_repeats sound harm pending draw wall again.once

end Starts

end Steps

def fakeController : VisionController FakeVideoSource FakeDetector FakeTracker FakeRule where
  camera := some GuiSession.boundCamera
  ruleModel := GuiSession.boundCamera.ruleSpecs

def oneFrame : List WindowTurn :=
  List.replicate 9 (.capture 0) ++ List.replicate 16 .inference ++ [.deliver, .gui 5, .gui 5]

def wholeStop : List WindowTurn :=
  [.stopCamera] ++ List.replicate 5 (.gui 0) ++ List.replicate 4 (.capture 0) ++
    List.replicate 4 .inference ++ List.replicate 2 (.gui 0)

theorem two_sessions_listed_once :
    ((opening fakeController {}).run .plain
      ([.startCamera] ++ oneFrame ++ wholeStop ++ [.startCamera] ++ oneFrame)).ListsOnce [] :=
  (listed_once fakeController (by decide +kernel) {} .plain
    ([.startCamera] ++ oneFrame ++ wholeStop ++ [.startCamera] ++ oneFrame)
    (by decide +kernel)).1 _ (List.prefix_refl _)

example : ((opening fakeController {}).run .plain
    ([.startCamera] ++ oneFrame ++ wholeStop ++ [.startCamera] ++ oneFrame)).listed =
    [(0, 0), (1, 0)] := by decide +kernel

/-- A second call while the camera runs brings the first event back with the next frame. -/
theorem second_start_repeats :
    ¬((opening fakeController {}).run .plain
      ([.startCamera] ++ oneFrame ++ [.startCamera] ++ oneFrame)).ListsOnce [] := by
  intro lists
  have once := lists.once
  revert once
  decide +kernel

end EventWindow

end VisionLab
