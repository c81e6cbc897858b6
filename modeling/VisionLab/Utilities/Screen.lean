import VisionLab.Pipeline.FrameAccounting
import VisionLab.Utilities.SettingsInForce

/-! What the user sees. The picture, the detections and the tracks are copied together from the
mailbox of the pipeline, so they always belong to one presented frame of the session that runs; the
mailbox holds the newest one, so the display never goes back; and it is blank between sessions. -/
namespace VisionLab

variable {σ δ τ ρ : Type}

def PresentedFrame.content (presented : PresentedFrame) : Mat × List Detection × List Track :=
  (presented.rgb, presented.detections, presented.tracks)

def CameraManager.screen (c : CameraManager σ δ τ ρ) : Mat × List Detection × List Track :=
  (c.frame, c.detections, c.tracks)

def blank : Mat × List Detection × List Track := ({}, [], [])

namespace CameraManager

/-- A call that neither touches what is shown nor starts the pipeline. -/
structure Still (c after : CameraManager σ δ τ ρ) : Prop where
  screen : after.screen = c.screen
  running : after.isRunning = c.isRunning

theorem Still.refl (c : CameraManager σ δ τ ρ) : Still c c := ⟨rfl, rfl⟩

variable [IRule ρ] [RuleFactory ρ]

theorem Adjusted.still {c after : CameraManager σ δ τ ρ} (adjusted : Adjusted c after) :
    Still c after := by
  constructor
  · simp only [screen, adjusted.frame, adjusted.detections, adjusted.tracks]
  · obtain ⟨adjust, adjusts, mapped⟩ := adjusted.pipeline
    cases here : c.pipeline with
    | none => simp [isRunning, mapped, here]
    | some p => simp [isRunning, mapped, here, congrArg VisionPipeline.running (adjusts p).same]

theorem applySessionSettings_still [TrackerFactory τ] (scanned : PluginManager δ)
    (settings : SessionSettings) (c : CameraManager σ δ τ ρ) :
    Still c (c.applySessionSettings scanned settings).2 := by
  have stopped : (c.applySessionSettings scanned settings).1 = true → c.isRunning = false := by
    intro applied
    unfold applySessionSettings at applied
    unfold isRunning
    split at applied
    · cases applied
    · rename_i backup here
      by_cases running : backup.running = true
      · simp [running] at applied
      · simpa [here] using running
  have spec := applySessionSettings_cases scanned settings c
  generalize c.applySessionSettings scanned settings = result at spec stopped ⊢
  cases spec with
  | refused => exact .refl c
  | rolledBack plugins idle => exact (rolledBack_adjusted c plugins).still
  | rebuilt source => exact ⟨rfl, (stopped rfl).symm⟩

variable [IVideoSource σ] [ITracker τ]

/-- A start of a stopped pipeline shows nothing new; it runs from then on, or it still does not. -/
theorem start_still {c : CameraManager σ δ τ ρ} (stopped : c.isRunning = false) :
    c.start.camera.screen = c.screen ∧
      (c.start.session = none → c.start.camera.isRunning = false) ∧
      ∀ s, c.start.session = some s → s.Mailbox ∧ s.record.published = [] := by
  have begins : ∀ (d : CameraManager σ δ τ ρ) (p : VisionPipeline σ δ τ ρ),
      d.pipeline = some p → p.running = false →
      (d.startPipeline p).camera.screen = d.screen ∧
        ((d.startPipeline p).session = none → (d.startPipeline p).camera.isRunning = false) ∧
        ∀ s, (d.startPipeline p).session = some s → s.Mailbox ∧ s.record.published = [] := by
    intro d p here idle
    have left : ∀ after, p.start.pipeline = some after → p.start = .refused after ∨
        (∃ what, p.start = .threw what after) → after.running = false := by
      intro after given ended
      unfold VisionPipeline.start at given ended
      rw [if_neg (by simp [idle])] at given ended
      split at given
      · cases given
        exact idle
      · simp only at given
        split at given
        · cases given
          exact idle
        · split at given
          · cases given
            exact idle
          · simp_all
    unfold startPipeline
    split
    · exact ⟨rfl, fun _ => by simp [isRunning, here, idle], by simp⟩
    · rename_i q started
      refine ⟨rfl, fun _ => ?_, by simp⟩
      simpa [isRunning] using left q (by rw [started]; rfl) (Or.inl started)
    · rename_i what q started
      refine ⟨rfl, fun _ => ?_, by simp⟩
      simpa [isRunning] using left q (by rw [started]; rfl) (Or.inr ⟨what, started⟩)
    · rename_i s started
      refine ⟨rfl, (fun gone => by cases gone), ?_⟩
      intro t begun
      rw [← Option.some.inj begun]
      refine ⟨Session.start_mailbox started, ?_⟩
      obtain ⟨source, positive, rfl⟩ := VisionPipeline.start_started started
      rfl
  have cases_ := c.start_cases
  generalize c.start = outcome at cases_ ⊢
  cases cases_ with
  | stays => exact ⟨rfl, fun _ => stopped, by simp⟩
  | @begins p idle _ filled => exact begins c.injectRules p filled idle

end CameraManager

namespace Rig

/-- The display shows the presented frame number `i` of the session that runs. -/
def Shows (r : Rig σ δ τ ρ) (i : ℕ) : Prop :=
  ∃ s presented, r.live = some s ∧ s.record.published[i]? = some presented ∧
    presented.rgb.empty = false ∧ r.camera.screen = presented.content

/-- The session has ended, or the display shows the same presented frame or a later one. -/
def Onward (after : Rig σ δ τ ρ) (i : ℕ) : Prop :=
  after.live = none ∨ ∃ j, i ≤ j ∧ after.Shows j

structure Screened (r : Rig σ δ τ ρ) : Prop where
  idle : r.live = none → r.camera.isRunning = false ∧ r.camera.screen = blank
  mailbox : ∀ s, r.live = some s → s.Mailbox
  shown : r.camera.screen = blank ∨ ∃ i, r.Shows i

theorem Screened.kept {r after : Rig σ δ τ ρ} (h : r.Screened) {s t : Session σ δ τ ρ}
    (before : r.live = some s) (now : after.live = some t) (mailbox : t.Mailbox)
    (published : s.record.published <+: t.record.published)
    (screen : after.camera.screen = r.camera.screen) :
    after.Screened ∧ ∀ i, r.Shows i → after.Onward i := by
  have still : ∀ i, r.Shows i → after.Shows i := by
    rintro i ⟨u, presented, here, place, picture, content⟩
    obtain rfl := Option.some.inj (before.symm.trans here)
    obtain ⟨more, all⟩ := published
    refine ⟨t, presented, now, ?_, picture, screen.trans content⟩
    obtain ⟨bound, -⟩ := List.getElem?_eq_some_iff.mp place
    rw [← all, List.getElem?_append_left bound, place]
  refine ⟨⟨?_, ?_, ?_⟩, fun i shows => Or.inr ⟨i, le_refl i, still i shows⟩⟩
  · intro none
    rw [now] at none
    contradiction
  · intro u here
    rw [← Option.some.inj (now.symm.trans here)]
    exact mailbox
  · rcases h.shown with empty | ⟨i, shows⟩
    · exact Or.inl (screen.trans empty)
    · exact Or.inr ⟨i, still i shows⟩

theorem Screened.dark {after : Rig σ δ τ ρ} (gone : after.live = none)
    (stopped : after.camera.isRunning = false) (empty : after.camera.screen = blank) (i : ℕ) :
    after.Screened ∧ after.Onward i :=
  ⟨⟨fun _ => ⟨stopped, empty⟩, by simp [gone], Or.inl empty⟩, Or.inl gone⟩

variable [IVideoSource σ] [IDetector δ] [ITracker τ] [TrackerFactory τ] [IRule ρ] [RuleFactory ρ]

omit [TrackerFactory τ] [RuleFactory ρ] in
theorem work_screened {r : Rig σ δ τ ρ} (h : r.Screened) (draw : Renderers) (label : Label) :
    (r.work draw label).Screened ∧ ∀ i, r.Shows i → (r.work draw label).Onward i := by
  cases live : r.live with
  | none =>
    obtain ⟨stopped, empty⟩ := h.idle live
    have gone : (r.work draw label).live = none := by simp [work, live]
    exact ⟨(Screened.dark gone stopped empty 0).1,
      fun i _ => (Screened.dark gone stopped empty i).2⟩
  | some s =>
    obtain ⟨mailbox, published⟩ := Session.step_mailbox (h.mailbox s live) draw label
    exact h.kept live (by simp [work, live]) mailbox published rfl

omit [IDetector δ] [TrackerFactory τ] [RuleFactory ρ] [IVideoSource σ] [ITracker τ] [IRule ρ] in
theorem notify_screened {r : Rig σ δ τ ρ} (h : r.Screened) {s : Session σ δ τ ρ}
    (live : r.live = some s) :
    (r.leave r.view.notifyFrame.1).Screened ∧
      ∀ i, r.Shows i → (r.leave r.view.notifyFrame.1).Onward i := by
  have mailbox := h.mailbox s live
  have here : r.view.pipeline = some s.pipeline := by simp [view, live]
  have screen : r.view.screen = r.camera.screen := by simp [view, live, CameraManager.screen]
  unfold CameraManager.notifyFrame
  split
  · exact h.kept live (t := s) (by simp [leave, live, here]) mailbox List.prefix_rfl screen
  · rename_i presented shown
    have now : (r.leave { r.view with
        frame := presented.rgb
        detections := presented.detections
        tracks := presented.tracks
        persistedMaxEventId := (CameraManager.persist VisionEvent.eventId
          r.view.persistedMaxEventId r.view.recentEvents).1 }).live = some s := by
      simp [leave, live, here]
    have newest : s.record.published.getLast? = some presented ∧ presented.rgb.empty = false := by
      rw [← mailbox.newest]
      unfold CameraManager.shown at shown
      simp only [here] at shown
      split at shown
      · contradiction
      · obtain ⟨latest, picture⟩ := Option.filter_eq_some_iff.mp shown
        exact ⟨latest, by simpa using picture⟩
    rw [List.getLast?_eq_getElem?] at newest
    have shows : Shows _ (s.record.published.length - 1) :=
      ⟨s, presented, now, newest.1, newest.2, rfl⟩
    refine ⟨⟨?_, ?_, Or.inr ⟨_, shows⟩⟩, ?_⟩
    · intro none
      rw [now] at none
      contradiction
    · intro u there
      rw [← Option.some.inj (now.symm.trans there)]
      exact mailbox
    · rintro i ⟨u, earlier, there, place, -, -⟩
      obtain rfl := Option.some.inj (live.symm.trans there)
      obtain ⟨bound, -⟩ := List.getElem?_eq_some_iff.mp place
      exact Or.inr ⟨_, by omega, shows⟩

omit [IDetector δ] in
theorem call_live_screened {r : Rig σ δ τ ρ} (h : r.Screened) {s : Session σ δ τ ρ}
    (live : r.live = some s) (phase : s.stopping = .running) (move : Move δ) :
    (r.call move).Screened ∧ ∀ i, r.Shows i → (r.call move).Onward i := by
  have mailbox := h.mailbox s live
  have here : r.view.pipeline = some s.pipeline := by simp [view, live]
  have screen : r.view.screen = r.camera.screen := by simp [view, live, CameraManager.screen]
  have running : r.view.isRunning = true := by
    simp [CameraManager.isRunning, here, mailbox.running, phase]
  have unchanged : (r.leave r.view).Screened ∧ ∀ i, r.Shows i → (r.leave r.view).Onward i :=
    h.kept live (t := s) (by simp [leave, live, here]) mailbox List.prefix_rfl screen
  have same : r.Screened ∧ ∀ i, r.Shows i → r.Onward i :=
    ⟨h, fun i shows => Or.inr ⟨i, le_refl i, shows⟩⟩
  have calling := r.call_running running move
  generalize r.call move = after at calling ⊢
  cases calling with
  | nothing => exact same
  | refused => exact unchanged
  | moded mode =>
    refine h.kept live (t := { s with pipeline := s.pipeline.setMode mode })
      (by simp [leave, live, here, CameraManager.setMode]) ⟨mailbox.newest, mailbox.running⟩
      List.prefix_rfl ?_
    exact screen
  | notified => exact notify_screened h live

omit [IDetector δ] in
theorem call_idle_screened {r : Rig σ δ τ ρ} (h : r.Screened) (gone : r.live = none)
    (move : Move δ) : (r.call move).Screened ∧ ∀ i, r.Shows i → (r.call move).Onward i := by
  obtain ⟨stopped, empty⟩ := h.idle gone
  have view : r.view = r.camera := by simp [view, gone]
  have nothing : ∀ i, ¬ r.Shows i := by
    rintro i ⟨s, presented, here, -⟩
    rw [gone] at here
    contradiction
  have left : ∀ camera : CameraManager σ δ τ ρ, CameraManager.Still r.camera camera →
      (r.leave camera).Screened := by
    intro camera still
    exact (Screened.dark (by simp [leave, gone]) (still.running.trans stopped)
      (still.screen.trans empty) 0).1
  refine ⟨?_, fun i shows => absurd shows (nothing i)⟩
  cases move with
  | capture now => exact h
  | inference => exact h
  | stop => exact h
  | start =>
    obtain ⟨screen, refused, begun⟩ := CameraManager.start_still stopped
    simp only [call, view]
    split
    · rename_i none
      exact (Screened.dark (by simp [leave, gone]) (refused none) (screen.trans empty) 0).1
    · rename_i s started
      obtain ⟨mailbox, -⟩ := begun s started
      refine ⟨(fun gone => by cases gone), ?_, Or.inl (screen.trans empty)⟩
      rintro t ⟨⟩
      exact mailbox
  | setMode mode => exact left _ (view ▸ (CameraManager.setMode_adjusted r.camera mode).still)
  | applySessionSettings scanned settings =>
    exact left _ (view ▸ CameraManager.applySessionSettings_still scanned settings r.camera)
  | applyRuleSpecs specs =>
    exact left _ (view ▸ (CameraManager.applyRuleSpecs_adjusted r.camera specs).still)
  | notifyFrame =>
    have shown : r.view.shown = none := by
      unfold CameraManager.shown
      rw [view]
      split
      · rfl
      · rename_i p here
        simp only [CameraManager.isRunning, here, Option.map_some, Option.getD_some] at stopped
        simp [stopped]
    have same : r.view.notifyFrame.1 = r.camera := by
      unfold CameraManager.notifyFrame
      rw [shown, view]
    simp only [call, same]
    exact left _ (.refl _)

omit [IVideoSource σ] [IDetector δ] [ITracker τ] [TrackerFactory τ] [IRule ρ] [RuleFactory ρ] in
theorem settle_screened {r : Rig σ δ τ ρ} (h : r.Screened) :
    r.settle.Screened ∧ ∀ i, r.Shows i → r.settle.Onward i := by
  have same : r.Screened ∧ ∀ i, r.Shows i → r.Onward i :=
    ⟨h, fun i shows => Or.inr ⟨i, le_refl i, shows⟩⟩
  unfold settle
  split
  · exact same
  · rename_i s live
    split
    · rename_i phase
      have stopped : r.view.isRunning = false := by
        simp [CameraManager.isRunning, view, live, (h.mailbox s live).running, phase]
      exact ⟨(Screened.dark rfl stopped rfl 0).1, fun _ _ => Or.inl rfl⟩
    · exact same

theorem step_screened (draw : Renderers) {r : Rig σ δ τ ρ} (h : r.Screened) (move : Move δ) :
    (r.step draw move).Screened ∧ ∀ i, r.Shows i → (r.step draw move).Onward i := by
  cases move with
  | capture now => exact work_screened h draw (.capture now)
  | inference => exact work_screened h draw .inference
  | stop =>
    obtain ⟨worked, onward⟩ := work_screened h draw .stop
    obtain ⟨settled, further⟩ := settle_screened worked
    refine ⟨settled, fun i shows => ?_⟩
    rcases onward i shows with gone | ⟨j, later, there⟩
    · refine Or.inl ?_
      simp only [step]
      unfold settle
      simp only [gone]
    · rcases further j there with gone | ⟨k, latest, finally_⟩
      · exact Or.inl gone
      · exact Or.inr ⟨k, later.trans latest, finally_⟩
  | _ =>
    simp only [step]
    split
    · rename_i free
      cases live : r.live with
      | none => exact call_idle_screened h live _
      | some s =>
        have phase : s.stopping = .running := by simpa [Rig.free, live] using free
        exact call_live_screened h live phase _
    · exact ⟨h, fun i shows => Or.inr ⟨i, le_refl i, shows⟩⟩

omit [IVideoSource σ] [IDetector δ] [ITracker τ] in
theorem ofSource_screened (modelDir : String) (inference : InferenceSelection)
    (scanned : PluginManager δ) (source : Option σ) :
    ({ camera := CameraManager.ofSource modelDir inference scanned source } :
      Rig σ δ τ ρ).Screened :=
  (Screened.dark rfl rfl rfl 0).1

/-- At every moment of every run, between sessions the display is blank, and while a session runs it
is blank or shows the picture, the detections and the tracks of one frame that this session has
presented; and from there it goes to later frames only, until the session ends. -/
theorem screen_faithful (draw : Renderers) (modelDir : String) (inference : InferenceSelection)
    (scanned : PluginManager δ) (source : Option σ) (moves : List (Move δ)) :
    let r := run draw { camera := (CameraManager.ofSource modelDir inference scanned source :
      CameraManager σ δ τ ρ) } moves
    (r.live = none → r.camera.screen = blank) ∧ (r.camera.screen = blank ∨ ∃ i, r.Shows i) ∧
      ∀ i, r.Shows i → ∀ more,
        (∃ next, next <+: more ∧ (r.run draw next).live = none) ∨
          ∃ j, i ≤ j ∧ (r.run draw more).Shows j := by
  intro r
  have screened : ∀ more, (r.run draw more).Screened := fun more =>
    Machine.run_invariant
      (Machine.run_invariant (ofSource_screened modelDir inference scanned source)
        (fun s move h => (step_screened draw h move).1) moves)
      (fun s move h => (step_screened draw h move).1) more
  refine ⟨fun gone => ((screened []).idle gone).2, (screened []).shown, ?_⟩
  intro i shows more
  induction more using List.reverseRecOn with
  | nil => exact Or.inr ⟨i, le_refl i, shows⟩
  | append_singleton more move ih =>
    rcases ih with ⟨next, early, gone⟩ | ⟨j, later, there⟩
    · exact Or.inl ⟨next, early.trans (List.prefix_append _ _), gone⟩
    · have last : r.run draw (more ++ [move]) = (r.run draw more).step draw move :=
        Machine.run_append (step draw) r more [move]
      rcases (step_screened draw (screened more) move).2 j there with gone | ⟨k, latest, finally_⟩
      · exact Or.inl ⟨more ++ [move], List.prefix_rfl, last ▸ gone⟩
      · exact Or.inr ⟨k, later.trans latest, last ▸ finally_⟩

end Rig

end VisionLab
