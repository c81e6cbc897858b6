import Mathlib.Data.List.Infix
import VisionLab.Pipeline.Fakes

/-! What the tracker is fed. The worker reads the mode twice in one iteration; a switch between
the two reads hands the boxes of one detector to a tracker that has been reset for another. -/
namespace VisionLab

/-- Between two resets the tracker is handed detections of one mode, the mode the worker had
recorded when it handed them over. An empty hand carries no detection. -/
def SingleMode (calls : List TrackerCall) : Prop :=
  ∀ stretch, stretch <:+: calls → .reset ∉ stretch → ∃ mode, ∀ source lastMode detections,
    .update source lastMode detections ∈ stretch → detections ≠ [] →
      source = mode ∧ lastMode = some mode

def Standing (calls : List TrackerCall) (recorded : Option DetectionMode) : Prop :=
  ∀ stretch, stretch <:+ calls → .reset ∉ stretch → ∀ source lastMode detections,
    .update source lastMode detections ∈ stretch → detections ≠ [] →
      some source = recorded ∧ lastMode = recorded

theorem Standing.snoc_reset (calls : List TrackerCall) (recorded : Option DetectionMode) :
    Standing (calls ++ [.reset]) recorded := by
  intro stretch last fresh source lastMode detections given
  rcases List.suffix_concat_iff.mp last with rfl | ⟨before, rfl, -⟩
  · cases given
  · simp at fresh

theorem Standing.snoc_update {calls : List TrackerCall} {recorded : Option DetectionMode}
    (h : Standing calls recorded) {source : DetectionMode} {detections : List Detection}
    (agree : detections ≠ [] → recorded = some source) :
    Standing (calls ++ [.update source recorded detections]) recorded := by
  intro stretch last fresh source' lastMode detections' given some'
  rcases List.suffix_concat_iff.mp last with rfl | ⟨before, rfl, suffix⟩
  · cases given
  · simp only [List.mem_append, List.mem_singleton, not_or] at fresh given
    rcases given with given | given
    · exact h before suffix fresh.1 _ _ _ given some'
    · injection given with same_source same_mode same_detections
      subst same_source same_mode same_detections
      exact ⟨(agree some').symm, rfl⟩

theorem Standing.of_none {calls : List TrackerCall} (h : Standing calls none)
    (recorded : Option DetectionMode) : Standing calls recorded := by
  intro stretch last fresh source lastMode detections given some'
  exact absurd (h stretch last fresh _ _ _ given some').1 nofun

theorem SingleMode.snoc {calls : List TrackerCall} {call : TrackerCall}
    {recorded : Option DetectionMode} (h : SingleMode calls)
    (standing : Standing (calls ++ [call]) recorded) : SingleMode (calls ++ [call]) := by
  intro stretch inside fresh
  rcases List.infix_concat_iff.mp inside with last | inside
  · have here := standing stretch last fresh
    cases recorded with
    | none =>
      refine ⟨.none, fun source lastMode detections given some' => ?_⟩
      exact absurd (here _ _ _ given some').1 nofun
    | some mode =>
      refine ⟨mode, fun source lastMode detections given some' => ?_⟩
      obtain ⟨same, recorded⟩ := here _ _ _ given some'
      exact ⟨Option.some.inj same, recorded⟩
  · exact h stretch inside fresh

namespace Session

variable {σ δ τ ρ : Type}

/-- A worker that reads the mode a second time, with detections for the tracker in its hands,
finds the mode that chose their detector. -/
def SecondReadAgrees (s : Session σ δ τ ρ) (label : Label) : Prop :=
  match label, s.inference with
  | .inference, .readMode f =>
    s.pipeline.tracker.isSome = true → f.presented.detections ≠ [] → f.source = s.pipeline.mode
  | _, _ => True

instance (s : Session σ δ τ ρ) (label : Label) : Decidable (s.SecondReadAgrees label) := by
  unfold SecondReadAgrees
  split <;> infer_instance

structure Fed (s : Session σ δ τ ρ) : Prop where
  single : SingleMode s.record.trackerCalls
  standing : Standing s.record.trackerCalls s.lastMode
  silent : s.pipeline.tracker = none → s.record.trackerCalls = []
  pending : ∀ f, s.inference = .track f → s.pipeline.tracker.isSome = true →
    f.presented.detections ≠ [] → s.lastMode = some f.source

/-- What a step that is neither the second read nor a call of the tracker leaves alone. -/
structure FeedFrame (s after : Session σ δ τ ρ) : Prop where
  calls : after.record.trackerCalls = s.record.trackerCalls
  lastMode : after.lastMode = s.lastMode
  tracker : after.pipeline.tracker.isSome = s.pipeline.tracker.isSome
  pending : ∀ f, after.inference = .track f ↔ s.inference = .track f

theorem FeedFrame.fed {s after : Session σ δ τ ρ} (frame : FeedFrame s after) (h : s.Fed) :
    after.Fed := by
  refine ⟨?_, ?_, ?_, ?_⟩
  · rw [frame.calls]
    exact h.single
  · rw [frame.calls, frame.lastMode]
    exact h.standing
  · intro none
    rw [frame.calls]
    have same := frame.tracker
    rw [none, Option.isSome_none] at same
    exact h.silent (Option.isSome_eq_false_iff.mp same.symm |> Option.isNone_iff_eq_none.mp)
  · intro f here present
    rw [frame.lastMode]
    rw [frame.tracker] at present
    exact h.pending f ((frame.pending f).mp here) present

theorem FeedFrame.refl (s : Session σ δ τ ρ) : FeedFrame s s := ⟨rfl, rfl, rfl, fun _ => Iff.rfl⟩

theorem Aside.feed {s after : Session σ δ τ ρ} (aside : Aside s after) : FeedFrame s after :=
  ⟨aside.calls, aside.lastMode, by rw [aside.tracker], fun f => by rw [aside.inference]⟩

section Inference

variable [IDetector δ] [ITracker τ] [IRule ρ]

theorem inferenceStep_feed (draw : Renderers) (s : Session σ δ τ ρ)
    (reads : ∀ f, s.inference ≠ .readMode f) (calls : ∀ f, s.inference ≠ .track f) :
    FeedFrame s (s.inferenceStep draw) := by
  unfold inferenceStep
  cases pc : s.inference with
  | readMode f => exact absurd pc (reads f)
  | track f => exact absurd pc (calls f)
  | done => exact .refl s
  | loop =>
    refine ⟨rfl, rfl, rfl, fun f => ⟨fun here => ?_, fun here => (calls f here).elim⟩⟩
    simp only at here
    split at here <;> contradiction
  | pop =>
    refine ⟨rfl, rfl, rfl, fun f => ⟨fun here => ?_, fun here => (calls f here).elim⟩⟩
    simp only at here
    split at here <;> contradiction
  | rules f =>
    simp only [rulesStep]
    split <;> exact ⟨rfl, rfl, rfl, fun f => ⟨nofun, fun here => (calls f here).elim⟩⟩
  | _ => exact ⟨rfl, rfl, rfl, fun f => ⟨nofun, fun here => (calls f here).elim⟩⟩

omit [IDetector δ] [ITracker τ] [IRule ρ] in
theorem modeChanged_eq_false {s : Session σ δ τ ρ} (same : s.modeChanged = false) :
    s.lastMode = none ∨ s.lastMode = some s.pipeline.mode := by
  unfold modeChanged at same
  cases last : s.lastMode with
  | none => exact Or.inl rfl
  | some mode =>
    rw [last] at same
    simp only [Option.any_some, decide_eq_false_iff_not, not_not] at same
    exact Or.inr (by rw [same])

omit [IDetector δ] in
theorem readModeStep_fed {s : Session σ δ τ ρ} (h : s.Fed) {f : InFlight}
    (agrees : s.pipeline.tracker.isSome = true → f.presented.detections ≠ [] →
      f.source = s.pipeline.mode) : (s.readModeStep f).Fed := by
  have kept := readModeStep_tracker f s
  have feed : SingleMode (s.readModeStep f).record.trackerCalls ∧
      Standing (s.readModeStep f).record.trackerCalls (some s.pipeline.mode) := by
    unfold readModeStep
    simp only
    split
    · rename_i both
      have standing := Standing.snoc_reset s.record.trackerCalls (some s.pipeline.mode)
      exact ⟨h.single.snoc standing, standing⟩
    · rename_i neither
      refine ⟨h.single, ?_⟩
      cases tracker : s.pipeline.tracker with
      | none =>
        rw [h.silent tracker]
        intro stretch last fresh source lastMode detections given
        rw [List.suffix_nil.mp last] at given
        cases given
      | some t =>
        have same : s.modeChanged = false := by simpa [tracker] using neither
        have standing := h.standing
        rcases modeChanged_eq_false same with last | last
        · rw [last] at standing
          exact standing.of_none _
        · rw [last] at standing
          exact standing
  refine ⟨feed.1, feed.2, ?_, ?_⟩
  · intro none
    rw [none] at kept
    have before : s.pipeline.tracker = .none := by simpa using kept.symm
    unfold readModeStep
    simp only [before, Option.isSome_none, Bool.and_false, Bool.false_eq_true, if_false]
    exact h.silent before
  · intro g here present some'
    injection here with same
    subst same
    rw [kept] at present
    change some s.pipeline.mode = some f.source
    rw [agrees present some']

omit [IDetector δ] [IRule ρ] in
theorem trackStep_fed {s : Session σ δ τ ρ} (h : s.Fed) {f : InFlight}
    (here : s.inference = .track f) : (s.trackStep f).Fed := by
  unfold trackStep
  cases tracker : s.pipeline.tracker with
  | none => exact ⟨h.single, h.standing, h.silent, nofun⟩
  | some t =>
    have agree : f.presented.detections ≠ [] → s.lastMode = some f.source := by
      apply h.pending f here
      rw [tracker]
      rfl
    have standing := h.standing.snoc_update agree
    exact ⟨h.single.snoc standing, standing, nofun, nofun⟩

theorem inferenceStep_fed {s : Session σ δ τ ρ} (h : s.Fed) (draw : Renderers)
    (agrees : s.SecondReadAgrees .inference) : (s.inferenceStep draw).Fed := by
  cases pc : s.inference with
  | readMode f =>
    rw [inferenceStep_readMode pc]
    simp only [SecondReadAgrees, pc] at agrees
    exact readModeStep_fed h agrees
  | track f =>
    rw [inferenceStep_track pc]
    exact trackStep_fed h pc
  | _ =>
    have frame := inferenceStep_feed draw s (by simp [pc]) (by simp [pc])
    exact frame.fed h

end Inference

variable [IVideoSource σ] [IDetector δ] [ITracker τ] [IRule ρ]

theorem step_fed (draw : Renderers) (s : Session σ δ τ ρ) (label : Label)
    (agrees : s.SecondReadAgrees label) (h : s.Fed) : (s.step draw label).Fed := by
  cases label with
  | capture now => exact (captureStep_aside now s).feed.fed h
  | inference => exact inferenceStep_fed h draw agrees
  | setMode mode => exact ⟨h.single, h.standing, h.silent, h.pending⟩
  | stop => exact (stopStep_aside s).feed.fed h

omit [IDetector δ] in
theorem start_fed {p : VisionPipeline σ δ τ ρ} {s : Session σ δ τ ρ}
    (started : p.start = .started s) : s.Fed := by
  obtain ⟨source, positive, rfl⟩ := VisionPipeline.start_started started
  refine ⟨?_, ?_, fun _ => rfl, nofun⟩
  · intro stretch inside _
    refine ⟨.none, fun _ _ _ given => ?_⟩
    rw [List.infix_nil.mp inside] at given
    cases given
  · intro stretch last _ _ _ _ given
    rw [List.suffix_nil.mp last] at given
    cases given

/- What a read that disagrees leads to. -/

/-- Detections of one mode have been handed over under another. -/
def Mixed (calls : List TrackerCall) : Prop :=
  ∃ source lastMode detections, .update source lastMode detections ∈ calls ∧ detections ≠ [] ∧
    lastMode ≠ some source

omit [IVideoSource σ] [IDetector δ] [ITracker τ] [IRule ρ] in
theorem Mixed.not_single {calls : List TrackerCall} (h : Mixed calls) : ¬ SingleMode calls := by
  obtain ⟨source, lastMode, detections, given, some', apart⟩ := h
  intro single
  obtain ⟨before, after, parts⟩ := List.append_of_mem given
  obtain ⟨mode, same⟩ := single [.update source lastMode detections]
    ⟨before, after, by rw [parts, List.append_assoc]; rfl⟩ (by simp)
  obtain ⟨rfl, recorded⟩ := same _ _ _ (List.mem_singleton_self _) some'
  exact apart recorded

/-- Detections of one mode have been handed over under another, or are about to be. -/
def Broken (s : Session σ δ τ ρ) : Prop :=
  Mixed s.record.trackerCalls ∨
    ∃ f, s.inference = .track f ∧ s.pipeline.tracker.isSome = true ∧
      f.presented.detections ≠ [] ∧ s.lastMode ≠ some f.source

omit [IVideoSource σ] [IDetector δ] [ITracker τ] [IRule ρ] in
theorem FeedFrame.broken {s after : Session σ δ τ ρ} (frame : FeedFrame s after)
    (h : s.Broken) : after.Broken := by
  rcases h with mixed | ⟨f, here, present, some', apart⟩
  · left
    rwa [frame.calls]
  · right
    refine ⟨f, (frame.pending f).mpr here, ?_, some', ?_⟩
    · rw [frame.tracker]
      exact present
    · rw [frame.lastMode]
      exact apart

omit [IVideoSource σ] [IDetector δ] [ITracker τ] [IRule ρ] in
theorem Mixed.append {calls : List TrackerCall} (h : Mixed calls) (more : List TrackerCall) :
    Mixed (calls ++ more) := by
  obtain ⟨source, lastMode, detections, given, rest⟩ := h
  exact ⟨source, lastMode, detections, List.mem_append_left more given, rest⟩

omit [IVideoSource σ] in
theorem inferenceStep_broken (draw : Renderers) {s : Session σ δ τ ρ} (h : s.Broken) :
    (s.inferenceStep draw).Broken := by
  cases pc : s.inference with
  | readMode f =>
    rw [inferenceStep_readMode pc]
    rcases h with mixed | ⟨g, here, -⟩
    · left
      unfold readModeStep
      simp only
      split
      · exact mixed.append _
      · exact mixed
    · rw [pc] at here
      contradiction
  | track f =>
    rw [inferenceStep_track pc]
    unfold trackStep
    left
    rcases h with mixed | ⟨g, here, present, some', apart⟩
    · split
      · exact mixed
      · exact mixed.append _
    · rw [pc] at here
      injection here with same
      subst same
      obtain ⟨t, tracker⟩ := Option.isSome_iff_exists.mp present
      rw [tracker]
      exact ⟨f.source, s.lastMode, f.presented.detections, by simp, some', apart⟩
  | _ =>
    have frame := inferenceStep_feed draw s (by simp [pc]) (by simp [pc])
    exact frame.broken h

theorem step_broken (draw : Renderers) (s : Session σ δ τ ρ) (label : Label) (h : s.Broken) :
    (s.step draw label).Broken := by
  cases label with
  | capture now => exact (captureStep_aside now s).feed.broken h
  | inference => exact inferenceStep_broken draw h
  | setMode mode => exact h
  | stop => exact (stopStep_aside s).feed.broken h

theorem disagreement_breaks (draw : Renderers) (s : Session σ δ τ ρ) (label : Label)
    (disagrees : ¬ s.SecondReadAgrees label) : (s.step draw label).Broken := by
  unfold SecondReadAgrees at disagrees
  split at disagrees
  · rename_i f here
    simp only [not_forall] at disagrees
    obtain ⟨present, some', apart⟩ := disagrees
    rw [step, inferenceStep_readMode here]
    refine Or.inr ⟨f, rfl, ?_, some', ?_⟩
    · rw [readModeStep_tracker]
      exact present
    · intro same
      exact apart (Option.some.inj same).symm
  · exact absurd trivial disagrees

/-- In every run of a session whose second reads all agree with the first, the tracker is fed one
mode between resets; and a run that has fed it so, with nothing left in the worker's hands, is
one whose second reads all agreed. -/
theorem tracker_fed_one_mode {p : VisionPipeline σ δ τ ρ} {first : Session σ δ τ ρ}
    (started : p.start = .started first) (draw : Renderers) (labels : List Label) :
    (Machine.EveryStep (step draw) SecondReadAgrees first labels →
      SingleMode (first.run draw labels).record.trackerCalls) ∧
    ((∀ f, (first.run draw labels).inference ≠ .track f) →
      SingleMode (first.run draw labels).record.trackerCalls →
      Machine.EveryStep (step draw) SecondReadAgrees first labels) := by
  constructor
  · intro agree
    exact (Machine.run_guarded (start_fed started) (step_fed draw) agree).single
  · intro settled single
    by_contra disagree
    rcases Machine.run_unguarded (disagreement_breaks draw) (step_broken draw) disagree with
      mixed | ⟨f, here, -⟩
    · exact mixed.not_single single
    · exact settled f here

theorem fake_tracker_fed_one_mode :
    SingleMode (fakeSession.run .plain
      (List.replicate 16 (.capture 0) ++ List.replicate 16 .inference ++ [.setMode .object] ++
        List.replicate 16 .inference)).record.trackerCalls :=
  (tracker_fed_one_mode fakePipeline_start .plain _).1 (by decide +kernel)

/-- A switch between the two reads of the first frame hands a face to a tracker that the worker
believes to be fed objects, and an object after it without a reset. -/
theorem switch_between_reads_mixes :
    ¬ SingleMode (fakeSession.run .plain
      (List.replicate 16 (.capture 0) ++ List.replicate 3 .inference ++ [.setMode .object] ++
        List.replicate 19 .inference)).record.trackerCalls := by
  intro single
  have calls : (fakeSession.run .plain
      (List.replicate 16 (.capture 0) ++ List.replicate 3 .inference ++ [.setMode .object] ++
        List.replicate 19 .inference)).record.trackerCalls =
      [.update .face (some .object) [⟨1, "face", 9 / 10, ⟨1, 2, 3, 4⟩⟩],
        .update .object (some .object) [⟨1, "fake-object", 9 / 10, ⟨1, 2, 3, 4⟩⟩]] := by
    decide +kernel
  rw [calls] at single
  obtain ⟨mode, same⟩ := single _ (List.infix_refl _) (by simp)
  have face := (same _ _ _ List.mem_cons_self (by simp)).1
  have object := (same _ _ _ (List.mem_cons_of_mem _ (List.mem_singleton_self _)) (by simp)).1
  rw [← face] at object
  contradiction

end Session

end VisionLab
