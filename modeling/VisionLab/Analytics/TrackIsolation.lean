import VisionLab.Analytics.TrackView

/-! Tracks do not interfere inside a rule: what a rule says about a track does not depend on the
other tracks of the frames. -/
namespace VisionLab

namespace Frame

/-- Two frames with the same context that say the same about one track. -/
structure AgreeOn (id : ℕ) (frame other : Frame) : Prop where
  distinct : frame.Distinct
  other_distinct : other.Distinct
  context : frame.2 = other.2
  records : ∀ track : Track, track.trackId = id → (track ∈ frame.1 ↔ track ∈ other.1)

theorem AgreeOn.of_eq {id : ℕ} {frame other : Frame} (agree : frame.AgreeOn id other) :
    frame.of id = other.of id := by
  have same : Slots.itemOf Track.trackId id frame.1 = Slots.itemOf Track.trackId id other.1 := by
    cases found : Slots.itemOf Track.trackId id frame.1 with
    | none =>
      symm
      apply Slots.itemOf_none.mpr
      intro present
      obtain ⟨track, member, own⟩ := List.mem_map.mp present
      have here := (agree.records track own).mpr member
      exact Slots.itemOf_none.mp found (List.mem_map.mpr ⟨track, here, own⟩)
    | some track =>
      obtain ⟨member, own⟩ := Slots.itemOf_key found
      subst own
      exact (Slots.itemOf_eq_some agree.other_distinct
        ((agree.records track rfl).mp member)).symm
  simp only [of, same, agree.context]

end Frame

namespace Rule

variable [PointPolygonTest]

def answers (rule : Rule) (frames : List Frame) : List (List VisionEvent) :=
  (Mealy.run (fun rule (frame : Frame) => rule.evaluate frame.1 frame.2) rule frames).1

omit [PointPolygonTest] in
def about (rule : Rule) (id : ℕ) (events : List VisionEvent) : List VisionEvent :=
  match rule with
  | .counting _ => (eventsOf id events).map CountingRule.untotalled
  | _ => eventsOf id events

theorem answers_eq {R : Type} (wrap : R → Rule) (step : R → Frame → List VisionEvent × R)
    (same : ∀ rule (frame : Frame), (wrap rule).evaluate frame.1 frame.2 =
      ((step rule frame).1, wrap (step rule frame).2)) (rule : R) (frames : List Frame) :
    (wrap rule).answers frames = (Mealy.run step rule frames).1 := by
  unfold answers
  induction frames generalizing rule with
  | nil => rfl
  | cons frame frames ih => simp only [Mealy.run_cons, same, ih]

omit [PointPolygonTest] in
theorem agreeing_frames {id : ℕ} {frames others : List Frame}
    (agree : List.Forall₂ (Frame.AgreeOn id) frames others) :
    (∀ frame ∈ frames, frame.Distinct) ∧ (∀ frame ∈ others, frame.Distinct) ∧
      frames.map (Frame.of id) = others.map (Frame.of id) := by
  induction agree with
  | nil => simp
  | cons here _ ih =>
    obtain ⟨left, right, same⟩ := ih
    exact ⟨List.forall_mem_cons.mpr ⟨here.distinct, left⟩,
      List.forall_mem_cons.mpr ⟨here.other_distinct, right⟩,
      by simp only [List.map_cons, here.of_eq, same]⟩

omit [PointPolygonTest] in
/-- A machine that is, for one track, a machine fed with that track answers alike to frames that
agree on the track. -/
theorem isolated {id : ℕ} {S V : Type} {step : S → Frame → List VisionEvent × S} {s : S}
    {about : List VisionEvent → List VisionEvent}
    {watch : V → Option Track × RuleContext → List VisionEvent × V} {v : V}
    (seen : ∀ {frames : List Frame}, (∀ frame ∈ frames, frame.Distinct) →
      (Mealy.run step s frames).1.map about = (Mealy.run watch v (frames.map (Frame.of id))).1)
    {frames others : List Frame} (agree : List.Forall₂ (Frame.AgreeOn id) frames others) :
    (Mealy.run step s frames).1.map about = (Mealy.run step s others).1.map about := by
  obtain ⟨distinct, other_distinct, same⟩ := agreeing_frames agree
  calc (Mealy.run step s frames).1.map about
      = (Mealy.run watch v (frames.map (Frame.of id))).1 := seen distinct
    _ = (Mealy.run watch v (others.map (Frame.of id))).1 := by rw [same]
    _ = (Mealy.run step s others).1.map about := (seen other_distinct).symm

/-- Two sequences of frames that agree on a track get the same events about it, frame by frame. -/
theorem answers_isolated (rule : Rule) (id : ℕ) {frames others : List Frame}
    (agree : List.Forall₂ (Frame.AgreeOn id) frames others) :
    (rule.answers frames).map (rule.about id) = (rule.answers others).map (rule.about id) := by
  cases rule with
  | roiIntrusion rule =>
    simp only [answers_eq .roiIntrusion _ (fun _ _ => rfl)]
    exact isolated (rule.run_single id) agree
  | lineCrossing rule =>
    simp only [answers_eq .lineCrossing _ (fun _ _ => rfl)]
    exact isolated (rule.run_single id) agree
  | loitering rule =>
    simp only [answers_eq .loitering _ (fun _ _ => rfl)]
    exact isolated (rule.run_single id) agree
  | counting rule =>
    simp only [answers_eq .counting _ (fun _ _ => rfl)]
    exact isolated (rule.run_single id) agree

end Rule

/- A track that walks across a line, with company and alone. -/

def walker (id : ℕ) (bottom : ℤ) : Track := { trackId := id, box := ⟨45, bottom - 10, 10, 10⟩ }

def company : List Frame := [([walker 9 80, walker 8 80], {}), ([walker 8 20, walker 9 40], {})]

def solitude : List Frame := [([walker 8 80], {}), ([walker 8 20], {})]

theorem company_agrees : List.Forall₂ (Frame.AgreeOn 8) company solitude := by
  refine .cons ⟨by decide +kernel, by decide +kernel, rfl, ?_⟩
    (.cons ⟨by decide +kernel, by decide +kernel, rfl, ?_⟩ .nil)
  · intro track own
    have away : track ≠ walker 9 80 := by
      rintro rfl
      cases own
    simp [away]
  · intro track own
    have away : track ≠ walker 9 40 := by
      rintro rfl
      cases own
    simp [away]

section

local instance walkerTest : PointPolygonTest := .parity

theorem walker_isolated :
    let rule : Rule := .counting { config := { a := ⟨0, 50⟩, b := ⟨100, 50⟩ } }
    (rule.answers company).map (rule.about 8) = (rule.answers solitude).map (rule.about 8) :=
  Rule.answers_isolated (.counting { config := { a := ⟨0, 50⟩, b := ⟨100, 50⟩ } }) 8 company_agrees

end

end VisionLab
