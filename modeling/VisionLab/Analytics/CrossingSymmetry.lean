import VisionLab.Analytics.CrossingBalance
import VisionLab.Analytics.SegmentGeometry
import VisionLab.Analytics.TrackView

/-! Crossings seen from the other side. Exchanging the two points of the line, or walking a path
backwards, keeps the crossings and turns the direction of each. -/
namespace VisionLab

def CrossingDirection.turn : CrossingDirection → CrossingDirection
  | .none => .none
  | .forward => .reverse
  | .reverse => .forward

/- The geometry, branch by branch. -/

theorem nearlyZero_neg (value : ℚ) : nearlyZero (-value) = nearlyZero value := by
  simp only [nearlyZero, abs_neg]

theorem samePoint_comm (a b : Point2f) : samePoint a b = samePoint b a := by
  unfold samePoint
  rw [← nearlyZero_neg (a.x - b.x), ← nearlyZero_neg (a.y - b.y), neg_sub, neg_sub]

theorem signOf_neg (value : ℚ) : signOf (-value) = -signOf value := by
  rcases signOf_cases value with zero | one | minus
  · have small : nearlyZero value = true := by
      by_contra large
      simp only [signOf, large, if_false] at zero
      split at zero <;> omega
    simp [signOf, nearlyZero_neg, small]
  · rw [one]
    exact signOf_eq_neg_one.mpr (neg_le_neg (signOf_eq_one.mp one))
  · rw [minus]
    exact signOf_eq_one.mpr (le_neg.mpr (signOf_eq_neg_one.mp minus))

theorem orientation_swap (p q r : Point2f) : orientation q p r = -orientation p q r := by
  unfold orientation
  rw [← signOf_neg]
  congr 1
  simp only [cross2, Point2f.sub]
  ring

theorem onSegment_swap (p q r : Point2f) : onSegment r q p = onSegment p q r := by
  simp only [onSegment, max_comm, min_comm]

theorem segmentsIntersect_swap_move (p1 p2 q1 q2 : Point2f) :
    segmentsIntersect p2 p1 q1 q2 = segmentsIntersect p1 p2 q1 q2 := by
  rw [Bool.eq_iff_iff, segmentsIntersect_iff, segmentsIntersect_iff, samePoint_comm p2 p1,
    orientation_swap p1 p2, orientation_swap p1 p2, onSegment_swap p1 q1 p2,
    onSegment_swap p1 q2 p2]
  exact and_congr_right fun _ => and_congr_right fun _ =>
    or_congr (and_congr neg_inj.not ne_comm)
      (or_congr (and_congr_left fun _ => neg_eq_zero)
        (or_congr (and_congr_left fun _ => neg_eq_zero) or_comm))

theorem segmentsIntersect_exchange {p1 p2 q1 q2 : Point2f}
    (meet : segmentsIntersect p1 p2 q1 q2 = true) : segmentsIntersect q1 q2 p1 p2 = true := by
  rw [segmentsIntersect_iff] at meet ⊢
  obtain ⟨first, second, apart | on | on | on | on⟩ := meet
  · exact ⟨second, first, .inl ⟨apart.2, apart.1⟩⟩
  · exact ⟨second, first, .inr (.inr (.inr (.inl on)))⟩
  · exact ⟨second, first, .inr (.inr (.inr (.inr on)))⟩
  · exact ⟨second, first, .inr (.inl on)⟩
  · exact ⟨second, first, .inr (.inr (.inl on))⟩

theorem segmentsIntersect_comm (p1 p2 q1 q2 : Point2f) :
    segmentsIntersect q1 q2 p1 p2 = segmentsIntersect p1 p2 q1 q2 :=
  Bool.eq_iff_iff.mpr ⟨segmentsIntersect_exchange, segmentsIntersect_exchange⟩

theorem segmentsIntersect_swap_line (p1 p2 q1 q2 : Point2f) :
    segmentsIntersect p1 p2 q2 q1 = segmentsIntersect p1 p2 q1 q2 := by
  rw [← segmentsIntersect_comm, segmentsIntersect_swap_move, segmentsIntersect_comm]

theorem lineSide_swap (point a b : Point2f) : lineSide point b a = -lineSide point a b := by
  unfold lineSide
  rw [samePoint_comm b a]
  split
  · rfl
  · exact orientation_swap a b point

theorem classifyCrossing_swap_line (previous current a b : Point2f) :
    classifyCrossing previous current b a = (classifyCrossing previous current a b).turn := by
  unfold classifyCrossing
  rw [lineSide_swap previous a b, lineSide_swap current a b, segmentsIntersect_swap_line]
  rcases lineSide_cases previous a b with hp | hp | hp <;>
    rcases lineSide_cases current a b with hc | hc | hc <;>
    cases segmentsIntersect previous current a b <;> simp [hp, hc, CrossingDirection.turn]

theorem classifyCrossing_swap_move (previous current a b : Point2f) :
    classifyCrossing current previous a b = (classifyCrossing previous current a b).turn := by
  unfold classifyCrossing
  rw [segmentsIntersect_swap_move]
  rcases lineSide_cases previous a b with hp | hp | hp <;>
    rcases lineSide_cases current a b with hc | hc | hc <;>
    cases segmentsIntersect previous current a b <;> simp [hp, hc, CrossingDirection.turn]

namespace LineCrossingRule

def answers (rule : LineCrossingRule) (frames : List Frame) : List (List VisionEvent) :=
  (Mealy.run (fun rule (frame : Frame) => rule.evaluate frame.1 frame.2) rule frames).1

def directions (id : ℕ) (rule : LineCrossingRule) (frames : List Frame) :
    List (List CrossingDirection) :=
  (rule.answers frames).map (fun events => (events.filter (ofTrack id)).map VisionEvent.direction)

def reported (config : LineConfig) (previous current : Point2f) : List CrossingDirection :=
  let direction := classifyCrossing previous current config.a config.b
  if direction = .none then [] else [direction]

/-- The reports along a path, one for each point after the first. -/
def moves (config : LineConfig) (feet : List Point2f) : List (List CrossingDirection) :=
  List.zipWith (reported config) feet.dropLast feet.tail

def feet (followed : List Track) : List Point2f := followed.map (fun track => footPoint track.box)

theorem crossing_directions (config : LineConfig) (context : RuleContext) (previous : Point2f)
    (track : Track) : (crossing config context (some previous) track).map VisionEvent.direction =
      reported config previous (footPoint track.box) := by
  unfold crossing reported
  simp only
  split <;> rfl

theorem reported_degenerate {config : LineConfig} (line : samePoint config.a config.b = true)
    (previous current : Point2f) : reported config previous current = [] := by
  simp [reported, classifyCrossing, lineSide, line]

theorem moves_cons (config : LineConfig) (point next : Point2f) (points : List Point2f) :
    moves config (point :: next :: points) =
      reported config point next :: moves config (next :: points) := rfl

/-- A track in every frame is reported at its moves, the first from the stored foot point. -/
theorem run_directions {config : LineConfig} {id : ℕ} {frames : List Frame}
    {followed : List Track} (follows : List.Forall₂ (Follows config id) frames followed)
    {rule : LineCrossingRule} (same : rule.config = config) (previous : Point2f)
    (stored : samePoint config.a config.b = false → rule.lastFoot id = some previous) :
    rule.directions id frames = moves config (previous :: feet followed) := by
  induction follows generalizing rule previous with
  | nil => rfl
  | @cons frame track frames followed here _ ih =>
    subst same
    have step : rule.directions id (frame :: frames) =
        ((rule.evaluate frame.1 frame.2).1.filter (ofTrack id)).map VisionEvent.direction ::
          (rule.evaluate frame.1 frame.2).2.directions id frames := rfl
    rw [step, feet, List.map_cons, moves_cons]
    cases line : samePoint rule.config.a rule.config.b with
    | true =>
      have idle : rule.evaluate frame.1 frame.2 = ([], rule) := if_pos line
      rw [idle, reported_degenerate line]
      exact congrArg _ (ih rfl (footPoint track.box) (by simp [line]))
    | false =>
      obtain ⟨config, foot, events⟩ := evaluate_once frame.2 line here.1 here.2
      rw [events, stored line, crossing_directions]
      exact congrArg _ (ih config (footPoint track.box) (fun _ => foot))

theorem directions_eq {config : LineConfig} {id : ℕ} {frames : List Frame} {followed : List Track}
    (follows : List.Forall₂ (Follows config id) frames followed) :
    directions id { config := config } frames =
      (followed.head?.toList.map fun _ => []) ++ moves config (feet followed) := by
  cases follows with
  | nil => rfl
  | @cons frame track frames followed here rest =>
    have step : directions id { config := config } (frame :: frames) =
        ((evaluate { config := config } frame.1 frame.2).1.filter (ofTrack id)).map
            VisionEvent.direction ::
          directions id (evaluate { config := config } frame.1 frame.2).2 frames := rfl
    rw [step]
    cases line : samePoint config.a config.b with
    | true =>
      have idle : evaluate { config := config } frame.1 frame.2 = ([], { config := config }) :=
        if_pos line
      rw [idle]
      exact congrArg _ (run_directions rest rfl (footPoint track.box) (by simp [line]))
    | false =>
      obtain ⟨same, foot, events⟩ := @evaluate_once frame.2 id { config := config } frame.1 track
        line here.1 here.2
      rw [events]
      exact congrArg _ (run_directions rest same (footPoint track.box) (fun _ => foot))

def exchanged (config : LineConfig) : LineConfig := { config with a := config.b, b := config.a }

theorem reported_exchanged (config : LineConfig) (previous current : Point2f) :
    reported (exchanged config) previous current =
      (reported config previous current).map CrossingDirection.turn := by
  unfold reported exchanged
  simp only [classifyCrossing_swap_line previous current config.a config.b]
  cases classifyCrossing previous current config.a config.b <;> rfl

theorem reported_back (config : LineConfig) (previous current : Point2f) :
    reported config current previous =
      (reported config previous current).map CrossingDirection.turn := by
  unfold reported
  simp only [classifyCrossing_swap_move previous current config.a config.b]
  cases classifyCrossing previous current config.a config.b <;> rfl

theorem moves_exchanged (config : LineConfig) (points : List Point2f) :
    moves (exchanged config) points =
      (moves config points).map (List.map CrossingDirection.turn) := by
  unfold moves
  rw [List.map_zipWith]
  congr 1
  funext previous current
  exact reported_exchanged config previous current

theorem moves_reverse (config : LineConfig) (points : List Point2f) :
    moves config points.reverse =
      ((moves config points).map (List.map CrossingDirection.turn)).reverse := by
  unfold moves
  rw [List.dropLast_reverse, List.tail_reverse, List.map_zipWith, List.zipWith_comm,
    List.reverse_zipWith (by simp)]
  congr 1
  funext previous current
  exact reported_back config previous current

/-- Exchanging the points of the line turns every report, frame by frame; walking the path backwards
reports the same moves, in the mirrored order, each turned. -/
theorem directions_symmetric (config : LineConfig) (id : ℕ) (frames : List Frame)
    (followed : List Track) (follows : List.Forall₂ (Follows config id) frames followed) :
    directions id { config := exchanged config } frames =
        (directions id { config := config } frames).map (List.map CrossingDirection.turn) ∧
      ∀ (backward : List Frame) (returned : List Track),
        List.Forall₂ (Follows config id) backward returned →
        feet returned = (feet followed).reverse →
        (directions id { config := config } backward).head? =
            (directions id { config := config } frames).head? ∧
          (directions id { config := config } backward).tail =
            ((directions id { config := config } frames).tail.map
              (List.map CrossingDirection.turn)).reverse := by
  have turned : List.Forall₂ (Follows (exchanged config) id) frames followed :=
    follows.imp fun _ _ here => here
  constructor
  · rw [directions_eq turned, directions_eq follows, moves_exchanged]
    cases followed <;> simp
  · intro backward returned back mirrored
    rw [directions_eq back, directions_eq follows, mirrored, moves_reverse]
    cases followed with
    | nil =>
      have empty : returned = [] := by simpa [feet] using mirrored
      simp [empty, feet, moves]
    | cons track followed =>
      cases returned with
      | nil => simp [feet] at mirrored
      | cons first returned => simp

/- A foot that goes down across a line, and one that comes back up. -/

theorem walk_symmetric :
    directions 8 { config := exchanged level } [([standing 80], {}), ([standing 20], {})] =
        (directions 8 { config := level } [([standing 80], {}), ([standing 20], {})]).map
          (List.map CrossingDirection.turn) ∧
      (directions 8 { config := level } [([standing 20], {}), ([standing 80], {})]).tail =
        ((directions 8 { config := level } [([standing 80], {}), ([standing 20], {})]).tail.map
          (List.map CrossingDirection.turn)).reverse := by
  have both := directions_symmetric level 8 [([standing 80], {}), ([standing 20], {})]
    [standing 80, standing 20] (.cons ⟨rfl, rfl⟩ (.cons ⟨rfl, rfl⟩ .nil))
  exact ⟨both.1, (both.2 [([standing 20], {}), ([standing 80], {})] [standing 20, standing 80]
    (.cons ⟨rfl, rfl⟩ (.cons ⟨rfl, rfl⟩ .nil)) rfl).2⟩

end LineCrossingRule

end VisionLab
