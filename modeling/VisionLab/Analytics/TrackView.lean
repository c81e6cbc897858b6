import VisionLab.Analytics.RuleFactory
import VisionLab.Lib.Slots

/-! The four rules, seen from one track. Each rule keeps a value for every track, and a frame changes
the value of a track by the record of that track alone: what a rule does about a track is a machine
of its own, fed with the record of the track or with its absence. -/
namespace VisionLab

abbrev Frame := List Track × RuleContext

def Frame.of (id : ℕ) (frame : Frame) : Option Track × RuleContext :=
  (Slots.itemOf Track.trackId id frame.1, frame.2)

def Frame.Distinct (frame : Frame) : Prop := (frame.1.map Track.trackId).Nodup

instance (frame : Frame) : Decidable frame.Distinct := inferInstanceAs (Decidable (List.Nodup _))

def eventsOf (id : ℕ) (events : List VisionEvent) : List VisionEvent :=
  events.filter (fun event => decide (event.trackId = id))

theorem about_self (id : ℕ) (events : List VisionEvent) :
    Slots.about VisionEvent.trackId (fun event => event) id events = eventsOf id events :=
  List.map_id' _

namespace RoiIntrusionRule

variable [PointPolygonTest]

def covers (config : RoiConfig) (track : Track) : Bool :=
  classAllowed config.classIds track.classId && pointInPolygon (footPoint track.box) config.polygon

def own (config : RoiConfig) (context : RuleContext) (inside : Bool) (track : Track) :
    List VisionEvent × Bool :=
  (if covers config track && !inside then [makeIntrusionEvent track context config.ruleId] else [],
    covers config track)

/-- The rule for one track. A missed track is outside. -/
def single (config : RoiConfig) (inside : Bool) (seen : Option Track × RuleContext) :
    List VisionEvent × Bool :=
  if config.polygon.length < 3 then ([], inside)
  else Slots.watch (own config seen.2) (fun _ => false) inside seen.1

omit [PointPolygonTest] in
def slot (id : ℕ) (rule : RoiIntrusionRule) : Bool := decide (id ∈ rule.inside)

theorem observe_local (config : RoiConfig) (context : RuleContext) :
    Slots.Local (observe context) Track.trackId VisionEvent.trackId (fun event => event) slot
      (own config context) (fun rule => rule.config = config) where
  good rule track same := by
    unfold observe
    simp only
    split <;> exact same
  tagged rule track _ event emitted := by
    unfold observe at emitted
    simp only at emitted
    split at emitted
    · cases emitted
    · split at emitted
      · cases emitted
      · rw [List.mem_singleton.mp emitted]
        rfl
  other rule track id _ apart := by
    have away : id ≠ track.trackId := Ne.symm apart
    unfold observe slot
    simp only
    split <;> simp [away]
  here rule track same := by
    subst same
    unfold observe own covers slot
    cases classAllowed rule.config.classIds track.classId &&
      pointInPolygon (footPoint track.box) rule.config.polygon with
    | false => simp
    | true => by_cases already : track.trackId ∈ rule.inside <;> simp [already]

theorem evaluate_single (rule : RoiIntrusionRule) (id : ℕ) {frame : Frame}
    (distinct : frame.Distinct) :
    (eventsOf id (rule.evaluate frame.1 frame.2).1, slot id (rule.evaluate frame.1 frame.2).2) =
      single rule.config (slot id rule) (frame.of id) := by
  unfold evaluate single
  by_cases small : rule.config.polygon.length < 3
  · simp only [if_pos small, eventsOf, List.filter_nil]
  · simp only [if_neg small, ← about_self]
    refine Slots.pass_slot (observe_local rule.config frame.2)
      (fun after => { after with
        inside := after.inside.filter (fun id => id ∈ frame.1.map Track.trackId) })
      (fun _ => false) id rfl (Slots.once_of_distinct distinct id) ?_
    intro after
    by_cases present : id ∈ frame.1.map Track.trackId <;>
      simp only [slot, Finset.mem_filter, present, and_true, and_false, if_true, if_false,
        decide_false]

theorem run_single (rule : RoiIntrusionRule) (id : ℕ) {frames : List Frame}
    (distinct : ∀ frame ∈ frames, frame.Distinct) :
    (Mealy.run (fun rule (frame : Frame) => rule.evaluate frame.1 frame.2) rule frames).1.map
        (eventsOf id) =
      (Mealy.run (single rule.config) (slot id rule) (frames.map (Frame.of id))).1 := by
  apply Mealy.run_seen RoiIntrusionRule.config (slot id) (Frame.of id) _ _ _ rule distinct
  · exact fun before frame => before.evaluate_config frame.1 frame.2
  · exact fun before frame fine => evaluate_single before id fine

end RoiIntrusionRule

namespace LoiteringRule

variable [PointPolygonTest]

def covers (config : LoiterConfig) (track : Track) : Bool :=
  classAllowed config.classIds track.classId && pointInPolygon (footPoint track.box) config.polygon

omit [PointPolygonTest] in
/-- Long enough in the polygon, and not reported before. -/
def Stay.due (config : LoiterConfig) (now : TimePoint) (stay : Stay) : Bool :=
  !stay.emitted && decide (config.loiterSeconds ≤ secondsBetween stay.entered now)

def own (config : LoiterConfig) (context : RuleContext) (stay : Option Stay) (track : Track) :
    List VisionEvent × Option Stay :=
  if !covers config track then ([], none)
  else
    let stay := stay.getD { entered := context.timestamp }
    (if stay.due config context.timestamp then [makeLoiterEvent track context config.ruleId] else [],
      some { stay with emitted := stay.emitted || stay.due config context.timestamp })

/-- The rule for one track. A missed track ends its stay. -/
def single (config : LoiterConfig) (stay : Option Stay) (seen : Option Track × RuleContext) :
    List VisionEvent × Option Stay :=
  if config.polygon.length < 3 ∨ config.loiterSeconds ≤ 0 then ([], stay)
  else Slots.watch (own config seen.2) (fun _ => none) stay seen.1

omit [PointPolygonTest] in
def slot (id : ℕ) (rule : LoiteringRule) : Option Stay := rule.stays id

theorem observe_local (config : LoiterConfig) (context : RuleContext) :
    Slots.Local (observe context) Track.trackId VisionEvent.trackId (fun event => event) slot
      (own config context) (fun rule => rule.config = config) where
  good rule track same := by
    unfold observe
    simp only
    split <;> exact same
  tagged rule track _ event emitted := by
    unfold observe at emitted
    simp only at emitted
    split at emitted
    · cases emitted
    · split at emitted
      · rw [List.mem_singleton.mp emitted]
        rfl
      · cases emitted
  other rule track id _ apart := by
    have away : id ≠ track.trackId := Ne.symm apart
    unfold observe slot
    simp only
    split <;> exact Function.update_of_ne away _ _
  here rule track same := by
    subst same
    unfold observe own covers slot Stay.due
    cases classAllowed rule.config.classIds track.classId &&
      pointInPolygon (footPoint track.box) rule.config.polygon <;> simp

theorem evaluate_single (rule : LoiteringRule) (id : ℕ) {frame : Frame}
    (distinct : frame.Distinct) :
    (eventsOf id (rule.evaluate frame.1 frame.2).1, slot id (rule.evaluate frame.1 frame.2).2) =
      single rule.config (slot id rule) (frame.of id) := by
  unfold evaluate single
  by_cases idle : rule.config.polygon.length < 3 ∨ rule.config.loiterSeconds ≤ 0
  · simp only [if_pos idle, eventsOf, List.filter_nil]
  · simp only [if_neg idle, ← about_self]
    refine Slots.pass_slot (observe_local rule.config frame.2)
      (fun after => { after with
        stays := fun id => if id ∈ frame.1.map Track.trackId then after.stays id else none })
      (fun _ => none) id rfl (Slots.once_of_distinct distinct id) ?_
    intro after
    rfl

theorem run_single (rule : LoiteringRule) (id : ℕ) {frames : List Frame}
    (distinct : ∀ frame ∈ frames, frame.Distinct) :
    (Mealy.run (fun rule (frame : Frame) => rule.evaluate frame.1 frame.2) rule frames).1.map
        (eventsOf id) =
      (Mealy.run (single rule.config) (slot id rule) (frames.map (Frame.of id))).1 := by
  apply Mealy.run_seen LoiteringRule.config (slot id) (Frame.of id) _ _ _ rule distinct
  · exact fun before frame => before.evaluate_config frame.1 frame.2
  · exact fun before frame fine => evaluate_single before id fine

end LoiteringRule

namespace LineCrossingRule

def pass (config : LineConfig) (context : RuleContext) (foot : FootMap) (track : Track) :
    List VisionEvent × FootMap :=
  if !classAllowed config.classIds track.classId then
    ([], Function.update foot track.trackId none)
  else
    (crossing config context (foot track.trackId) track,
      Function.update foot track.trackId (some (footPoint track.box)))

def own (config : LineConfig) (context : RuleContext) (last : Option Point2f) (track : Track) :
    List VisionEvent × Option Point2f :=
  if !classAllowed config.classIds track.classId then ([], none)
  else (crossing config context last track, some (footPoint track.box))

/-- The rule for one track. A missed track has no last foot point. -/
def single (config : LineConfig) (last : Option Point2f) (seen : Option Track × RuleContext) :
    List VisionEvent × Option Point2f :=
  if samePoint config.a config.b then ([], last)
  else Slots.watch (own config seen.2) (fun _ => none) last seen.1

def slot (id : ℕ) (rule : LineCrossingRule) : Option Point2f := rule.lastFoot id

theorem observe_pass (config : LineConfig) (context : RuleContext) (foot : FootMap)
    (events : List VisionEvent) (track : Track) : observe config context (foot, events) track =
      ((pass config context foot track).2, events ++ (pass config context foot track).1) := by
  unfold observe pass
  split <;> simp

theorem foldl_observe (config : LineConfig) (context : RuleContext) (tracks : List Track)
    (foot : FootMap) (events : List VisionEvent) :
    tracks.foldl (observe config context) (foot, events) =
      ((Mealy.run (pass config context) foot tracks).2,
        events ++ (Mealy.run (pass config context) foot tracks).1.flatten) :=
  Mealy.foldl_run (observe_pass config context) foot events tracks

theorem crossing_trackId (config : LineConfig) (context : RuleContext) (previous : Option Point2f)
    (track : Track) :
    ∀ event ∈ crossing config context previous track, event.trackId = track.trackId := by
  intro event emitted
  unfold crossing at emitted
  split at emitted
  · cases emitted
  · dsimp only at emitted
    split at emitted
    · cases emitted
    · rw [List.mem_singleton.mp emitted]
      rfl

theorem pass_local (config : LineConfig) (context : RuleContext) :
    Slots.Local (pass config context) Track.trackId VisionEvent.trackId (fun event => event)
      (fun id foot => foot id) (own config context) (fun _ => True) where
  good _ _ _ := trivial
  tagged foot track _ event emitted := by
    unfold pass at emitted
    split at emitted
    · cases emitted
    · exact crossing_trackId config context _ track event emitted
  other foot track id _ apart := by
    have away : id ≠ track.trackId := Ne.symm apart
    unfold pass
    split <;> exact Function.update_of_ne away _ _
  here foot track _ := by
    unfold pass own
    split <;> simp

theorem evaluate_single (rule : LineCrossingRule) (id : ℕ) {frame : Frame}
    (once : (frame.1.filter (fun track => decide (track.trackId = id))).length ≤ 1) :
    (eventsOf id (rule.evaluate frame.1 frame.2).1, slot id (rule.evaluate frame.1 frame.2).2) =
      single rule.config (slot id rule) (frame.of id) := by
  unfold evaluate single
  by_cases idle : samePoint rule.config.a rule.config.b = true
  · simp only [if_pos idle, eventsOf, List.filter_nil]
  · simp only [if_neg idle, ← about_self, foldl_observe, List.nil_append]
    refine Slots.pass_slot (pass_local rule.config frame.2)
      (fun foot id => if id ∈ frame.1.map Track.trackId then foot id else none)
      (fun _ => none) id trivial once ?_
    intro foot
    rfl

theorem run_single (rule : LineCrossingRule) (id : ℕ) {frames : List Frame}
    (distinct : ∀ frame ∈ frames, frame.Distinct) :
    (Mealy.run (fun rule (frame : Frame) => rule.evaluate frame.1 frame.2) rule frames).1.map
        (eventsOf id) =
      (Mealy.run (single rule.config) (slot id rule) (frames.map (Frame.of id))).1 := by
  apply Mealy.run_seen LineCrossingRule.config (slot id) (Frame.of id) _ _ _ rule distinct
  · exact fun before frame => before.evaluate_config frame.1 frame.2
  · exact fun before frame fine => evaluate_single before id (Slots.once_of_distinct fine id)

end LineCrossingRule

namespace CountingRule

/-- An event without the three totals, which sum over all tracks. -/
def untotalled (event : VisionEvent) : VisionEvent :=
  { event with countIn := 0, countOut := 0, occupancy := 0 }

def crossed (config : CountConfig) (context : RuleContext) (track : Track)
    (direction : CrossingDirection) (message : String) : List VisionEvent :=
  [makeEvent { config := config } track context direction message]

def heading (config : CountConfig) (last : Option Point2f) (track : Track) : CrossingDirection :=
  match last with
  | none => .none
  | some previous => classifyCrossing previous (footPoint track.box) config.a config.b

/-- The last foot point of the track, and whether it is counted as inside. -/
def own (config : CountConfig) (context : RuleContext) (value : Option Point2f × Bool)
    (track : Track) : List VisionEvent × Option Point2f × Bool :=
  let direction := heading config value.1 track
  let foot := some (footPoint track.box)
  if !classAllowed config.classIds track.classId then ([], none, false)
  else if direction = .forward ∧ value.2 = false then
    (crossed config context track direction "IN", foot, true)
  else if direction = .reverse ∧ value.2 = true then
    (crossed config context track direction "OUT", foot, false)
  else ([], foot, value.2)

/-- A missed track loses its last foot point. Without one it is not in the loop that purges, and
stays inside. -/
def missed (value : Option Point2f × Bool) : Option Point2f × Bool :=
  (none, value.2 && value.1.isNone)

/-- The rule for one track, without the totals. -/
def single (config : CountConfig) (value : Option Point2f × Bool)
    (seen : Option Track × RuleContext) : List VisionEvent × Option Point2f × Bool :=
  if config.a = config.b then ([], value)
  else Slots.watch (own config seen.2) missed value seen.1

def slot (id : ℕ) (rule : CountingRule) : Option Point2f × Bool :=
  (rule.lastFoot id, decide (id ∈ rule.inside))

theorem count_cases (rule : CountingRule) (context : RuleContext) (track : Track) :
    (rule.direction track = .forward ∧ track.trackId ∉ rule.inside ∧
      rule.count context track =
        ([(rule.enter track.trackId).makeEvent track context .forward "IN"],
          rule.enter track.trackId)) ∨
    (rule.direction track = .reverse ∧ track.trackId ∈ rule.inside ∧
      rule.count context track =
        ([(rule.leave track.trackId).makeEvent track context .reverse "OUT"],
          rule.leave track.trackId)) ∨
    (¬(rule.direction track = .forward ∧ track.trackId ∉ rule.inside) ∧
      ¬(rule.direction track = .reverse ∧ track.trackId ∈ rule.inside) ∧
      rule.count context track = ([], rule)) := by
  unfold count
  by_cases enters : rule.direction track = .forward ∧ track.trackId ∉ rule.inside
  · refine .inl ⟨enters.1, enters.2, ?_⟩
    simp [enters]
  · by_cases leaves : rule.direction track = .reverse ∧ track.trackId ∈ rule.inside
    · refine .inr (.inl ⟨leaves.1, leaves.2, ?_⟩)
      simp [leaves]
    · exact .inr (.inr ⟨enters, leaves, by simp only [if_neg enters, if_neg leaves]⟩)

theorem observe_local (config : CountConfig) (context : RuleContext) :
    Slots.Local (observe context) Track.trackId VisionEvent.trackId untotalled slot
      (own config context) (fun rule => rule.config = config) where
  good rule track same := by
    unfold observe
    split
    · exact same
    · exact (count_config rule context track).trans same
  tagged rule track _ event emitted := by
    unfold observe at emitted
    split at emitted
    · cases emitted
    · rcases count_cases rule context track with ⟨_, _, step⟩ | ⟨_, _, step⟩ | ⟨_, _, step⟩ <;>
        simp only [step, List.mem_singleton, List.not_mem_nil] at emitted
      · rw [emitted]
        rfl
      · rw [emitted]
        rfl
  other rule track id _ apart := by
    have away : id ≠ track.trackId := Ne.symm apart
    unfold observe
    split
    · simp [slot, reject, away]
    · rcases count_cases rule context track with ⟨_, _, step⟩ | ⟨_, _, step⟩ | ⟨_, _, step⟩ <;>
        simp [slot, step, store, enter, leave, away]
  here rule track same := by
    subst same
    have moves : heading rule.config (rule.lastFoot track.trackId) track = rule.direction track :=
      rfl
    unfold observe own acceptsClass
    cases classAllowed rule.config.classIds track.classId with
    | false => simp [slot, reject]
    | true =>
      rcases count_cases rule context track with ⟨dir, out, step⟩ | ⟨dir, out, step⟩ |
        ⟨enters, leaves, step⟩
      · simp [slot, moves, step, store, dir, out, enter, crossed, makeEvent, untotalled]
      · simp [slot, moves, step, store, dir, out, leave, crossed, makeEvent, untotalled]
      · have stays_out : ¬(rule.direction track = .forward ∧
            decide (track.trackId ∈ rule.inside) = false) := by simpa using enters
        have stays_in : ¬(rule.direction track = .reverse ∧
            decide (track.trackId ∈ rule.inside) = true) := by simpa using leaves
        simp only [slot, moves, step, if_neg stays_out, if_neg stays_in]
        simp [store]

theorem evaluate_single (rule : CountingRule) (id : ℕ) {frame : Frame} (distinct : frame.Distinct) :
    ((eventsOf id (rule.evaluate frame.1 frame.2).1).map untotalled,
        slot id (rule.evaluate frame.1 frame.2).2) =
      single rule.config (slot id rule) (frame.of id) := by
  unfold evaluate single
  by_cases idle : rule.config.a = rule.config.b
  · simp only [if_pos idle, eventsOf, List.filter_nil, List.map_nil]
  · simp only [if_neg idle]
    refine Slots.pass_slot (observe_local rule.config frame.2) (purge (frame.1.map Track.trackId))
      missed id rfl (Slots.once_of_distinct distinct id) ?_
    intro after
    by_cases present : id ∈ frame.1.map Track.trackId
    · simp only [slot, purge, Finset.mem_filter, present, true_or, and_true, if_true]
    · simp only [slot, purge, Finset.mem_filter, present, false_or, if_false, missed,
        Bool.decide_and]
      cases after.lastFoot id <;> simp

theorem run_single (rule : CountingRule) (id : ℕ) {frames : List Frame}
    (distinct : ∀ frame ∈ frames, frame.Distinct) :
    (Mealy.run (fun rule (frame : Frame) => rule.evaluate frame.1 frame.2) rule frames).1.map
        (fun events => (eventsOf id events).map untotalled) =
      (Mealy.run (single rule.config) (slot id rule) (frames.map (Frame.of id))).1 := by
  apply Mealy.run_seen CountingRule.config (slot id) (Frame.of id) _ _ _ rule distinct
  · exact fun before frame => before.evaluate_config frame.1 frame.2
  · exact fun before frame fine => evaluate_single before id fine

end CountingRule

end VisionLab
