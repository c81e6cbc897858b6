import VisionLab.Analytics.TrackView
import VisionLab.Lib.Stretch

/-! The two rules that watch a polygon, against the whole history of the frames. Intrusion is an edge
between two frames, loitering a stretch of frames that has become long enough. -/
namespace VisionLab

def Occupied (covers : Track → Bool) (id : ℕ) (frames : List Frame) (k : ℕ) : Prop :=
  ∃ frame, frames[k]? = some frame ∧
    ∃ track ∈ frame.1, track.trackId = id ∧ covers track = true

instance (covers : Track → Bool) (id : ℕ) (frames : List Frame) :
    DecidablePred (Occupied covers id frames) := fun k =>
  match there : frames[k]? with
  | none => .isFalse (fun h => by simp [Occupied, there] at h)
  | some frame =>
    decidable_of_iff (∃ track ∈ frame.1, track.trackId = id ∧ covers track = true)
      (by simp [Occupied, there])

theorem occupied_iff (covers : Track → Bool) {id : ℕ} {frames : List Frame} {k : ℕ} {frame : Frame}
    (there : frames[k]? = some frame) (distinct : frame.Distinct) :
    Occupied covers id frames k ↔ (frame.of id).1.any covers = true := by
  constructor
  · rintro ⟨other, here, track, member, rfl, covered⟩
    obtain rfl := Option.some.inj (there.symm.trans here)
    have found := Slots.itemOf_eq_some distinct member
    simpa [Frame.of, found] using covered
  · intro covered
    cases found : Slots.itemOf Track.trackId id frame.1 with
    | none => simp [Frame.of, found] at covered
    | some track =>
      obtain ⟨member, own⟩ := Slots.itemOf_key found
      exact ⟨frame, there, track, member, own, by simpa [Frame.of, found] using covered⟩

theorem occupied_record (covers : Track → Bool) {frames : List Frame} {k : ℕ} {frame : Frame}
    (there : frames[k]? = some frame) (distinct : frame.Distinct) {track : Track}
    (member : track ∈ frame.1) :
    Occupied covers track.trackId frames k ↔ covers track = true := by
  rw [occupied_iff covers there distinct]
  simp [Frame.of, Slots.itemOf_eq_some distinct member]

namespace RoiIntrusionRule

variable [PointPolygonTest]

def after (rule : RoiIntrusionRule) (frames : List Frame) (k : ℕ) : RoiIntrusionRule :=
  (Mealy.run (fun rule (frame : Frame) => rule.evaluate frame.1 frame.2) rule (frames.take k)).2

def answers (rule : RoiIntrusionRule) (frames : List Frame) : List (List VisionEvent) :=
  (Mealy.run (fun rule (frame : Frame) => rule.evaluate frame.1 frame.2) rule frames).1

theorem after_config (rule : RoiIntrusionRule) (frames : List Frame) (k : ℕ) :
    (rule.after frames k).config = rule.config :=
  Mealy.run_invariant (R := fun after : RoiIntrusionRule => after.config = rule.config) rfl
    (fun before frame same => (before.evaluate_config frame.1 frame.2).trans same) _

theorem evaluate_inside {rule : RoiIntrusionRule} (polygon : 3 ≤ rule.config.polygon.length)
    (id : ℕ) {frame : Frame} (distinct : frame.Distinct) :
    id ∈ (rule.evaluate frame.1 frame.2).2.inside ↔
      (frame.of id).1.any (covers rule.config) = true := by
  have seen := congrArg Prod.snd (evaluate_single rule id distinct)
  have large : ¬rule.config.polygon.length < 3 := by omega
  simp only [single, if_neg large] at seen
  have same : slot id (rule.evaluate frame.1 frame.2).2 =
      (frame.of id).1.any (covers rule.config) := by
    rw [seen]
    cases (frame.of id).1 <;> rfl
  simpa [slot] using congrArg (fun inside => inside = true) same

theorem inside_iff {rule : RoiIntrusionRule} (fresh : rule.inside = ∅)
    (polygon : 3 ≤ rule.config.polygon.length) {frames : List Frame}
    (distinct : ∀ frame ∈ frames, frame.Distinct) {k : ℕ} (reached : k ≤ frames.length) (id : ℕ) :
    id ∈ (rule.after frames k).inside ↔
      ¬Stretch.Opens (Occupied (covers rule.config) id frames) k := by
  cases k with
  | zero => simp [after, fresh, Stretch.Opens]
  | succ k =>
    have there : frames[k]? = some frames[k] := List.getElem?_eq_getElem reached
    have fine := distinct _ (List.mem_of_getElem? there)
    have step : rule.after frames (k + 1) =
        ((rule.after frames k).evaluate frames[k].1 frames[k].2).2 := (Mealy.run_at rule there).2
    have same := after_config rule frames k
    rw [step, evaluate_inside (same ▸ polygon) id fine, same, ← occupied_iff _ there fine]
    simp [Stretch.Opens]

/-- The track enters in place `k`: it is covered there, and was not in the frame before. -/
def Enters (config : RoiConfig) (frames : List Frame) (k id : ℕ) : Prop :=
  Occupied (covers config) id frames k ∧ Stretch.Opens (Occupied (covers config) id frames) k

instance (config : RoiConfig) (frames : List Frame) (k : ℕ) :
    DecidablePred (Enters config frames k) := fun id =>
  inferInstanceAs (Decidable (Occupied _ id _ k ∧ Stretch.Opens _ k))

def intrusions (config : RoiConfig) (frames : List Frame) (k : ℕ) (frame : Frame) :
    List VisionEvent :=
  (frame.1.filter (fun track => decide (Enters config frames k track.trackId))).map
    (fun track => makeIntrusionEvent track frame.2 config.ruleId)

theorem answers_eq {rule : RoiIntrusionRule} (fresh : rule.inside = ∅)
    (polygon : 3 ≤ rule.config.polygon.length) {frames : List Frame}
    (distinct : ∀ frame ∈ frames, frame.Distinct) {k : ℕ} {frame : Frame}
    (there : frames[k]? = some frame) :
    (rule.answers frames)[k]? = some (intrusions rule.config frames k frame) := by
  have fine := distinct frame (List.mem_of_getElem? there)
  have reached : k ≤ frames.length := (List.getElem?_eq_some_iff.mp there).1.le
  have large : ¬(rule.after frames k).config.polygon.length < 3 := by
    rw [after_config]
    omega
  have step : (rule.answers frames)[k]? =
      some ((rule.after frames k).evaluate frame.1 frame.2).1 := (Mealy.run_at rule there).1
  have pass := Slots.run_answers (observe_local rule.config frame.2)
    (after_config rule frames k) fine
  have one : ∀ track ∈ frame.1,
      (own rule.config frame.2 (slot track.trackId (rule.after frames k)) track).1 =
        if decide (Enters rule.config frames k track.trackId) = true
          then [makeIntrusionEvent track frame.2 rule.config.ruleId] else [] := by
    intro track member
    have here := occupied_record (covers rule.config) there fine member
    have before := inside_iff fresh polygon distinct reached track.trackId
    by_cases covered : covers rule.config track = true <;>
      by_cases opens : Stretch.Opens (Occupied (covers rule.config) track.trackId frames) k <;>
      simp [own, slot, Enters, here, before, covered, opens]
  rw [step]
  unfold evaluate
  rw [if_neg large]
  simp only [List.map_id'] at pass
  simp only [pass, List.flatMap_congr one, intrusions, Slots.flatMap_once]

theorem enters_congr (config : RoiConfig) {frames others : List Frame} {k : ℕ}
    (here : others[k]? = frames[k]?) (before : k ≠ 0 → others[k - 1]? = frames[k - 1]?) (id : ℕ) :
    Enters config others k id ↔ Enters config frames k id := by
  by_cases first : k = 0
  · subst first
    simp [Enters, Occupied, Stretch.Opens, here]
  · simp [Enters, Occupied, Stretch.Opens, here, before first]

/-- A new rule, or one after `reset`, reports a track in a frame exactly when the track enters there;
the reports follow the order of the tracks, and depend on this frame and the one before alone. -/
theorem answers_rising_edges (rule : RoiIntrusionRule) (fresh : rule.inside = ∅)
    (polygon : 3 ≤ rule.config.polygon.length) (frames : List Frame)
    (distinct : ∀ frame ∈ frames, frame.Distinct) (k : ℕ) {frame : Frame}
    (there : frames[k]? = some frame) :
    ∃ events, (rule.answers frames)[k]? = some events ∧
      (∀ id, (∃ event ∈ events, event.trackId = id) ↔
        Occupied (covers rule.config) id frames k ∧
          (k = 0 ∨ ¬Occupied (covers rule.config) id frames (k - 1))) ∧
      events = intrusions rule.config frames k frame ∧
      ∀ others : List Frame, (∀ frame ∈ others, frame.Distinct) → others[k]? = some frame →
        (k ≠ 0 → others[k - 1]? = frames[k - 1]?) → (rule.answers others)[k]? = some events := by
  refine ⟨_, answers_eq fresh polygon distinct there, ?_, rfl, ?_⟩
  · intro id
    constructor
    · rintro ⟨event, reported, rfl⟩
      obtain ⟨track, kept, rfl⟩ := List.mem_map.mp reported
      exact of_decide_eq_true (List.mem_filter.mp kept).2
    · intro enters
      obtain ⟨other, here, track, member, rfl, _⟩ := enters.1
      obtain rfl := Option.some.inj (there.symm.trans here)
      exact ⟨_, List.mem_map_of_mem (List.mem_filter.mpr ⟨member, decide_eq_true enters⟩), rfl⟩
  · intro others fine here before
    have same := enters_congr rule.config (here.trans there.symm) before
    rw [answers_eq fresh polygon fine here]
    simp only [intrusions, same]

end RoiIntrusionRule

namespace LoiteringRule

variable [PointPolygonTest]

def after (rule : LoiteringRule) (frames : List Frame) (k : ℕ) : LoiteringRule :=
  (Mealy.run (fun rule (frame : Frame) => rule.evaluate frame.1 frame.2) rule (frames.take k)).2

def answers (rule : LoiteringRule) (frames : List Frame) : List (List VisionEvent) :=
  (Mealy.run (fun rule (frame : Frame) => rule.evaluate frame.1 frame.2) rule frames).1

theorem after_config (rule : LoiteringRule) (frames : List Frame) (k : ℕ) :
    (rule.after frames k).config = rule.config :=
  Mealy.run_invariant (R := fun after : LoiteringRule => after.config = rule.config) rfl
    (fun before frame same => (before.evaluate_config frame.1 frame.2).trans same) _

variable (config : LoiterConfig) (frames : List Frame) (id : ℕ)

omit [PointPolygonTest] in
def Long (j k : ℕ) : Prop :=
  ∃ first now, frames[j]? = some first ∧ frames[k]? = some now ∧
    config.loiterSeconds ≤ secondsBetween first.2.timestamp now.2.timestamp

/-- The stay of the track that frame `k` belongs to becomes long enough in frame `k`. -/
def Qualifies (k : ℕ) : Prop :=
  ∃ j, Stretch.From (Occupied (covers config) id frames) j k ∧ Long config frames j k ∧
    ∀ i, j ≤ i → i < k → ¬Long config frames j i

/-- The stay began in frame `j`, and is marked as reported if it was long enough before frame `k`. -/
structure Holds (stay : Stay) (j k : ℕ) : Prop where
  entered : ∃ first, frames[j]? = some first ∧ stay.entered = first.2.timestamp
  emitted : stay.emitted = true ↔ ∃ i, j ≤ i ∧ i < k ∧ Long config frames j i

/-- What the rule keeps for the track before frame `k`. -/
def Kept (k : ℕ) : Option Stay → Prop
  | none => Stretch.Opens (Occupied (covers config) id frames) k
  | some stay => ∃ j, 0 < k ∧ Stretch.From (Occupied (covers config) id frames) j (k - 1) ∧
      Holds config frames stay j k

variable {config frames id}

/-- A stay that goes on in frame `k` is due there exactly when it becomes long enough there. -/
theorem due_iff {stay : Stay} {j k : ℕ} {frame : Frame} (there : frames[k]? = some frame)
    (stretch : Stretch.From (Occupied (covers config) id frames) j k)
    (holds : Holds config frames stay j k) :
    (stay.due config frame.2.timestamp = true ↔ Qualifies config frames id k) ∧
      Holds config frames
        { stay with emitted := stay.emitted || stay.due config frame.2.timestamp } j (k + 1) := by
  obtain ⟨first, began, entered⟩ := holds.entered
  have long : Long config frames j k ↔
      config.loiterSeconds ≤ secondsBetween stay.entered frame.2.timestamp := by
    simp [Long, began, there, entered]
  have due : stay.due config frame.2.timestamp = true ↔
      (¬∃ i, j ≤ i ∧ i < k ∧ Long config frames j i) ∧ Long config frames j k := by
    rw [← holds.emitted, long]
    simp [Stay.due]
  refine ⟨?_, ⟨first, began, entered⟩, ?_⟩
  · rw [due]
    constructor
    · rintro ⟨never, now⟩
      exact ⟨j, stretch, now, fun i low high early => never ⟨i, low, high, early⟩⟩
    · rintro ⟨i, other, now, never⟩
      obtain rfl := stretch.unique other
      exact ⟨fun ⟨l, low, high, early⟩ => never l low high early, now⟩
  · simp only [Bool.or_eq_true, due, holds.emitted]
    constructor
    · rintro (⟨i, low, high, early⟩ | ⟨_, now⟩)
      · exact ⟨i, low, by omega, early⟩
      · exact ⟨k, stretch.le, by omega, now⟩
    · rintro ⟨i, low, high, early⟩
      by_cases before : ∃ i, j ≤ i ∧ i < k ∧ Long config frames j i
      · exact .inl before
      · have last : i = k := by
          by_contra other
          exact before ⟨i, low, by omega, early⟩
        exact .inr ⟨before, last ▸ early⟩

theorem kept_single (polygon : 3 ≤ config.polygon.length) (seconds : 0 < config.loiterSeconds)
    {value : Option Stay} {k : ℕ} {frame : Frame} (there : frames[k]? = some frame)
    (distinct : frame.Distinct) (kept : Kept config frames id k value) :
    ((single config value (frame.of id)).1 ≠ [] ↔ Qualifies config frames id k) ∧
      (single config value (frame.of id)).1.length ≤ 1 ∧
      Kept config frames id (k + 1) (single config value (frame.of id)).2 := by
  have active : ¬(config.polygon.length < 3 ∨ config.loiterSeconds ≤ 0) := by
    rintro (small | instant)
    · omega
    · exact absurd seconds (not_lt.mpr instant)
  have here : Occupied (covers config) id frames k ↔ _ := occupied_iff (covers config) there distinct
  -- a frame that does not cover the track ends the stay
  have leaves : ¬Occupied (covers config) id frames k →
      ¬Qualifies config frames id k ∧ Kept config frames id (k + 1) none := by
    intro outside
    refine ⟨?_, .inr outside⟩
    rintro ⟨j, stretch, _⟩
    exact outside (stretch.all k stretch.le (Nat.le_refl k))
  unfold single
  rw [if_neg active]
  simp only [Frame.of] at here ⊢
  cases found : Slots.itemOf Track.trackId id frame.1 with
  | none =>
    have outside := leaves (by simp [here, found])
    exact ⟨by simpa [Slots.watch] using outside.1, by simp [Slots.watch], outside.2⟩
  | some track =>
    cases covered : covers config track with
    | false =>
      have outside := leaves (by simp [here, found, covered])
      exact ⟨by simpa [Slots.watch, own, covered] using outside.1,
        by simp [Slots.watch, own, covered], by simpa [Slots.watch, own, covered] using outside.2⟩
    | true =>
      have inside : Occupied (covers config) id frames k := by simp [here, found, covered]
      -- the stay goes on, or begins in this frame
      obtain ⟨j, stretch, holds⟩ : ∃ j, Stretch.From (Occupied (covers config) id frames) j k ∧
          Holds config frames (value.getD { entered := frame.2.timestamp }) j k := by
        cases value with
        | none =>
          refine ⟨k, .start inside kept, ⟨frame, there, rfl⟩, ?_⟩
          simp only [Option.getD_none, Bool.false_eq_true, false_iff]
          rintro ⟨i, low, high, _⟩
          omega
        | some stay =>
          obtain ⟨j, positive, before, holds⟩ := kept
          obtain ⟨l, rfl⟩ : ∃ l, k = l + 1 := ⟨k - 1, by omega⟩
          exact ⟨j, before.extend inside, holds⟩
      obtain ⟨due, later⟩ := due_iff there stretch holds
      simp only [Slots.watch, own, covered, Bool.not_true, Bool.false_eq_true, if_false]
      refine ⟨?_, ?_, j, Nat.succ_pos k, stretch, later⟩
      · rw [← due]
        split <;> simp_all
      · split <;> simp

/-- What the rule keeps for a track says what its stay has been so far. -/
theorem after_kept {rule : LoiteringRule} (id : ℕ) (fresh : rule.stays = fun _ => none)
    (polygon : 3 ≤ rule.config.polygon.length) (seconds : 0 < rule.config.loiterSeconds)
    (distinct : ∀ frame ∈ frames, frame.Distinct) {k : ℕ} (reached : k ≤ frames.length) :
    Kept rule.config frames id k (slot id (rule.after frames k)) := by
  induction k with
  | zero =>
    simp only [after, List.take_zero, Mealy.run_nil, slot, fresh]
    exact .inl rfl
  | succ k ih =>
    have there : frames[k]? = some frames[k] := List.getElem?_eq_getElem reached
    have fine := distinct _ (List.mem_of_getElem? there)
    have step : rule.after frames (k + 1) =
        ((rule.after frames k).evaluate frames[k].1 frames[k].2).2 := (Mealy.run_at rule there).2
    have seen := congrArg Prod.snd (evaluate_single (rule.after frames k) id fine)
    simp only [after_config] at seen
    rw [step, seen]
    exact (kept_single polygon seconds there fine (ih (by omega))).2.2

/-- A new rule, or one after `reset`, reports a track in a frame exactly when the stay of the track
becomes long enough in that frame, and then once. -/
theorem answers_once (rule : LoiteringRule) (fresh : rule.stays = fun _ => none)
    (polygon : 3 ≤ rule.config.polygon.length) (seconds : 0 < rule.config.loiterSeconds)
    (frames : List Frame) (distinct : ∀ frame ∈ frames, frame.Distinct) (k : ℕ)
    (there : k < frames.length) :
    ∃ events, (rule.answers frames)[k]? = some events ∧ ∀ id,
      ((∃ event ∈ events, event.trackId = id) ↔ Qualifies rule.config frames id k) ∧
        (eventsOf id events).length ≤ 1 := by
  have here : frames[k]? = some frames[k] := List.getElem?_eq_getElem there
  have fine := distinct _ (List.mem_of_getElem? here)
  refine ⟨((rule.after frames k).evaluate frames[k].1 frames[k].2).1,
    (Mealy.run_at rule here).1, fun id => ?_⟩
  have seen := congrArg Prod.fst (evaluate_single (rule.after frames k) id fine)
  obtain ⟨due, once, _⟩ := kept_single polygon seconds here fine
    (after_kept id fresh polygon seconds distinct there.le)
  simp only [after_config] at seen
  rw [← seen] at due once
  refine ⟨?_, once⟩
  rw [← due]
  simp [eventsOf]

end LoiteringRule

/- A visitor of a square. -/

def square : List Point2f := [⟨0, 0⟩, ⟨100, 0⟩, ⟨100, 100⟩, ⟨0, 100⟩]

def visitor (left : ℤ) : Track := { trackId := 3, box := ⟨left, 40, 10, 10⟩ }

def visit : List Frame :=
  [([visitor 200], { timestamp := 0 }), ([visitor 50], { timestamp := 1000000000 }),
    ([visitor 60], { timestamp := 6000000000 })]

section

local instance squareTest : PointPolygonTest := .parity

theorem visit_intrudes : ∃ events,
    (RoiIntrusionRule.answers { config := { polygon := square } } visit)[1]? = some events ∧
      ∃ event ∈ events, event.trackId = 3 := by
  obtain ⟨events, answer, reports, _⟩ := RoiIntrusionRule.answers_rising_edges
    { config := { polygon := square } } rfl (by decide) visit (by decide +kernel) 1 rfl
  exact ⟨events, answer, (reports 3).mpr (by decide +kernel)⟩

theorem visit_loiters : ∃ events,
    (LoiteringRule.answers { config := { polygon := square } } visit)[2]? = some events ∧
      ∃ event ∈ events, event.trackId = 3 := by
  obtain ⟨events, answer, reports⟩ := LoiteringRule.answers_once
    { config := { polygon := square } } rfl (by decide) (by decide +kernel) visit
    (by decide +kernel) 2 (by decide)
  refine ⟨events, answer, (reports 3).1.mpr ⟨1, ⟨by decide, ?_, by decide +kernel⟩, ?_, ?_⟩⟩
  · intro i low high
    obtain rfl | rfl : i = 1 ∨ i = 2 := by omega
    · decide +kernel
    · decide +kernel
  · exact ⟨_, _, rfl, rfl, by decide +kernel⟩
  · intro i low high
    obtain rfl : i = 1 := by omega
    rintro ⟨first, now, began, here, long⟩
    obtain rfl := Option.some.inj began
    obtain rfl := Option.some.inj here
    revert long
    decide +kernel

end

end VisionLab
