import VisionLab.Analytics.CountBalance

/-! The counting rule against the line-crossing rule. Hysteresis lets a crossing pass if it changes
the IN flag of its track; the counting rule reports the crossings that pass. -/
namespace VisionLab

namespace LineCrossingRule

def observeOne (config : LineConfig) (context : RuleContext) (foot : FootMap) (track : Track) :
    List VisionEvent × FootMap :=
  let after := observe config context (foot, []) track
  (after.2, after.1)

/-- `evaluate`, with each event beside the track record it was emitted for. -/
def evaluateTracks (rule : LineCrossingRule) (frame : List Track × RuleContext) :
    List (Track × List VisionEvent) × LineCrossingRule :=
  if samePoint rule.config.a rule.config.b then (frame.1.map (fun track => (track, [])), rule)
  else
    let after := Mealy.run (observeOne rule.config frame.2) rule.lastFoot frame.1
    (frame.1.zip after.1, (rule.evaluate frame.1 frame.2).2)

theorem observe_eq (config : LineConfig) (context : RuleContext) (foot : FootMap)
    (events : List VisionEvent) (track : Track) : observe config context (foot, events) track =
      ((observeOne config context foot track).2,
        events ++ (observeOne config context foot track).1) := by
  unfold observeOne observe
  split <;> simp

theorem loop_eq (config : LineConfig) (context : RuleContext) (foot : FootMap)
    (events : List VisionEvent) (tracks : List Track) :
    tracks.foldl (observe config context) (foot, events) =
      ((Mealy.run (observeOne config context) foot tracks).2,
        events ++ (Mealy.run (observeOne config context) foot tracks).1.flatten) :=
  Mealy.foldl_run (observe_eq config context) foot events tracks

theorem evaluate_eq {rule : LineCrossingRule} (line : samePoint rule.config.a rule.config.b = false)
    (tracks : List Track) (context : RuleContext) : rule.evaluate tracks context =
      ((Mealy.run (observeOne rule.config context) rule.lastFoot tracks).1.flatten,
        { rule with
          lastFoot := fun id =>
            if id ∈ tracks.map Track.trackId then
              (Mealy.run (observeOne rule.config context) rule.lastFoot tracks).2 id
            else none }) := by
  simp [evaluate, line, loop_eq]

theorem evaluateTracks_spec (rule : LineCrossingRule) (frame : List Track × RuleContext) :
    (rule.evaluateTracks frame).1.map Prod.fst = frame.1 ∧
    (rule.evaluateTracks frame).1.flatMap Prod.snd = (rule.evaluate frame.1 frame.2).1 ∧
    (rule.evaluateTracks frame).2 = (rule.evaluate frame.1 frame.2).2 := by
  cases line : samePoint rule.config.a rule.config.b with
  | true => simp [evaluateTracks, evaluate, line, List.flatMap_map, Function.comp_def]
  | false =>
    have length : frame.1.length =
        (Mealy.run (observeOne rule.config frame.2) rule.lastFoot frame.1).1.length := by simp
    simp only [evaluateTracks, line, Bool.false_eq_true, if_false, and_true]
    refine ⟨List.map_fst_zip (Nat.le_of_eq length), ?_⟩
    rw [evaluate_eq line, List.flatMap_def, List.map_snd_zip (Nat.le_of_eq length.symm)]

def evaluateFrame (rule : LineCrossingRule) (frame : List Track × RuleContext) :
    List VisionEvent × LineCrossingRule :=
  rule.evaluate frame.1 frame.2

theorem runTracks_spec (rule : LineCrossingRule) (frames : List (List Track × RuleContext)) :
    (Mealy.run evaluateTracks rule frames).1.map (List.map Prod.fst) = frames.map Prod.fst ∧
    (Mealy.run evaluateTracks rule frames).1.map (List.flatMap Prod.snd) =
      (Mealy.run evaluateFrame rule frames).1 := by
  induction frames generalizing rule with
  | nil => exact ⟨rfl, rfl⟩
  | cons frame frames ih =>
    obtain ⟨tracks, events, state⟩ := rule.evaluateTracks_spec frame
    obtain ⟨later, more⟩ := ih (rule.evaluateTracks frame).2
    rw [state] at later more
    simp only [Mealy.run_cons, List.map_cons, evaluateFrame, state, tracks, events, later, more,
      true_and]

end LineCrossingRule

/- The specification. -/

namespace Hysteresis

/-- A forward crossing passes a clear flag and sets it, a reverse crossing passes a set flag and
clears it. -/
def pass (flags : Finset ℕ) (event : VisionEvent) : List VisionEvent × Finset ℕ :=
  match event.direction with
  | .forward =>
    if event.trackId ∈ flags then ([], flags) else ([event], insert event.trackId flags)
  | .reverse => if event.trackId ∈ flags then ([event], flags.erase event.trackId) else ([], flags)
  | .none => ([], flags)

def track (classIds : List ℤ) (flags : Finset ℕ) (record : Track × List VisionEvent) :
    List VisionEvent × Finset ℕ :=
  if !classAllowed classIds record.1.classId then ([], flags.erase record.1.trackId)
  else
    let after := Mealy.run pass flags record.2
    (after.1.flatten, after.2)

def frame (classIds : List ℤ) (flags : Finset ℕ) (records : List (Track × List VisionEvent)) :
    List VisionEvent × Finset ℕ :=
  let after := Mealy.run (track classIds) flags records
  (after.1.flatten, after.2.filter (fun id => id ∈ records.map (fun record => record.1.trackId)))

theorem pass_sublist (flags : Finset ℕ) (events : List VisionEvent) :
    (Mealy.run pass flags events).1.flatten.Sublist events := by
  induction events generalizing flags with
  | nil => exact .slnil
  | cons event events ih =>
    have one : (pass flags event).1.Sublist [event] := by
      unfold pass
      split
      · split <;> simp
      · split <;> simp
      · simp
    simpa using one.append (ih (pass flags event).2)

theorem frame_sublist (classIds : List ℤ) (flags : Finset ℕ)
    (records : List (Track × List VisionEvent)) :
    (frame classIds flags records).1.Sublist (records.flatMap Prod.snd) := by
  simp only [frame]
  induction records generalizing flags with
  | nil => exact .slnil
  | cons record records ih =>
    have one : (track classIds flags record).1.Sublist record.2 := by
      unfold track
      split
      · exact List.nil_sublist _
      · exact pass_sublist flags record.2
    simpa using one.append (ih (track classIds flags record).2)

theorem run_sublist (classIds : List ℤ) (flags : Finset ℕ)
    (frames : List (List (Track × List VisionEvent))) :
    List.Forall₂ List.Sublist (Mealy.run (frame classIds) flags frames).1
      (frames.map (List.flatMap Prod.snd)) := by
  induction frames generalizing flags with
  | nil => exact .nil
  | cons records frames ih =>
    exact .cons (frame_sublist classIds flags records) (ih (frame classIds flags records).2)

end Hysteresis

namespace CountingRule

/-- What the events of the two rules have in common: the type, the rule, the text and the counters
are left out. -/
def crossingOf (event : VisionEvent) : VisionEvent :=
  { event with
    type := .lineCrossing, ruleId := "", message := "", countIn := 0, countOut := 0, occupancy := 0 }

theorem crossing_eq {rule : CountingRule} {config : LineConfig} {foot : FootMap}
    (a : rule.config.a = config.a) (b : rule.config.b = config.b) (same : rule.lastFoot = foot)
    (context : RuleContext) (track : Track) :
    LineCrossingRule.crossing config context (foot track.trackId) track =
      if rule.direction track = .none then []
      else
        [LineCrossingRule.makeCrossingEvent track context config.ruleId (rule.direction track)] := by
  unfold LineCrossingRule.crossing direction
  rw [same]
  cases foot track.trackId with
  | none => simp
  | some previous => simp [a, b]

/-- The two counting branches are what passes of the crossing. -/
theorem count_passes (rule : CountingRule) (ruleId : String) (context : RuleContext)
    (track : Track) :
    let crossings := if rule.direction track = .none then []
      else [LineCrossingRule.makeCrossingEvent track context ruleId (rule.direction track)]
    (rule.count context track).1.map crossingOf =
        (Mealy.run Hysteresis.pass rule.inside crossings).1.flatten.map crossingOf ∧
      (rule.count context track).2.inside =
        (Mealy.run Hysteresis.pass rule.inside crossings).2 := by
  cases way : rule.direction track <;> by_cases member : track.trackId ∈ rule.inside <;>
    simp [count, way, member, Hysteresis.pass, LineCrossingRule.makeCrossingEvent, makeEvent,
      crossingOf, enter, leave]

/-- The two rules in the middle of a frame, where the line is long enough. -/
structure Level (config : LineConfig) (foot : FootMap) (flags : Finset ℕ) (rule : CountingRule) :
    Prop where
  a : rule.config.a = config.a
  b : rule.config.b = config.b
  classes : rule.config.classIds = config.classIds
  foot : rule.lastFoot = foot
  inside : rule.inside = flags

theorem observe_level {config : LineConfig} {foot : FootMap} {flags : Finset ℕ}
    {rule : CountingRule} (h : Level config foot flags rule) (context : RuleContext)
    (track : Track) :
    let line := LineCrossingRule.observeOne config context foot track
    let passed := Hysteresis.track config.classIds flags (track, line.1)
    (rule.observe context track).1.map crossingOf = passed.1.map crossingOf ∧
      Level config line.2 passed.2 (rule.observe context track).2 := by
  obtain ⟨a, b, classes, same, inside⟩ := h
  cases accepted : classAllowed config.classIds track.classId with
  | false =>
    have rejected : rule.acceptsClass track.classId = false := by
      rw [acceptsClass, classes, accepted]
    rw [observe_rejects rejected]
    simp only [LineCrossingRule.observeOne, LineCrossingRule.observe, Hysteresis.track, accepted,
      Bool.not_false, if_true, List.map_nil, true_and]
    exact ⟨a, b, classes, by rw [reject, same], by rw [reject, inside]⟩
  | true =>
    have accepts : rule.acceptsClass track.classId = true := by
      rw [acceptsClass, classes, accepted]
    have passes := count_passes rule config.ruleId context track
    have stays := (count_inside rule context track).1
    rw [observe_accepts accepts]
    simp only [LineCrossingRule.observeOne, LineCrossingRule.observe, Hysteresis.track, accepted,
      Bool.not_true, Bool.false_eq_true, if_false, List.nil_append,
      crossing_eq a b same context track]
    rw [← inside]
    refine ⟨passes.1, ?_, ?_, ?_, ?_, passes.2⟩
    · simpa only [store, count_config] using a
    · simpa only [store, count_config] using b
    · simpa only [store, count_config] using classes
    · rw [store, stays, same]

theorem loop_level {config : LineConfig} (context : RuleContext) (tracks : List Track)
    {foot : FootMap} {flags : Finset ℕ} {rule : CountingRule}
    (h : Level config foot flags rule) :
    let line := Mealy.run (LineCrossingRule.observeOne config context) foot tracks
    let passed := Mealy.run (Hysteresis.track config.classIds) flags (tracks.zip line.1)
    (Mealy.run (observe context) rule tracks).1.flatten.map crossingOf =
        passed.1.flatten.map crossingOf ∧
      Level config line.2 passed.2 (Mealy.run (observe context) rule tracks).2 := by
  induction tracks generalizing foot flags rule with
  | nil => exact ⟨rfl, h⟩
  | cons track tracks ih =>
    obtain ⟨here, next⟩ := observe_level h context track
    obtain ⟨later, last⟩ := ih next
    simp only [Mealy.run_cons, List.zip_cons_cons, List.flatten_cons, List.map_append]
    exact ⟨by rw [here, later], last⟩

/- Whole frames. -/

/-- The two rules between two frames, with the IN flags: on a line too short for the tolerance no
flag is ever set, and on any other the foot points agree. -/
structure Matches (line : LineCrossingRule) (flags : Finset ℕ) (rule : CountingRule) : Prop where
  a : rule.config.a = line.config.a
  b : rule.config.b = line.config.b
  classes : rule.config.classIds = line.config.classIds
  inside : rule.inside = flags
  stored : rule.Stored
  foot : samePoint line.config.a line.config.b = false → rule.lastFoot = line.lastFoot
  clear : samePoint line.config.a line.config.b = true → rule.inside = ∅

/-- Without a crossing the loop never touches an empty IN set. -/
theorem loop_silent {rule : CountingRule} (short : samePoint rule.config.a rule.config.b = true)
    (empty : rule.inside = ∅) (context : RuleContext) (tracks : List Track) :
    (Mealy.run (observe context) rule tracks).1.flatten = [] ∧
      (Mealy.run (observe context) rule tracks).2.inside = ∅ := by
  induction tracks generalizing rule with
  | nil => exact ⟨rfl, empty⟩
  | cons track tracks ih =>
    have still : rule.direction track = .none := by
      unfold direction
      split
      · rfl
      · simp [classifyCrossing, lineSide, short]
    have idle : rule.count context track = ([], rule) := by simp [count, still]
    cases accepted : rule.acceptsClass track.classId with
    | false =>
      have rest := @ih (rule.reject track.trackId) short (by simp [reject, empty])
      simpa [observe_rejects accepted] using rest
    | true =>
      have rest := @ih (rule.store track.trackId (footPoint track.box)) short empty
      simpa [observe_accepts accepted, idle] using rest

theorem samePoint_self (p : Point2f) : samePoint p p = true := by
  simp [samePoint, nearlyZero, kEps]

theorem track_silent (classIds : List ℤ) (tracks : List Track) :
    (Mealy.run (Hysteresis.track classIds) ∅ (tracks.map (fun track => (track, [])))).1.flatten =
        [] ∧
      (Mealy.run (Hysteresis.track classIds) ∅ (tracks.map (fun track => (track, [])))).2 = ∅ := by
  induction tracks with
  | nil => exact ⟨rfl, rfl⟩
  | cons track tracks ih =>
    have idle : Hysteresis.track classIds ∅ (track, []) = ([], ∅) := by
      unfold Hysteresis.track
      split <;> simp
    simpa [idle] using ih

theorem evaluate_short {line : LineCrossingRule} {flags : Finset ℕ} {rule : CountingRule}
    (h : Matches line flags rule) (short : samePoint line.config.a line.config.b = true)
    (tracks : List Track) (context : RuleContext) :
    (rule.evaluate tracks context).1 = [] ∧ (rule.evaluate tracks context).2.inside = ∅ := by
  have empty := h.clear short
  have near : samePoint rule.config.a rule.config.b = true := by rw [h.a, h.b, short]
  obtain ⟨silent, clear⟩ := loop_silent near empty context tracks
  unfold evaluate
  split
  · exact ⟨rfl, empty⟩
  · exact ⟨silent, by simp [purge, clear]⟩

theorem matches_short {line : LineCrossingRule} {flags : Finset ℕ} {rule : CountingRule}
    (h : Matches line flags rule) (short : samePoint line.config.a line.config.b = true)
    (frame : List Track × RuleContext) :
    let records := line.evaluateTracks frame
    let passed := Hysteresis.frame line.config.classIds flags records.1
    (rule.evaluate frame.1 frame.2).1.map crossingOf = passed.1.map crossingOf ∧
      Matches records.2 passed.2 (rule.evaluate frame.1 frame.2).2 := by
  obtain ⟨tracks, context⟩ := frame
  have stored := evaluate_stored h.stored tracks context
  have config := evaluate_config rule tracks context
  obtain ⟨none, empty⟩ := evaluate_short h short tracks context
  obtain ⟨quiet, unset⟩ := track_silent line.config.classIds tracks
  have start : flags = ∅ := h.inside.symm.trans (h.clear short)
  simp only [LineCrossingRule.evaluateTracks, short, if_true, Hysteresis.frame, start, quiet, unset,
    none, Finset.filter_empty, true_and]
  refine ⟨?_, ?_, ?_, empty, stored, ?_, fun _ => empty⟩
  · rw [config, h.a]
  · rw [config, h.b]
  · rw [config, h.classes]
  · rw [short]
    exact nofun

theorem trackIds_zip {tracks : List Track} {outputs : List (List VisionEvent)}
    (enough : tracks.length ≤ outputs.length) :
    (tracks.zip outputs).map (fun record => record.1.trackId) = tracks.map Track.trackId := by
  have first := congrArg (List.map Track.trackId) (List.map_fst_zip enough)
  rw [List.map_map] at first
  exact first

theorem matches_long {line : LineCrossingRule} {flags : Finset ℕ} {rule : CountingRule}
    (h : Matches line flags rule) (long : samePoint line.config.a line.config.b = false)
    (frame : List Track × RuleContext) :
    let records := line.evaluateTracks frame
    let passed := Hysteresis.frame line.config.classIds flags records.1
    (rule.evaluate frame.1 frame.2).1.map crossingOf = passed.1.map crossingOf ∧
      Matches records.2 passed.2 (rule.evaluate frame.1 frame.2).2 := by
  obtain ⟨tracks, context⟩ := frame
  have stored := evaluate_stored h.stored tracks context
  have config := evaluate_config rule tracks context
  have apart : rule.config.a ≠ rule.config.b := by
    intro same
    rw [← h.a, ← h.b, same, samePoint_self] at long
    contradiction
  obtain ⟨events, level⟩ := loop_level context tracks ⟨h.a, h.b, h.classes, h.foot long, h.inside⟩
  have members : (Mealy.run (observe context) rule tracks).2.Stored :=
    Mealy.run_invariant h.stored (fun rule track h => observe_stored h context track) tracks
  have evaluated : rule.evaluate tracks context =
      ((Mealy.run (observe context) rule tracks).1.flatten,
        (Mealy.run (observe context) rule tracks).2.purge (tracks.map Track.trackId)) :=
    if_neg apart
  simp only [LineCrossingRule.evaluateTracks, long, Bool.false_eq_true, if_false, Hysteresis.frame,
    LineCrossingRule.evaluate_eq long, trackIds_zip (Nat.le_of_eq (Mealy.run_length _ _).symm)]
  refine ⟨by rw [evaluated]; exact events, ?_, ?_, ?_, ?_, stored, ?_, ?_⟩
  · rw [config, h.a]
  · rw [config, h.b]
  · rw [config, h.classes]
  · rw [evaluated, purge, ← level.inside]
    apply Finset.filter_congr
    intro id member
    have foot := members id member
    rw [Option.isSome_iff_ne_none] at foot
    simp [foot]
  · intro _
    rw [evaluated, purge, level.foot]
  · intro short
    simp [long] at short

theorem evaluate_matches {line : LineCrossingRule} {flags : Finset ℕ} {rule : CountingRule}
    (h : Matches line flags rule) (frame : List Track × RuleContext) :
    let records := line.evaluateTracks frame
    let passed := Hysteresis.frame line.config.classIds flags records.1
    (rule.evaluate frame.1 frame.2).1.map crossingOf = passed.1.map crossingOf ∧
      Matches records.2 passed.2 (rule.evaluate frame.1 frame.2).2 := by
  cases short : samePoint line.config.a line.config.b with
  | true => exact matches_short h short frame
  | false => exact matches_long h short frame

def evaluateFrame (rule : CountingRule) (frame : List Track × RuleContext) :
    List VisionEvent × CountingRule :=
  rule.evaluate frame.1 frame.2

theorem run_matches {line : LineCrossingRule} {flags : Finset ℕ} {rule : CountingRule}
    (h : Matches line flags rule) (frames : List (List Track × RuleContext)) :
    (Mealy.run evaluateFrame rule frames).1.map (List.map crossingOf) =
      (Mealy.run (Hysteresis.frame line.config.classIds) flags
        (Mealy.run LineCrossingRule.evaluateTracks line frames).1).1.map (List.map crossingOf) := by
  induction frames generalizing line flags rule with
  | nil => rfl
  | cons frame frames ih =>
    obtain ⟨here, next⟩ := evaluate_matches h frame
    have same : (line.evaluateTracks frame).2.config = line.config := by
      rw [(line.evaluateTracks_spec frame).2.2]
      exact (line.evaluate_config frame.1 frame.2)
    have later := ih next
    rw [same] at later
    simp only [Mealy.run_cons, List.map_cons, evaluateFrame, here, later]

/-- The counting rule reports the crossings of the line-crossing rule that pass the hysteresis, over
every run of frames and for any two points. -/
theorem counting_is_hysteresis (lineId countId : String) (a b : Point2f) (classIds : List ℤ)
    (frames : List (List Track × RuleContext)) :
    let line : LineCrossingRule := { config := ⟨lineId, a, b, classIds⟩ }
    let crossings := (Mealy.run LineCrossingRule.evaluateTracks line frames).1
    let passed := (Mealy.run (Hysteresis.frame classIds) ∅ crossings).1
    let counted := (Mealy.run evaluateFrame { config := ⟨countId, a, b, classIds⟩ } frames).1
    counted.map (List.map crossingOf) = passed.map (List.map crossingOf) ∧
    List.Forall₂ List.Sublist passed (crossings.map (List.flatMap Prod.snd)) ∧
    crossings.map (List.map Prod.fst) = frames.map Prod.fst ∧
    crossings.map (List.flatMap Prod.snd) =
      (Mealy.run LineCrossingRule.evaluateFrame line frames).1 := by
  have start : Matches { config := ⟨lineId, a, b, classIds⟩ } ∅
      { config := ⟨countId, a, b, classIds⟩ } :=
    ⟨rfl, rfl, rfl, rfl, nofun, fun _ => rfl, fun _ => rfl⟩
  refine ⟨run_matches start frames, Hysteresis.run_sublist classIds ∅ _, ?_⟩
  exact LineCrossingRule.runTracks_spec _ frames

end CountingRule

end VisionLab
