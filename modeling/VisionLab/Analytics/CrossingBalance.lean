import Mathlib.Data.List.Chain
import VisionLab.Analytics.TrackView

/-! Crossings of one track over a run. The events count the direct changes between opposite sides;
a change made by stopping on the line first is not an event. -/
namespace VisionLab.LineCrossingRule

/- One evaluation, seen from one track. -/

section Frame

variable (context : RuleContext) {id : ℕ}

def ofTrack (id : ℕ) (event : VisionEvent) : Bool := decide (event.trackId = id)

theorem evaluate_once {rule : LineCrossingRule} {tracks : List Track} {track : Track}
    (line : samePoint rule.config.a rule.config.b = false)
    (once : tracks.filter (fun other => decide (other.trackId = id)) = [track])
    (allowed : classAllowed rule.config.classIds track.classId = true) :
    (rule.evaluate tracks context).2.config = rule.config ∧
      (rule.evaluate tracks context).2.lastFoot id = some (footPoint track.box) ∧
      (rule.evaluate tracks context).1.filter (ofTrack id) =
        crossing rule.config context (rule.lastFoot id) track := by
  let frame : Frame := (tracks, context)
  have single_ : (frame.1.filter (fun other => decide (other.trackId = id))).length ≤ 1 := by
    rw [once, List.length_singleton]
  have here : frame.of id = (some track, context) := by
    simp only [Frame.of, Slots.itemOf, ← List.head?_filter, frame, once, List.head?_cons]
  have seen := evaluate_single rule id single_
  simp only [here, single, line, Bool.false_eq_true, if_false, Slots.watch, own, allowed,
    Bool.not_true, Prod.mk.injEq] at seen
  exact ⟨rule.evaluate_config tracks context, seen.2, seen.1⟩

end Frame

/- Counting. -/

def emitted (id : ℕ) (direction : CrossingDirection) (events : List VisionEvent) : ℕ :=
  events.countP (fun event => decide (event.trackId = id ∧ event.direction = direction))

/-- Forward events of a track less its reverse events. -/
def balance (id : ℕ) (events : List VisionEvent) : ℤ :=
  (emitted id .forward events : ℤ) - emitted id .reverse events

def weight : CrossingDirection → ℤ
  | .none => 0
  | .forward => 1
  | .reverse => -1

def change (u v : ℤ) : ℤ := weight (crossingBetween u v)

theorem emitted_ofTrack (id : ℕ) (direction : CrossingDirection) (events : List VisionEvent) :
    emitted id direction events = emitted id direction (events.filter (ofTrack id)) := by
  rw [emitted, emitted, List.countP_filter]
  apply List.countP_congr
  intro event _
  simp only [ofTrack, Bool.and_eq_true, decide_eq_true_eq]
  constructor
  · exact fun h => ⟨h, h.1⟩
  · exact fun h => h.1

theorem balance_append (id : ℕ) (events others : List VisionEvent) :
    balance id (events ++ others) = balance id events + balance id others := by
  simp only [balance, emitted, List.countP_append]
  push_cast
  omega

theorem balance_crossing (config : LineConfig) (context : RuleContext) (previous : Point2f)
    (track : Track) : balance track.trackId (crossing config context (some previous) track) =
      weight (classifyCrossing previous (footPoint track.box) config.a config.b) := by
  unfold crossing
  dsimp only
  generalize direction : classifyCrossing previous (footPoint track.box) config.a config.b = d
  cases d <;> simp [balance, emitted, weight, makeCrossingEvent]

def direct : List ℤ → ℤ
  | u :: v :: sides => change u v + direct (v :: sides)
  | _ => 0

/-- Changes made by stopping on the line: `last` is the last side off the line, and `onLine` says
whether the line has been touched since. -/
def through (last : ℤ) (onLine : Bool) : List ℤ → ℤ
  | [] => 0
  | side :: sides =>
    if side = 0 then through last true sides
    else (if onLine then change last side else 0) + through side false sides

/-- The first side off the line, 0 when there is none. -/
def firstOff (sides : List ℤ) : ℤ := (sides.find? (fun side => side ≠ 0)).getD 0

def lastOff (last : ℤ) (sides : List ℤ) : ℤ :=
  sides.foldl (fun last side => if side = 0 then last else side) last

/- The telescoping sum over the sides. -/

def IsSide (u : ℤ) : Prop := u = 0 ∨ u = 1 ∨ u = -1

theorem change_zero_left (v : ℤ) : change 0 v = 0 := by
  simp [change, crossingBetween, weight]

theorem change_zero_right (u : ℤ) : change u 0 = 0 := by
  simp [change, crossingBetween, weight]

theorem change_add {u v w : ℤ} (hu : u = 1 ∨ u = -1) (hv : v = 1 ∨ v = -1) (hw : w = 1 ∨ w = -1) :
    change u v + change v w = change u w := by
  rcases hu with rfl | rfl <;> rcases hv with rfl | rfl <;> rcases hw with rfl | rfl <;> decide

theorem lastOff_side {u : ℤ} (hu : u = 1 ∨ u = -1) (sides : List ℤ) (all : ∀ v ∈ sides, IsSide v) :
    lastOff u sides = 1 ∨ lastOff u sides = -1 := by
  induction sides generalizing u with
  | nil => exact hu
  | cons v sides ih =>
    have rest : ∀ w ∈ sides, IsSide w := fun w hw => all w (List.mem_cons_of_mem v hw)
    rw [lastOff, List.foldl_cons]
    rcases all v List.mem_cons_self with rfl | off
    · exact ih hu rest
    · have nonzero : v ≠ 0 := by omega
      rw [if_neg nonzero]
      exact ih off rest

/-- After a side off the line, direct and stopped changes add up to the change to the last side.
The two halves are for the track being off the line and on it. -/
theorem direct_add_through {u : ℤ} (hu : u = 1 ∨ u = -1) (sides : List ℤ)
    (all : ∀ v ∈ sides, IsSide v) :
    direct (u :: sides) + through u false sides = change u (lastOff u sides) ∧
      direct (0 :: sides) + through u true sides = change u (lastOff u sides) := by
  induction sides generalizing u with
  | nil => rcases hu with rfl | rfl <;> decide
  | cons v sides ih =>
    have rest : ∀ w ∈ sides, IsSide w := fun w hw => all w (List.mem_cons_of_mem v hw)
    rcases all v List.mem_cons_self with rfl | off
    · have here := (ih hu rest).2
      have last : lastOff u (0 :: sides) = lastOff u sides := rfl
      simp only [direct, through, if_true, change_zero_right, last, zero_add]
      exact ⟨here, here⟩
    · have nonzero : v ≠ 0 := by omega
      have here := (ih off rest).1
      have last : lastOff u (v :: sides) = lastOff v sides := by
        rw [lastOff, List.foldl_cons, if_neg nonzero]
        rfl
      have whole := change_add hu off (lastOff_side off sides rest)
      simp only [direct, through, if_neg nonzero, if_true, if_false, Bool.false_eq_true,
        change_zero_left, last]
      constructor <;> omega

theorem direct_zero_cons (sides : List ℤ) : direct (0 :: sides) = direct sides := by
  cases sides with
  | nil => rfl
  | cons v sides => rw [direct, change_zero_left, zero_add]

theorem direct_add_through_start (sides : List ℤ) (all : ∀ v ∈ sides, IsSide v) (onLine : Bool) :
    direct sides + through 0 onLine sides = change (firstOff sides) (lastOff 0 sides) := by
  induction sides generalizing onLine with
  | nil => rfl
  | cons v sides ih =>
    have rest : ∀ w ∈ sides, IsSide w := fun w hw => all w (List.mem_cons_of_mem v hw)
    rcases all v List.mem_cons_self with rfl | off
    · rw [direct_zero_cons]
      exact ih rest true
    · have nonzero : v ≠ 0 := by omega
      have first : firstOff (v :: sides) = v := by simp [firstOff, nonzero]
      have last : lastOff 0 (v :: sides) = lastOff v sides := by
        rw [lastOff, List.foldl_cons, if_neg nonzero]
        rfl
      have start : through 0 onLine (v :: sides) = through v false sides := by
        rw [through, if_neg nonzero, change_zero_left, ite_self, zero_add]
      rw [first, last, start]
      exact (direct_add_through off sides rest).1

/- The run. -/

/-- A frame with exactly one record of the track, whose class the rule accepts. -/
def Follows (config : LineConfig) (id : ℕ) (frame : List Track × RuleContext) (track : Track) :
    Prop :=
  frame.1.filter (fun other => decide (other.trackId = id)) = [track] ∧
    classAllowed config.classIds track.classId = true

def path (stored : Option Point2f) (followed : List Track) : List Point2f :=
  stored.toList ++ followed.map (fun track => footPoint track.box)

def sides (config : LineConfig) (points : List Point2f) : List ℤ :=
  points.map (fun point => lineSide point config.a config.b)

theorem balance_ofTrack (id : ℕ) (events : List VisionEvent) :
    balance id events = balance id (events.filter (ofTrack id)) := by
  rw [balance, balance, emitted_ofTrack, emitted_ofTrack id .reverse]

theorem trackId_of_follows {config : LineConfig} {id : ℕ} {frame : List Track × RuleContext}
    {track : Track} (follows : Follows config id frame track) : track.trackId = id := by
  have member : track ∈ frame.1.filter (fun other => decide (other.trackId = id)) := by
    rw [follows.1]
    exact List.mem_singleton_self track
  exact of_decide_eq_true (List.mem_filter.mp member).2

/-- The event of one frame counts the change from the stored foot point. -/
theorem balance_step {config : LineConfig} {context : RuleContext} {stored : Option Point2f}
    {track : Track} {points : List Point2f} (grid : ∀ point ∈ stored, HalfIntegral point)
    (moves : (stored.toList ++ footPoint track.box :: points).IsChain
      (MeetsInside config.a config.b)) :
    balance track.trackId (crossing config context stored track) +
        direct (sides config (footPoint track.box :: points)) =
      direct (sides config (stored.toList ++ footPoint track.box :: points)) := by
  cases stored with
  | none => exact zero_add _
  | some previous =>
    have inside := (List.isChain_cons_cons.mp moves).1
    have exact_ := HalfIntegral.eq_of_samePoint (grid previous rfl)
      (footPoint_halfIntegral track.box)
    rw [balance_crossing, classifyCrossing_eq inside exact_]
    rfl

theorem run_balance {config : LineConfig} {id : ℕ} (line : samePoint config.a config.b = false)
    {frames : List (List Track × RuleContext)} {followed : List Track}
    (follows : List.Forall₂ (Follows config id) frames followed) {rule : LineCrossingRule}
    (same : rule.config = config) (grid : ∀ point ∈ rule.lastFoot id, HalfIntegral point)
    (moves : (path (rule.lastFoot id) followed).IsChain (MeetsInside config.a config.b)) :
    balance id (rule.run frames).1 = direct (sides config (path (rule.lastFoot id) followed)) := by
  induction follows generalizing rule with
  | nil =>
    rw [path, List.map_nil, List.append_nil]
    cases rule.lastFoot id <;> rfl
  | @cons frame track frames followed here rest ih =>
    subst same
    have own := trackId_of_follows here
    obtain ⟨config, foot, events⟩ := evaluate_once frame.2 line here.1 here.2
    generalize after : (rule.evaluate frame.1 frame.2).2 = next at config foot
    have footHere : ∀ point ∈ next.lastFoot id, HalfIntegral point := by
      intro point hp
      rw [foot] at hp
      cases hp
      exact footPoint_halfIntegral track.box
    have later : path (next.lastFoot id) followed =
        footPoint track.box :: followed.map (fun track => footPoint track.box) := by
      rw [path, foot]
      rfl
    have step := ih config footHere (by rw [later]; exact moves.right_of_append)
    rw [run, after]
    dsimp only
    rw [balance_append, step, balance_ofTrack, events, later]
    subst own
    exact balance_step grid moves

/- Every stored foot point is the foot point of a box. -/

def Grid (foot : FootMap) : Prop := ∀ id, ∀ point ∈ foot id, HalfIntegral point

theorem Grid.update {foot : FootMap} (grid : Grid foot) (id : ℕ) {value : Option Point2f}
    (ours : ∀ point ∈ value, HalfIntegral point) : Grid (Function.update foot id value) := by
  intro other point hp
  by_cases own : other = id
  · subst own
    rw [Function.update_self] at hp
    exact ours point hp
  · rw [Function.update_of_ne own] at hp
    exact grid other point hp

theorem observe_grid {config : LineConfig} {context : RuleContext} (tracks : List Track)
    (state : FootMap × List VisionEvent) (grid : Grid state.1) :
    Grid (tracks.foldl (observe config context) state).1 := by
  induction tracks generalizing state with
  | nil => exact grid
  | cons track tracks ih =>
    apply ih
    unfold observe
    split
    · exact grid.update track.trackId (fun _ h => (Option.not_mem_none _ h).elim)
    · apply grid.update track.trackId
      intro point hp
      cases hp
      exact footPoint_halfIntegral track.box

theorem evaluate_grid {rule : LineCrossingRule} (tracks : List Track) (context : RuleContext)
    (grid : Grid rule.lastFoot) : Grid (rule.evaluate tracks context).2.lastFoot ∧
      (rule.evaluate tracks context).2.config = rule.config := by
  unfold evaluate
  split
  · exact ⟨grid, rfl⟩
  · refine ⟨?_, rfl⟩
    intro id point hp
    dsimp only at hp
    split at hp
    · exact observe_grid tracks _ grid id point hp
    · cases hp

theorem run_grid {rule : LineCrossingRule} (frames : List (List Track × RuleContext))
    (grid : Grid rule.lastFoot) : Grid (rule.run frames).2.lastFoot ∧
      (rule.run frames).2.config = rule.config := by
  induction frames generalizing rule with
  | nil => exact ⟨grid, rfl⟩
  | cons frame frames ih =>
    have here := evaluate_grid frame.1 frame.2 grid
    have rest := ih here.1
    exact ⟨rest.1, rest.2.trans here.2⟩

/- A rule whose two points coincide does nothing. -/

theorem run_degenerate {rule : LineCrossingRule} (frames : List (List Track × RuleContext))
    (line : samePoint rule.config.a rule.config.b = true) : (rule.run frames).1 = [] := by
  induction frames with
  | nil => rfl
  | cons frame frames ih =>
    have here : rule.evaluate frame.1 frame.2 = ([], rule) := if_pos line
    rw [run, here]
    exact ih

theorem sides_side (config : LineConfig) (points : List Point2f) :
    ∀ u ∈ sides config points, IsSide u := by
  intro u hu
  obtain ⟨point, _, rfl⟩ := List.mem_map.mp hu
  exact lineSide_cases point config.a config.b

theorem direct_degenerate {config : LineConfig} (line : samePoint config.a config.b = true)
    (points : List Point2f) : direct (sides config points) = 0 := by
  induction points with
  | nil => rfl
  | cons point points ih =>
    have zero : lineSide point config.a config.b = 0 := if_pos line
    rw [sides, List.map_cons, zero, direct_zero_cons]
    exact ih

/-- Over any run in which a track is in every frame, its forward events less its reverse events,
together with the changes made by stopping on the line, are the change from its first side to its
last side. -/
theorem crossing_balance (config : LineConfig) (id : ℕ) (earlier : List (List Track × RuleContext))
    (frames : List (List Track × RuleContext)) (followed : List Track)
    (follows : List.Forall₂ (Follows config id) frames followed)
    (moves : (path ((run { config := config } earlier).2.lastFoot id) followed).IsChain
      (MeetsInside config.a config.b)) :
    let rule := (run { config := config } earlier).2
    let visited := sides config (path (rule.lastFoot id) followed)
    balance id (rule.run frames).1 + through 0 false visited =
      change (firstOff visited) (lastOff 0 visited) := by
  have unseen : Grid (lastFoot { config := config }) := fun _ _ h => (Option.not_mem_none _ h).elim
  have before := run_grid earlier unseen
  dsimp only
  rw [← direct_add_through_start _ (sides_side config _) false]
  congr 1
  cases line : samePoint config.a config.b with
  | true =>
    rw [run_degenerate frames (by rw [before.2]; exact line), direct_degenerate line]
    rfl
  | false => exact run_balance line follows before.2 (before.1 id) moves

/- A foot that stops on the line on its way from one side to the other. -/

def level : LineConfig := { a := ⟨0, 50⟩, b := ⟨100, 50⟩ }

def standing (bottom : ℤ) : Track := { trackId := 8, box := ⟨45, bottom - 10, 10, 10⟩ }

def stopOver : List Track := [standing 80, standing 50, standing 20]

theorem level_meetsInside (k l : ℤ) :
    MeetsInside level.a level.b (footPoint (standing k).box) (footPoint (standing l).box) := by
  intro t _ _ meets
  refine ⟨1 / 2, by norm_num, by norm_num, ?_⟩
  have height : (between (footPoint (standing k).box) (footPoint (standing l).box) t).y = 50 := by
    simp only [cross2, Point2f.sub, level] at meets
    linarith
  have across : (between (footPoint (standing k).box) (footPoint (standing l).box) t).x = 50 := by
    simp only [between, footPoint, standing, Rect.empty]
    norm_num
  have middle : between level.a level.b (1 / 2) = ⟨50, 50⟩ := by
    simp only [between, level]
    norm_num
  rw [middle]
  calc between (footPoint (standing k).box) (footPoint (standing l).box) t
      = ⟨(between (footPoint (standing k).box) (footPoint (standing l).box) t).x,
          (between (footPoint (standing k).box) (footPoint (standing l).box) t).y⟩ := rfl
    _ = ⟨50, 50⟩ := by rw [across, height]

theorem stop_over_balance :
    let visited := sides level (path none stopOver)
    balance 8 (run { config := level } (stopOver.map (fun track => ([track], {})))).1 +
      through 0 false visited = change (firstOff visited) (lastOff 0 visited) :=
  crossing_balance level 8 [] (stopOver.map (fun track => ([track], {}))) stopOver
    (.cons ⟨rfl, rfl⟩ (.cons ⟨rfl, rfl⟩ (.cons ⟨rfl, rfl⟩ .nil)))
    (.cons_cons (level_meetsInside 80 50) (.cons_cons (level_meetsInside 50 20) (.singleton _)))

theorem stop_over_uncounted :
    ¬ ∀ (config : LineConfig) (id : ℕ) (frames : List (List Track × RuleContext))
      (followed : List Track), config.a ≠ config.b →
      List.Forall₂ (Follows config id) frames followed →
      (path none followed).IsChain (MeetsInside config.a config.b) →
      balance id (run { config := config } frames).1 =
        change (firstOff (sides config (path none followed)))
          (lastOff 0 (sides config (path none followed))) := by
  intro claim
  have counted := claim level 8 (stopOver.map (fun track => ([track], {}))) stopOver
    (by decide +kernel)
    (.cons ⟨rfl, rfl⟩ (.cons ⟨rfl, rfl⟩ (.cons ⟨rfl, rfl⟩ .nil)))
    (.cons_cons (level_meetsInside 80 50) (.cons_cons (level_meetsInside 50 20) (.singleton _)))
  revert counted
  decide +kernel

end VisionLab.LineCrossingRule
