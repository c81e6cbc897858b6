import VisionLab.Analytics.RuleFactory
import VisionLab.Analytics.RuleInjection
import VisionLab.Utilities.CameraManager

/-! The batch of rules that the user applies, and the engine that should carry it. A batch is turned
away as a whole if one of its specifications is; ids that occur twice are not looked at. -/
namespace VisionLab.CameraManager

variable {σ δ τ ρ : Type} [IRule ρ]

omit [IRule ρ] in
def engine (c : CameraManager σ δ τ ρ) : Option (RuleEngine ρ) :=
  c.pipeline.bind VisionPipeline.rules

def listing (c : CameraManager σ δ τ ρ) : Option (List (String × Bool)) :=
  c.engine.map RuleEngine.listing

variable [RuleFactory ρ]

theorem injectRules_eq (c : CameraManager σ δ τ ρ) : c.injectRules =
    { c with
      pipeline := c.pipeline.map (fun p =>
        { p with rules := p.rules.map (fun _ => RuleEngine.fill c.ruleSpecs) }) } := rfl

theorem applyRuleSpecs_refused {c : CameraManager σ δ τ ρ} {specs : List RuleSpec}
    (refused : (c.applyRuleSpecs specs).1 = false) : (c.applyRuleSpecs specs).2 = c := by
  unfold applyRuleSpecs at refused ⊢
  split
  · rfl
  · rename_i stopped
    rw [if_neg stopped] at refused
    split
    · rfl
    · rename_i built made
      simp [made] at refused

/-- A batch goes through if no session runs and every specification can be built; the engine is then
filled as `injectRules` fills it. -/
theorem applyRuleSpecs_applied {c : CameraManager σ δ τ ρ} {specs : List RuleSpec}
    (applied : (c.applyRuleSpecs specs).1 = true) :
    (∀ spec ∈ specs, spec.buildable = true) ∧
      (c.applyRuleSpecs specs).2 = injectRules { c with ruleSpecs := specs } := by
  unfold applyRuleSpecs at applied ⊢
  split
  · rename_i running
    simp [running] at applied
  · rename_i stopped
    rw [if_neg stopped] at applied
    split
    · rename_i refused
      simp [refused] at applied
    · rename_i built made
      refine ⟨((RuleEngine.mapM_makeRule specs built).mp made).1, ?_⟩
      simp [injectRules_eq, RuleEngine.foldl_zip_inject made, RuleEngine.fill, RuleEngine.clear]

theorem applyRuleSpecs_fst (c : CameraManager σ δ τ ρ) (specs : List RuleSpec)
    (stopped : c.isRunning = false) : (c.applyRuleSpecs specs).1 = true ↔
      ∀ spec ∈ specs, (makeRule spec : Option ρ).isSome := by
  simp only [makeRule_isSome]
  constructor
  · intro applied
    exact (applyRuleSpecs_applied applied).1
  · intro buildable
    have made := (RuleEngine.mapM_makeRule specs _).mpr
      ⟨buildable, (rfl : specs.map (RuleFactory.build (ρ := ρ)) = _)⟩
    simp [applyRuleSpecs, stopped, made]

/-- A batch that is refused changes nothing; one that goes through is what is stored and what the
engine shows. -/
structure AllOrNothing (specs : List RuleSpec) (c : CameraManager σ δ τ ρ) : Prop where
  refused : (c.applyRuleSpecs specs).1 = false →
    (c.applyRuleSpecs specs).2.ruleSpecs = c.ruleSpecs ∧
      (c.applyRuleSpecs specs).2.listing = c.listing
  applied : (c.applyRuleSpecs specs).1 = true →
    (c.applyRuleSpecs specs).2.ruleSpecs = specs ∧
      ∃ engine, (c.applyRuleSpecs specs).2.engine = some engine ∧
        engine.ruleIds = specs.map RuleSpec.ruleId ∧
        ∀ spec ∈ specs, engine.isEnabled spec.ruleId = spec.enabled

/-- The law holds of a batch unless all of it can be built and two of its ids agree. -/
theorem applyRuleSpecs_allOrNothing_iff {c : CameraManager σ δ τ ρ} {p : VisionPipeline σ δ τ ρ}
    {engine : RuleEngine ρ} (piped : c.pipeline = some p) (stopped : p.running = false)
    (carried : p.rules = some engine) (specs : List RuleSpec) :
    c.AllOrNothing specs ↔
      ((∀ spec ∈ specs, (makeRule spec : Option ρ).isSome) →
        (specs.map RuleSpec.ruleId).Nodup) := by
  have still : c.isRunning = false := by simp [isRunning, piped, stopped]
  have result := c.applyRuleSpecs_fst specs still
  have filled : ∀ applied : (c.applyRuleSpecs specs).1 = true,
      (c.applyRuleSpecs specs).2.engine = some (RuleEngine.fill specs) := by
    intro applied
    rw [(applyRuleSpecs_applied applied).2]
    simp [CameraManager.engine, injectRules_eq, piped, carried]
  constructor
  · intro law buildable
    have applied := result.mpr buildable
    obtain ⟨-, shown, there, ids, -⟩ := law.applied applied
    obtain rfl := Option.some.inj ((filled applied).symm.trans there)
    rw [← ids]
    exact RuleEngine.fill_ids_nodup (applyRuleSpecs_applied applied).1
  · intro distinct
    constructor
    · intro refused
      rw [applyRuleSpecs_refused refused]
      exact ⟨rfl, rfl⟩
    · intro applied
      obtain ⟨buildable, after⟩ := applyRuleSpecs_applied applied
      have listed := RuleEngine.fill_of_nodup (ρ := ρ) buildable (distinct (result.mp applied))
      refine ⟨by rw [after]; rfl, _, filled applied, ?_, ?_⟩
      · rw [← RuleEngine.listing_ids, listed]
        simp [Function.comp_def]
      · intro spec member
        apply RuleEngine.isEnabled_of_mem (RuleEngine.fill_ids_nodup buildable)
        rw [listed]
        exact List.mem_map.mpr ⟨spec, member, rfl⟩

section Lines

local instance : PointPolygonTest := .parity

def idle : CameraManager FakeVideoSource FakeDetector FakeTracker Rule where
  pipeline := some { source := some { frameCount := 8 }, rules := some {} }

def lineSpec (ruleId : String) (enabled : Bool) : RuleSpec where
  ruleId := ruleId
  kind := .lineCrossing
  enabled := enabled
  b := ⟨1, 0⟩

theorem two_lines_allOrNothing :
    idle.AllOrNothing [lineSpec "north" true, lineSpec "south" false] :=
  (applyRuleSpecs_allOrNothing_iff rfl rfl rfl _).mpr (fun _ => by decide)

/-- Of two lines under one id the engine takes the first, with the flag of the second. -/
theorem same_id_drops_rule :
    ¬ idle.AllOrNothing [lineSpec "north" true, lineSpec "north" false] := by
  intro law
  have applied : (idle.applyRuleSpecs [lineSpec "north" true, lineSpec "north" false]).1 = true := by
    decide +kernel
  obtain ⟨-, engine, there, ids, -⟩ := law.applied applied
  have shown : (idle.applyRuleSpecs [lineSpec "north" true, lineSpec "north" false]).2.engine.map
      RuleEngine.ruleIds = some ["north"] := by decide +kernel
  rw [there, Option.map_some, ids] at shown
  revert shown
  decide

end Lines

end VisionLab.CameraManager
