import VisionLab.Analytics.RuleSpec
import VisionLab.Lib.Keyed

/-! Filling an engine with the rules of a list of specifications. What an engine shows of its rules
is a list of flags under ids. A rule added under an id that is taken is turned away, but the flag
of the batch still reaches the rule that has the id. -/
namespace VisionLab

namespace RuleEngine

variable {ρ : Type} [IRule ρ]

def listing (e : RuleEngine ρ) : List (String × Bool) :=
  e.entries.map (fun entry => (IRule.id entry.rule, entry.enabled))

theorem listing_ids (e : RuleEngine ρ) : e.listing.map Prod.fst = e.ruleIds := by
  simp [listing, ruleIds]

theorem find_isSome (e : RuleEngine ρ) (ruleId : String) :
    (e.find ruleId).isSome ↔ ruleId ∈ e.listing.map Prod.fst := by
  simp [find, listing, List.find?_isSome]

theorem setEnabledFirst_rules (ruleId : String) (enabled : Bool) (entries : List (Entry ρ)) :
    (setEnabledFirst ruleId enabled entries).map Entry.rule = entries.map Entry.rule := by
  induction entries with
  | nil => rfl
  | cons entry rest ih =>
    unfold setEnabledFirst
    split
    · rfl
    · rw [List.map_cons, List.map_cons, ih]

theorem setEnabledFirst_listing (ruleId : String) (enabled : Bool) (entries : List (Entry ρ))
    (present : ruleId ∈ entries.map (fun entry => IRule.id entry.rule)) :
    (setEnabledFirst ruleId enabled entries).map
        (fun entry => (IRule.id entry.rule, entry.enabled)) =
      Keyed.put ruleId enabled (entries.map (fun entry => (IRule.id entry.rule, entry.enabled))) := by
  induction entries with
  | nil => simp at present
  | cons entry rest ih =>
    by_cases here : IRule.id entry.rule = ruleId
    · simp [setEnabledFirst, Keyed.put, here]
    · have later : ruleId ∈ rest.map (fun entry => IRule.id entry.rule) := by
        simpa [Ne.symm here] using present
      simp [setEnabledFirst, Keyed.put, here, ih later]

theorem setEnabled_listing (e : RuleEngine ρ) {ruleId : String} (enabled : Bool)
    (present : ruleId ∈ e.listing.map Prod.fst) :
    (e.setEnabled ruleId enabled).2.listing = Keyed.put ruleId enabled e.listing := by
  obtain ⟨entry, found⟩ := Option.isSome_iff_exists.mp ((e.find_isSome ruleId).mpr present)
  have ids : ruleId ∈ e.entries.map (fun entry => IRule.id entry.rule) := by
    simpa [listing] using present
  simp only [setEnabled, found]
  exact setEnabledFirst_listing ruleId enabled e.entries ids

theorem inject_listing (e : RuleEngine ρ) {rule : ρ} {spec : RuleSpec}
    (named : IRule.id rule = spec.ruleId) (nonempty : spec.ruleId ≠ "") :
    (e.inject rule spec).listing = Keyed.put spec.ruleId spec.enabled e.listing := by
  unfold inject
  by_cases present : spec.ruleId ∈ e.listing.map Prod.fst
  · have taken := (e.find_isSome spec.ruleId).mpr present
    have refused : (e.addRule rule).2 = e := by simp [addRule, named, nonempty, taken]
    rw [refused]
    exact setEnabled_listing e spec.enabled present
  · have free : (e.find spec.ruleId).isSome = false := by
      simpa [present] using (e.find_isSome spec.ruleId).not
    have added : (e.addRule rule).2.listing = Keyed.put spec.ruleId true e.listing := by
      rw [Keyed.put_absent _ present]
      simp [addRule, named, nonempty, free, listing]
    have here : spec.ruleId ∈ (e.addRule rule).2.listing.map Prod.fst := by
      simp [added, Keyed.put_keys, present]
    rw [setEnabled_listing _ spec.enabled here, added, Keyed.put_put]

theorem isEnabled_eq (e : RuleEngine ρ) (ruleId : String) : e.isEnabled ruleId =
    ((e.listing.find? (fun entry => entry.1 = ruleId)).map Prod.snd).getD false := by
  simp [isEnabled, find, listing, List.find?_map, Function.comp_def]

section Stable

variable [StableId ρ]

theorem reset_listing (e : RuleEngine ρ) : e.reset.listing = e.listing := by
  simp [listing, reset, StableId.reset]

theorem evaluateEntries_listing (tracks : List Track) (context : RuleContext)
    (entries : List (Entry ρ)) (next : ℕ) :
    (evaluateEntries tracks context entries next).1.map
        (fun entry => (IRule.id entry.rule, entry.enabled)) =
      entries.map (fun entry => (IRule.id entry.rule, entry.enabled)) := by
  induction entries generalizing next with
  | nil => rfl
  | cons entry rest ih =>
    have stable := StableId.evaluate entry.rule tracks context
    unfold evaluateEntries
    split
    · simp [ih]
    · split
      all_goals
        rename_i evaluated
        rw [evaluated] at stable
        simp [ih, stable]

theorem evaluate_listing (e : RuleEngine ρ) (tracks : List Track) (context : RuleContext) :
    (e.evaluate tracks context).1.listing = e.listing := by
  unfold evaluate
  split
  · rfl
  · exact evaluateEntries_listing tracks context e.entries e.nextEventId

end Stable

variable [RuleFactory ρ]

def injectSpec (e : RuleEngine ρ) (spec : RuleSpec) : RuleEngine ρ :=
  match makeRule spec with
  | none => e
  | some rule => e.inject rule spec

/-- An engine cleared and filled with the rules of the list. -/
def fill (specs : List RuleSpec) : RuleEngine ρ := specs.foldl injectSpec {}

theorem makeRule_eq_some {spec : RuleSpec} {rule : ρ} : makeRule spec = some rule ↔
    spec.buildable = true ∧ RuleFactory.build spec = rule := by
  simp [makeRule]

omit [RuleFactory ρ] in
theorem buildable_id {spec : RuleSpec} (buildable : spec.buildable = true) : spec.ruleId ≠ "" := by
  simp only [RuleSpec.buildable, Bool.and_eq_true, decide_eq_true_eq] at buildable
  exact buildable.1

theorem mapM_makeRule (specs : List RuleSpec) (built : List ρ) :
    specs.mapM makeRule = some built ↔
      (∀ spec ∈ specs, spec.buildable = true) ∧ built = specs.map RuleFactory.build := by
  induction specs generalizing built with
  | nil =>
    constructor
    · intro made
      exact ⟨by simp, (Option.some.inj made).symm⟩
    · rintro ⟨-, rfl⟩
      rfl
  | cons spec specs ih =>
    simp only [List.mapM_cons, Option.bind_eq_bind, Option.bind_eq_some_iff, makeRule_eq_some, ih,
      List.forall_mem_cons, List.map_cons]
    constructor
    · rintro ⟨rule, ⟨here, rfl⟩, rest, ⟨others, rfl⟩, made⟩
      exact ⟨⟨here, others⟩, (Option.some.inj made).symm⟩
    · rintro ⟨⟨here, others⟩, rfl⟩
      exact ⟨_, ⟨here, rfl⟩, _, ⟨others, rfl⟩, rfl⟩

theorem injectSpec_eq (e : RuleEngine ρ) {spec : RuleSpec} (buildable : spec.buildable = true) :
    e.injectSpec spec = e.inject (RuleFactory.build spec) spec := by
  simp [injectSpec, makeRule, buildable]

/-- The loop of `applyRuleSpecs` fills an engine as that of `injectRules` does. -/
theorem foldl_zip_inject {specs : List RuleSpec} {built : List ρ}
    (made : specs.mapM makeRule = some built) (e : RuleEngine ρ) :
    (built.zip specs).foldl (fun engine pair => engine.inject pair.1 pair.2) e =
      specs.foldl injectSpec e := by
  obtain ⟨buildable, rfl⟩ := (mapM_makeRule specs built).mp made
  clear made
  induction specs generalizing e with
  | nil => rfl
  | cons spec specs ih =>
    obtain ⟨here, others⟩ := List.forall_mem_cons.mp buildable
    simp [injectSpec_eq e here, ih _ others]

theorem foldl_injectSpec_listing {specs : List RuleSpec}
    (buildable : ∀ spec ∈ specs, spec.buildable = true) (e : RuleEngine ρ) :
    (specs.foldl injectSpec e).listing =
      Keyed.puts (specs.map (fun spec => (spec.ruleId, spec.enabled))) e.listing := by
  induction specs generalizing e with
  | nil => rfl
  | cons spec specs ih =>
    obtain ⟨here, others⟩ := List.forall_mem_cons.mp buildable
    have put := inject_listing e (RuleFactory.build_id (ρ := ρ) spec) (buildable_id here)
    simp [injectSpec_eq e here, ih others, put, Keyed.puts]

theorem fill_listing {specs : List RuleSpec} (buildable : ∀ spec ∈ specs, spec.buildable = true) :
    (fill specs : RuleEngine ρ).listing =
      Keyed.puts (specs.map (fun spec => (spec.ruleId, spec.enabled))) [] :=
  foldl_injectSpec_listing buildable {}

theorem fill_of_nodup {specs : List RuleSpec} (buildable : ∀ spec ∈ specs, spec.buildable = true)
    (distinct : (specs.map RuleSpec.ruleId).Nodup) : (fill specs : RuleEngine ρ).listing =
      specs.map (fun spec => (spec.ruleId, spec.enabled)) := by
  rw [fill_listing buildable, Keyed.puts_of_nodup]
  · rfl
  · simpa [Function.comp_def] using distinct

theorem fill_ids_nodup {specs : List RuleSpec}
    (buildable : ∀ spec ∈ specs, spec.buildable = true) :
    (fill specs : RuleEngine ρ).ruleIds.Nodup := by
  rw [← listing_ids, fill_listing buildable]
  exact Keyed.puts_nodup _ List.nodup_nil

omit [RuleFactory ρ] in
theorem isEnabled_of_mem {e : RuleEngine ρ} (distinct : e.ruleIds.Nodup) {ruleId : String}
    {enabled : Bool} (member : (ruleId, enabled) ∈ e.listing) : e.isEnabled ruleId = enabled := by
  rw [isEnabled_eq]
  rw [← listing_ids] at distinct
  cases found : e.listing.find? (fun entry => entry.1 = ruleId) with
  | none => simpa using List.find?_eq_none.mp found _ member
  | some entry =>
    have there := List.mem_of_find?_eq_some found
    have id : entry.1 = ruleId := by simpa using List.find?_some found
    have same := List.inj_on_of_nodup_map distinct there member id
    simp [same]

end RuleEngine

end VisionLab
