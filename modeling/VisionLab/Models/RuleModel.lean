import VisionLab.Analytics.RuleFactory
import VisionLab.Lib.Machine

/-! The list of rule specifications that the user edits. An empty id is replaced by one made from
the kind and the number of specifications of that kind; only a given id is checked for being
taken. -/
namespace VisionLab

structure RuleModel where
  specs : List RuleSpec := []
  deriving DecidableEq, Repr

namespace RuleModel

def idPrefix : RuleKind → String
  | .roiIntrusion => "roi-"
  | .lineCrossing => "line-"
  | .loitering => "loiter-"
  | .counting => "count-"

def hasId (m : RuleModel) (id : String) : Bool := m.specs.any (fun spec => spec.ruleId = id)

def allocateId (m : RuleModel) (kind : RuleKind) : String :=
  idPrefix kind ++ toString (m.specs.countP (fun spec => spec.kind = kind) + 1)

variable [PointPolygonTest]

/-- The end of `addSpec`, where the id is settled. -/
def append (m : RuleModel) (spec : RuleSpec) : Bool × RuleModel :=
  match (makeRule spec : Option Rule) with
  | none => (false, m)
  | some _ => (true, { specs := m.specs ++ [spec] })

def addSpec (m : RuleModel) (spec : RuleSpec) : Bool × RuleModel :=
  if spec.ruleId = "" then m.append { spec with ruleId := m.allocateId spec.kind }
  else if m.hasId spec.ruleId then (false, m)
  else m.append spec

omit [PointPolygonTest] in
def removeAt (m : RuleModel) (row : ℤ) : Bool × RuleModel :=
  if row < 0 ∨ m.specs.length ≤ row then (false, m)
  else (true, { specs := m.specs.eraseIdx row.toNat })

omit [PointPolygonTest] in
def setEnabled (m : RuleModel) (row : ℤ) (enabled : Bool) : Bool × RuleModel :=
  if row < 0 ∨ m.specs.length ≤ row then (false, m)
  else
    (true, { specs := m.specs.modify row.toNat (fun spec => { spec with enabled := enabled }) })

omit [PointPolygonTest] in
def setLoiterSeconds (m : RuleModel) (row : ℤ) (seconds : ℚ) : Bool × RuleModel :=
  if row < 0 ∨ m.specs.length ≤ row then (false, m)
  else if (m.specs.getD row.toNat {}).kind ≠ .loitering then (false, m)
  else if seconds ≤ 0 then (false, m)
  else
    (true,
      { specs := m.specs.modify row.toNat (fun spec => { spec with loiterSeconds := seconds }) })

inductive Edit where
  | addSpec (spec : RuleSpec)
  | removeAt (row : ℤ)
  | setEnabled (row : ℤ) (enabled : Bool)
  | setLoiterSeconds (row : ℤ) (seconds : ℚ)
  deriving DecidableEq, Repr

def step (m : RuleModel) : Edit → RuleModel
  | .addSpec spec => (m.addSpec spec).2
  | .removeAt row => (m.removeAt row).2
  | .setEnabled row enabled => (m.setEnabled row enabled).2
  | .setLoiterSeconds row seconds => (m.setLoiterSeconds row seconds).2

def run (m : RuleModel) (edits : List Edit) : RuleModel := Machine.run step m edits

structure WellFormed (m : RuleModel) : Prop where
  distinct : (m.specs.map RuleSpec.ruleId).Nodup
  accepted : ∀ spec ∈ m.specs, (makeRule spec : Option Rule).isSome

omit [PointPolygonTest] in
theorem hasId_iff (m : RuleModel) (id : String) :
    m.hasId id = true ↔ id ∈ m.specs.map RuleSpec.ruleId := by
  simp [hasId, List.mem_map]

/- Each edit. -/

theorem append_wellFormed {m : RuleModel} (h : m.WellFormed) {spec : RuleSpec}
    (fresh : m.hasId spec.ruleId = false) : (m.append spec).2.WellFormed := by
  unfold append
  cases built : (makeRule spec : Option Rule) with
  | none => exact h
  | some rule =>
    have absent : spec.ruleId ∉ m.specs.map RuleSpec.ruleId := by
      rw [← hasId_iff, fresh]
      exact Bool.false_ne_true
    constructor
    · simp only [List.map_append, List.map_cons, List.map_nil]
      exact List.nodup_append.mpr ⟨h.distinct, List.nodup_singleton _, by
        intro id member other same equal
        rw [List.mem_singleton] at same
        exact absent (same ▸ equal ▸ member)⟩
    · intro other member
      rcases List.mem_append.mp member with member | member
      · exact h.accepted other member
      · rw [List.mem_singleton.mp member, built]
        rfl

theorem append_taken {m : RuleModel} {spec : RuleSpec} (taken : m.hasId spec.ruleId = true)
    (built : (makeRule spec : Option Rule).isSome) : ¬ (m.append spec).2.WellFormed := by
  obtain ⟨rule, made⟩ := Option.isSome_iff_exists.mp built
  intro after
  have distinct := after.distinct
  simp only [append, made, List.map_append, List.map_cons, List.map_nil] at distinct
  obtain ⟨-, -, apart⟩ := List.nodup_append.mp distinct
  exact apart _ ((hasId_iff m _).mp taken) _ (List.mem_singleton_self _) rfl

theorem removeAt_wellFormed {m : RuleModel} (h : m.WellFormed) (row : ℤ) :
    (m.removeAt row).2.WellFormed := by
  unfold removeAt
  split
  · exact h
  · have shorter := List.eraseIdx_sublist m.specs row.toNat
    exact ⟨h.distinct.sublist (shorter.map _),
      fun spec member => h.accepted spec (shorter.subset member)⟩

theorem modify_wellFormed {m : RuleModel} (h : m.WellFormed) {f : RuleSpec → RuleSpec} {row : ℕ}
    (inside : row < m.specs.length) (id : ∀ spec, (f spec).ruleId = spec.ruleId)
    (builds : ∀ spec, m.specs[row]? = some spec → (makeRule spec : Option Rule).isSome →
      (makeRule (f spec) : Option Rule).isSome) :
    ({ specs := m.specs.modify row f } : RuleModel).WellFormed := by
  obtain ⟨before, spec, after, split, length, modified⟩ := List.exists_of_modify f inside
  have distinct := h.distinct
  have accepted := h.accepted
  have here : m.specs[row]? = some spec := by
    rw [split, ← length, List.getElem?_append_right (Nat.le_refl _), Nat.sub_self]
    rfl
  rw [split] at distinct accepted
  constructor
  · simp only [modified, List.map_append, List.map_cons, id]
    simpa using distinct
  · intro other member
    simp only [modified, List.mem_append, List.mem_cons] at member
    rcases member with member | rfl | member
    · exact accepted other (by simp [member])
    · exact builds spec here (accepted spec (by simp))
    · exact accepted other (by simp [member])

theorem setEnabled_wellFormed {m : RuleModel} (h : m.WellFormed) (row : ℤ) (enabled : Bool) :
    (m.setEnabled row enabled).2.WellFormed := by
  unfold setEnabled
  split
  · exact h
  · refine modify_wellFormed h (by omega) (fun _ => rfl) ?_
    intro spec _ built
    simpa only [makeRule_isSome, RuleSpec.buildable] using built

theorem setLoiterSeconds_wellFormed {m : RuleModel} (h : m.WellFormed) (row : ℤ) (seconds : ℚ) :
    (m.setLoiterSeconds row seconds).2.WellFormed := by
  unfold setLoiterSeconds
  split
  · exact h
  · split
    · exact h
    · split
      · exact h
      · rename_i inside loiters positive
        refine modify_wellFormed h (by omega) (fun _ => rfl) ?_
        intro spec here built
        have kind : spec.kind = .loitering := by
          simpa [List.getD_eq_getElem?_getD, here] using loiters
        have wait : 0 < seconds := not_le.mp positive
        rw [makeRule_isSome] at built ⊢
        simp only [RuleSpec.buildable, kind, Bool.and_eq_true, decide_eq_true_eq] at built ⊢
        exact ⟨built.1, built.2.1, wait⟩

/- The exact condition. -/

omit [PointPolygonTest] in
/-- The id made from the kind and the number after that of the specifications of the kind belongs
to one of them already. -/
def NumberTaken (m : RuleModel) (kind : RuleKind) : Prop :=
  ∃ stored ∈ m.specs, stored.ruleId =
    idPrefix kind ++ toString (m.specs.countP (fun spec => spec.kind = kind) + 1)

/-- A specification with an empty id comes only where the next number is free, if it can be built
under some id. -/
def AllocatesFree (m : RuleModel) : Edit → Prop
  | .addSpec spec => spec.ruleId = "" →
      (makeRule { spec with ruleId := idPrefix spec.kind } : Option Rule).isSome →
        ¬ m.NumberTaken spec.kind
  | .removeAt _ | .setEnabled _ _ | .setLoiterSeconds _ _ => True

omit [PointPolygonTest] in
theorem hasId_allocateId (m : RuleModel) (kind : RuleKind) :
    m.hasId (m.allocateId kind) = true ↔ m.NumberTaken kind := by
  simp [hasId, allocateId, NumberTaken]

omit [PointPolygonTest] in
theorem idPrefix_ne_empty (kind : RuleKind) : idPrefix kind ≠ "" := by
  cases kind <;> decide

omit [PointPolygonTest] in
theorem allocateId_ne_empty (m : RuleModel) (kind : RuleKind) : m.allocateId kind ≠ "" := by
  cases kind <;> simp [allocateId, idPrefix]

/-- Whether a rule can be built depends on no more of the id than that there is one. -/
theorem makeRule_renamed (spec : RuleSpec) {id other : String} (id_ne : id ≠ "")
    (other_ne : other ≠ "") : (makeRule { spec with ruleId := id } : Option Rule).isSome =
      (makeRule { spec with ruleId := other } : Option Rule).isSome := by
  simp [makeRule_isSome, RuleSpec.buildable, id_ne, other_ne]

theorem allocatesFree_iff (m : RuleModel) {spec : RuleSpec} (empty : spec.ruleId = "") :
    m.AllocatesFree (.addSpec spec) ↔
      ((makeRule { spec with ruleId := m.allocateId spec.kind } : Option Rule).isSome →
        m.hasId (m.allocateId spec.kind) = false) := by
  have renamed := makeRule_renamed spec (idPrefix_ne_empty spec.kind)
    (m.allocateId_ne_empty spec.kind)
  rw [AllocatesFree, renamed, ← hasId_allocateId, Bool.not_eq_true]
  exact ⟨fun free => free empty, fun free _ => free⟩

theorem append_refused {m : RuleModel} {spec : RuleSpec}
    (refused : ¬ (makeRule spec : Option Rule).isSome) : (m.append spec).2 = m := by
  rw [Option.not_isSome_iff_eq_none] at refused
  simp [append, refused]

theorem step_wellFormed (m : RuleModel) (edit : Edit) (h : m.WellFormed)
    (free : m.AllocatesFree edit) : (m.step edit).WellFormed := by
  cases edit with
  | addSpec spec =>
    simp only [step, addSpec]
    split
    · rename_i empty
      by_cases built : (makeRule { spec with ruleId := m.allocateId spec.kind } : Option Rule).isSome
      · exact append_wellFormed h ((allocatesFree_iff m empty).mp free built)
      · rw [append_refused built]
        exact h
    · split
      · exact h
      · rename_i unused
        exact append_wellFormed h (by simpa using unused)
  | removeAt row => exact removeAt_wellFormed h row
  | setEnabled row enabled => exact setEnabled_wellFormed h row enabled
  | setLoiterSeconds row seconds => exact setLoiterSeconds_wellFormed h row seconds

theorem step_breaks (m : RuleModel) (edit : Edit) (clash : ¬ m.AllocatesFree edit) :
    ¬ (m.step edit).WellFormed := by
  cases edit with
  | addSpec spec =>
    have empty : spec.ruleId = "" := by
      by_contra given
      exact clash (fun empty => absurd empty given)
    rw [allocatesFree_iff m empty, Classical.not_imp, Bool.not_eq_false] at clash
    obtain ⟨built, taken⟩ := clash
    simp only [step, addSpec, if_pos empty]
    exact append_taken taken built
  | removeAt row => exact absurd trivial clash
  | setEnabled row enabled => exact absurd trivial clash
  | setLoiterSeconds row seconds => exact absurd trivial clash

theorem empty_wellFormed : ({} : RuleModel).WellFormed :=
  ⟨List.nodup_nil, by intro _ member; cases member⟩

/-- The list is well formed after every edit of a run if and only if every allocated id is free. -/
theorem ids_unique_iff (edits : List Edit) :
    (∀ pre, pre <+: edits → (run {} pre).WellFormed) ↔
      Machine.EveryStep step AllocatesFree {} edits :=
  Machine.everyStep_iff (fun _ h => h) step_wellFormed (fun m edit _ => step_breaks m edit)
    empty_wellFormed edits

omit [PointPolygonTest] in
/-- Two lines take the numbers 1 and 2. With the first one gone, the next line takes 2 again. -/
theorem removed_number_clashes :
    ¬ (∀ edits, ((@run .parity {} edits).specs.map RuleSpec.ruleId).Nodup) := by
  intro unique
  have clash := unique
    [.addSpec { kind := .lineCrossing, b := ⟨1, 0⟩ },
      .addSpec { kind := .lineCrossing, b := ⟨1, 0⟩ }, .removeAt 0,
      .addSpec { kind := .lineCrossing, b := ⟨1, 0⟩ }]
  revert clash
  decide +kernel

end RuleModel

end VisionLab
