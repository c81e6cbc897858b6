import VisionLab.Analytics.CountBalance
import VisionLab.Analytics.RuleFactory
import VisionLab.Analytics.RuleInjection

/-! What the rules remember. A rule forgets the tracks that it no longer sees, and says at most one
thing about each track that it does see. -/
namespace VisionLab

namespace LineCrossingRule

theorem observe_brief (config : LineConfig) (context : RuleContext)
    (state : FootMap × List VisionEvent) (track : Track) :
    (observe config context state track).2.length ≤ state.2.length + 1 := by
  unfold observe
  split
  · exact Nat.le_succ _
  · simp only [List.length_append, crossing]
    split
    · exact Nat.le_succ _
    · split <;> simp

theorem observed_brief (config : LineConfig) (context : RuleContext) (tracks : List Track)
    (state : FootMap × List VisionEvent) :
    (tracks.foldl (observe config context) state).2.length ≤ state.2.length + tracks.length := by
  induction tracks generalizing state with
  | nil => exact le_refl _
  | cons track tracks ih =>
    have here := observe_brief config context state track
    have rest := ih (observe config context state track)
    simp only [List.foldl_cons, List.length_cons]
    omega

theorem evaluate_brief (rule : LineCrossingRule) (tracks : List Track) (context : RuleContext) :
    (rule.evaluate tracks context).1.length ≤ tracks.length := by
  unfold evaluate
  split
  · exact Nat.zero_le _
  · simpa using observed_brief rule.config context tracks (rule.lastFoot, [])

end LineCrossingRule

namespace CountingRule

theorem evaluate_brief (rule : CountingRule) (tracks : List Track) (context : RuleContext) :
    (rule.evaluate tracks context).1.length ≤ tracks.length := by
  unfold evaluate
  split
  · exact Nat.zero_le _
  · refine Mealy.run_brief ?_ rule tracks
    intro rule track
    unfold observe
    split
    · exact Nat.zero_le _
    · unfold count
      split
      · exact le_refl _
      · split
        · exact le_refl _
        · exact Nat.zero_le _

end CountingRule

variable [PointPolygonTest]

namespace RoiIntrusionRule

theorem evaluate_brief (rule : RoiIntrusionRule) (tracks : List Track) (context : RuleContext) :
    (rule.evaluate tracks context).1.length ≤ tracks.length := by
  unfold evaluate
  split
  · exact Nat.zero_le _
  · refine Mealy.run_brief ?_ rule tracks
    intro rule track
    unfold observe
    simp only
    split
    · exact Nat.zero_le _
    · split <;> simp

end RoiIntrusionRule

namespace LoiteringRule

theorem evaluate_brief (rule : LoiteringRule) (tracks : List Track) (context : RuleContext) :
    (rule.evaluate tracks context).1.length ≤ tracks.length := by
  unfold evaluate
  split
  · exact Nat.zero_le _
  · refine Mealy.run_brief ?_ rule tracks
    intro rule track
    unfold observe
    simp only
    split
    · exact Nat.zero_le _
    · split <;> simp

end LoiteringRule

namespace Rule

def Remembers : Rule → ℕ → Prop
  | .roiIntrusion rule, id => id ∈ rule.inside
  | .lineCrossing rule, id => (rule.lastFoot id).isSome
  | .loitering rule, id => (rule.stays id).isSome
  | .counting rule, id => id ∈ rule.inside ∨ (rule.lastFoot id).isSome

/-- The rule keeps something for so many tracks at most. -/
structure Compact (tracks : ℕ) (rule : Rule) : Prop where
  few : ∃ ids : Finset ℕ, ids.card ≤ tracks ∧ ∀ id, rule.Remembers id → id ∈ ids
  stored : ∀ counting, rule = .counting counting → counting.Stored

theorem evaluate_brief (rule : Rule) (tracks : List Track) (context : RuleContext) :
    (rule.evaluate tracks context).1.length ≤ tracks.length := by
  cases rule with
  | roiIntrusion rule => exact rule.evaluate_brief tracks context
  | lineCrossing rule => exact rule.evaluate_brief tracks context
  | loitering rule => exact rule.evaluate_brief tracks context
  | counting rule => exact rule.evaluate_brief tracks context

/-- An evaluation changes nothing, or leaves nothing of a track that it has not seen. -/
theorem evaluate_forgets {rule : Rule}
    (stored : ∀ counting, rule = .counting counting → counting.Stored) (tracks : List Track)
    (context : RuleContext) :
    (rule.evaluate tracks context).2 = rule ∨
      ∀ id, (rule.evaluate tracks context).2.Remembers id → id ∈ tracks.map Track.trackId := by
  cases rule with
  | roiIntrusion rule =>
    simp only [evaluate, RoiIntrusionRule.evaluate]
    split
    · exact Or.inl rfl
    · exact Or.inr (fun id kept => (Finset.mem_filter.mp kept).2)
  | lineCrossing rule =>
    simp only [evaluate, LineCrossingRule.evaluate]
    split
    · exact Or.inl rfl
    · refine Or.inr (fun id kept => ?_)
      by_contra missed
      simp [Remembers, missed] at kept
  | loitering rule =>
    simp only [evaluate, LoiteringRule.evaluate]
    split
    · exact Or.inl rfl
    · refine Or.inr (fun id kept => ?_)
      by_contra missed
      simp [Remembers, missed] at kept
  | counting rule =>
    have after := CountingRule.evaluate_stored (stored rule rfl) tracks context
    simp only [evaluate]
    unfold CountingRule.evaluate at after ⊢
    split
    · exact Or.inl rfl
    · rename_i regular
      rw [if_neg regular] at after
      refine Or.inr (fun id kept => ?_)
      have foot : ((CountingRule.purge (tracks.map Track.trackId)
          (Mealy.run (CountingRule.observe context) rule tracks).2).lastFoot id).isSome := by
        rcases kept with inside | foot
        · exact after id inside
        · exact foot
      by_contra missed
      simp only [CountingRule.purge, if_neg missed] at foot
      cases foot

theorem Compact.evaluate {rule : Rule} {bound : ℕ} (h : rule.Compact bound) {tracks : List Track}
    (few : tracks.length ≤ bound) (context : RuleContext) :
    (rule.evaluate tracks context).2.Compact bound := by
  constructor
  · rcases evaluate_forgets h.stored tracks context with same | forgets
    · rw [same]
      exact h.few
    · refine ⟨(tracks.map Track.trackId).toFinset, ?_, ?_⟩
      · exact (List.toFinset_card_le _).trans (by simpa using few)
      · exact fun id kept => List.mem_toFinset.mpr (forgets id kept)
  · intro counting same
    cases rule with
    | counting rule =>
      cases same
      exact CountingRule.evaluate_stored (h.stored rule rfl) tracks context
    | _ => cases same

omit [PointPolygonTest] in
theorem compact_of_blank {rule : Rule} (blank : ∀ id, ¬rule.Remembers id) (bound : ℕ) :
    rule.Compact bound := by
  refine ⟨⟨∅, Nat.zero_le _, fun id kept => absurd kept (blank id)⟩, ?_⟩
  rintro counting rfl
  exact fun id inside => absurd (Or.inl inside) (blank id)

omit [PointPolygonTest] in
theorem reset_compact (rule : Rule) (bound : ℕ) : rule.reset.Compact bound := by
  refine compact_of_blank ?_ bound
  cases rule <;> simp [reset, Remembers, RoiIntrusionRule.reset, LineCrossingRule.reset,
    LoiteringRule.reset, CountingRule.reset]

omit [PointPolygonTest] in
theorem build_compact (spec : RuleSpec) (bound : ℕ) : (build spec).Compact bound := by
  refine compact_of_blank ?_ bound
  unfold build
  split <;> simp [Remembers]

end Rule

namespace RuleEngine

/-- Every rule of the engine keeps something for so many tracks at most. -/
def Compact (tracks : ℕ) (e : RuleEngine Rule) : Prop :=
  ∀ entry ∈ e.entries, entry.rule.Compact tracks

variable {bound : ℕ} {tracks : List Track}

theorem evaluateEntries_compact (few : tracks.length ≤ bound) (context : RuleContext)
    {entries : List (Entry Rule)} (each : ∀ entry ∈ entries, entry.rule.Compact bound) (next : ℕ) :
    (∀ entry ∈ (evaluateEntries tracks context entries next).1, entry.rule.Compact bound) ∧
      (evaluateEntries tracks context entries next).1.length = entries.length ∧
      (evaluateEntries tracks context entries next).2.length ≤ entries.length * tracks.length := by
  induction entries generalizing next with
  | nil => exact ⟨by simp [evaluateEntries], rfl, Nat.zero_le _⟩
  | cons entry rest ih =>
    obtain ⟨first, others⟩ := List.forall_mem_cons.mp each
    have brief := entry.rule.evaluate_brief tracks context
    unfold evaluateEntries
    split
    · obtain ⟨kept, length, said⟩ := ih others next
      refine ⟨List.forall_mem_cons.mpr ⟨first, kept⟩, by simp [length], ?_⟩
      rw [List.length_cons, Nat.succ_mul]
      exact said.trans (Nat.le_add_right _ _)
    · split
      · rename_i part rule evaluated
        obtain ⟨kept, length, said⟩ := ih others (next + part.length)
        cases evaluated
        refine ⟨List.forall_mem_cons.mpr ⟨first.evaluate few context, kept⟩,
          by simp [length], ?_⟩
        have own : (numbered next (entry.rule.evaluate tracks context).1).length =
            (entry.rule.evaluate tracks context).1.length := List.length_mapIdx
        rw [List.length_append, List.length_cons, Nat.succ_mul, own]
        omega
      · rename_i evaluated
        cases evaluated

theorem evaluate_compact {e : RuleEngine Rule} (h : e.Compact bound) (few : tracks.length ≤ bound)
    (context : RuleContext) : (e.evaluate tracks context).1.Compact bound ∧
      (e.evaluate tracks context).1.size = e.size ∧
      (e.evaluate tracks context).2.length ≤ e.size * tracks.length := by
  unfold evaluate
  split
  · exact ⟨h, rfl, Nat.zero_le _⟩
  · exact evaluateEntries_compact few context h e.nextEventId

theorem reset_compact (e : RuleEngine Rule) (bound : ℕ) :
    e.reset.Compact bound ∧ e.reset.size = e.size := by
  refine ⟨?_, by simp [reset, size]⟩
  intro entry member
  obtain ⟨before, -, rfl⟩ := List.mem_map.mp member
  exact before.rule.reset_compact bound

theorem injectSpec_compact {e : RuleEngine Rule} (h : e.Compact bound) (spec : RuleSpec) :
    (e.injectSpec spec).Compact bound := by
  have of_rules : ∀ entries : List (Entry Rule),
      (∀ rule ∈ entries.map Entry.rule, rule.Compact bound) ↔
        ∀ entry ∈ entries, entry.rule.Compact bound := fun entries => List.forall_mem_map
  unfold injectSpec
  split
  · exact h
  · rename_i rule made
    obtain ⟨-, rfl⟩ := makeRule_eq_some.mp made
    have added : (e.addRule (RuleFactory.build spec)).2.Compact bound := by
      unfold addRule
      split
      · exact h
      · split
        · exact h
        · intro entry member
          rcases List.mem_append.mp member with before | new
          · exact h entry before
          · obtain rfl := List.mem_singleton.mp new
            exact Rule.build_compact spec bound
    unfold inject setEnabled
    split
    · exact added
    · refine (of_rules _).mp ?_
      simp only [setEnabledFirst_rules]
      exact (of_rules _).mpr added

theorem fill_compact (specs : List RuleSpec) (bound : ℕ) :
    (fill specs : RuleEngine Rule).Compact bound := by
  unfold fill
  refine List.foldlRecOn (motive := fun e : RuleEngine Rule => e.Compact bound) specs _ ?_ ?_
  · intro entry member
    cases member
  · exact fun e h spec _ => injectSpec_compact h spec

end RuleEngine

end VisionLab
