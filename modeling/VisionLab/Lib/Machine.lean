import Mathlib.Data.List.Infix

/-! Runs of a deterministic machine: a step function applied along a list of events, invariants of
its runs, and conditions that each step of a run has to meet. -/
namespace Machine

variable {S E : Type*} (step : S → E → S)

def run (s : S) (events : List E) : S := events.foldl step s

@[simp] theorem run_nil (s : S) : run step s [] = s := rfl

@[simp] theorem run_cons (s : S) (event : E) (events : List E) :
    run step s (event :: events) = run step (step s event) events := rfl

theorem run_append (s : S) (events more : List E) :
    run step s (events ++ more) = run step (run step s events) more := List.foldl_append

/-- Every event of the run comes in a state where `G` allows it. -/
def EveryStep (G : S → E → Prop) : S → List E → Prop
  | _, [] => True
  | s, event :: events => G s event ∧ EveryStep G (step s event) events

instance decidableEveryStep {G : S → E → Prop} [∀ s event, Decidable (G s event)] :
    ∀ s events, Decidable (EveryStep step G s events)
  | _, [] => .isTrue trivial
  | s, event :: events =>
    have := decidableEveryStep (G := G) (step s event) events
    inferInstanceAs (Decidable (G s event ∧ EveryStep step G (step s event) events))

variable {step}

theorem everyStep_append {G : S → E → Prop} (s : S) (events more : List E) :
    EveryStep step G s (events ++ more) ↔
      EveryStep step G s events ∧ EveryStep step G (run step s events) more := by
  induction events generalizing s with
  | nil => simp [EveryStep]
  | cons event events ih => simp [EveryStep, ih, and_assoc]

theorem everyStep_of_forall {G : S → E → Prop} {events : List E}
    (all : ∀ event ∈ events, ∀ s, G s event) (s : S) : EveryStep step G s events := by
  induction events generalizing s with
  | nil => trivial
  | cons event events ih =>
    simp only [List.forall_mem_cons] at all
    exact ⟨all.1 s, ih all.2 (step s event)⟩

theorem run_invariant {P : S → Prop} {s : S} (base : P s)
    (keeps : ∀ s event, P s → P (step s event)) (events : List E) : P (run step s events) := by
  induction events generalizing s with
  | nil => exact base
  | cons event events ih => exact ih (keeps s event base)

theorem run_guarded {P : S → Prop} {G : S → E → Prop} {s : S} (base : P s)
    (keeps : ∀ s event, G s event → P s → P (step s event)) {events : List E}
    (guarded : EveryStep step G s events) : P (run step s events) := by
  induction events generalizing s with
  | nil => exact base
  | cons event events ih => exact ih (keeps s event guarded.1 base) guarded.2

/-- A run with a step that is not allowed ends in `B`, if such a step leads to `B` and no step
leads out of it. -/
theorem run_unguarded {B : S → Prop} {G : S → E → Prop} {s : S}
    (breaks : ∀ s event, ¬ G s event → B (step s event))
    (stays : ∀ s event, B s → B (step s event)) {events : List E}
    (unguarded : ¬ EveryStep step G s events) : B (run step s events) := by
  induction events generalizing s with
  | nil => exact absurd trivial unguarded
  | cons event events ih =>
    by_cases allowed : G s event
    · exact ih (fun rest => unguarded ⟨allowed, rest⟩)
    · exact run_invariant (breaks s event allowed) stays events

/-- A condition on the steps is exact for `Q` if allowed steps keep an invariant that gives `Q`, and
a step that is not allowed leaves the states where `Q` holds. -/
theorem everyStep_iff {I Q : S → Prop} {G : S → E → Prop} (sound : ∀ s, I s → Q s)
    (keeps : ∀ s event, I s → G s event → I (step s event))
    (breaks : ∀ s event, I s → ¬ G s event → ¬ Q (step s event)) {s : S} (base : I s)
    (events : List E) :
    (∀ pre, pre <+: events → Q (run step s pre)) ↔ EveryStep step G s events := by
  induction events generalizing s with
  | nil =>
    constructor
    · intro _
      trivial
    · intro _ pre short
      rw [List.prefix_nil.mp short]
      exact sound s base
  | cons event events ih =>
    constructor
    · intro holds
      have allowed : G s event := by
        by_contra forbidden
        exact breaks s event base forbidden (holds [event] (by simp))
      refine ⟨allowed, (ih (keeps s event base allowed)).mp ?_⟩
      intro pre short
      exact holds (event :: pre) (List.cons_prefix_cons.mpr ⟨rfl, short⟩)
    · rintro ⟨allowed, rest⟩ pre short
      cases pre with
      | nil => exact sound s base
      | cons first pre =>
        obtain ⟨rfl, shorter⟩ := List.cons_prefix_cons.mp short
        exact (ih (keeps s first base allowed)).mpr rest pre shorter

end Machine
