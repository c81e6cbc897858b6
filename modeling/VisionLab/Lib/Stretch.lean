import Mathlib.Tactic.Common

/-! Stretches of neighbouring positions at which a predicate holds. -/
namespace Stretch

variable {holds : ℕ → Prop} {j k : ℕ}

def Opens (holds : ℕ → Prop) (j : ℕ) : Prop := j = 0 ∨ ¬holds (j - 1)

instance [DecidablePred holds] : DecidablePred (Opens holds) := fun j =>
  inferInstanceAs (Decidable (j = 0 ∨ ¬holds (j - 1)))

/-- The predicate has held from `j` on up to `k`, and not just before `j`. -/
structure From (holds : ℕ → Prop) (j k : ℕ) : Prop where
  le : j ≤ k
  all : ∀ i, j ≤ i → i ≤ k → holds i
  opens : Opens holds j

theorem From.start (here : holds k) (opens : Opens holds k) : From holds k k :=
  ⟨Nat.le_refl k, fun _ low high => Nat.le_antisymm low high ▸ here, opens⟩

theorem From.extend (stretch : From holds j k) (here : holds (k + 1)) : From holds j (k + 1) where
  le := Nat.le_succ_of_le stretch.le
  all i low high := by
    by_cases last : i = k + 1
    · exact last ▸ here
    · exact stretch.all i low (by omega)
  opens := stretch.opens

theorem From.le_start {i : ℕ} (stretch : From holds j k) (other : From holds i k) : i ≤ j := by
  by_contra later
  rcases other.opens with first | outside
  · omega
  · exact outside (stretch.all (i - 1) (by omega) (by have := other.le; omega))

theorem From.unique {i : ℕ} (stretch : From holds j k) (other : From holds i k) : i = j :=
  Nat.le_antisymm (stretch.le_start other) (other.le_start stretch)

end Stretch
