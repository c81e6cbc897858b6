import Mathlib.Algebra.BigOperators.Ring.Finset
import Mathlib.Algebra.Order.BigOperators.Group.Finset
import Mathlib.Data.Finset.Card

/-! Populations whose members carry an age and go once they are too old. If few are born in a round,
few are there. -/
namespace Ages

/-- At most `births` members of each age, and none above the limit. -/
structure Bounded (births limit : ℕ) (ages : List ℕ) : Prop where
  young : ∀ age ∈ ages, age ≤ limit
  few : ∀ age, ages.count age ≤ births

variable {births limit : ℕ} {ages later : List ℕ}

theorem Bounded.nil (births limit : ℕ) : Bounded births limit [] :=
  ⟨fun _ member => (List.not_mem_nil member).elim, fun _ => Nat.zero_le births⟩

theorem Bounded.round (h : Bounded births limit ages) (young : ∀ age ∈ later, age ≤ limit)
    (born : later.count 0 ≤ births) (older : ∀ age, later.count (age + 1) ≤ ages.count age) :
    Bounded births limit later := by
  refine ⟨young, ?_⟩
  intro age
  cases age with
  | zero => exact born
  | succ age => exact (older age).trans (h.few age)

theorem Bounded.length_le (h : Bounded births limit ages) :
    ages.length ≤ births * (limit + 1) := by
  have listed : ∀ age ∈ (ages : Multiset ℕ), age ∈ Finset.range (limit + 1) := by
    intro age member
    exact Finset.mem_range.mpr (Nat.lt_succ_of_le (h.young age member))
  have total := Multiset.sum_count_eq_card listed
  simp only [Multiset.coe_count, Multiset.coe_card] at total
  calc ages.length = ∑ age ∈ Finset.range (limit + 1), ages.count age := total.symm
    _ ≤ ∑ _age ∈ Finset.range (limit + 1), births := Finset.sum_le_sum (fun age _ => h.few age)
    _ = births * (limit + 1) := by
        rw [Finset.sum_const_nat (fun _ _ => rfl), Finset.card_range, Nat.mul_comm]

end Ages
