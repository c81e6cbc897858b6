import Mathlib.Algebra.BigOperators.Group.Finset.Piecewise
import Mathlib.Algebra.Order.BigOperators.Group.Finset
import Mathlib.Data.Fintype.BigOperators

/-! Counting the threads of a finite family that stand in a given phase, and the covering law of
a condition variable: while somebody sleeps on it, the supply it stands for is covered by threads
already attending to it. -/
namespace Threads

variable {ι L : Type*} [Fintype ι]

def count (p : L → Bool) (phase : ι → L) : ℕ := ∑ i, (p (phase i)).toNat

theorem count_update [DecidableEq ι] (p : L → Bool) (phase : ι → L) (i : ι) (x : L) :
    count p (Function.update phase i x) + (p (phase i)).toNat =
      count p phase + (p x).toNat := by
  have others : ∑ j ∈ Finset.univ.erase i, (p (Function.update phase i x j)).toNat =
      ∑ j ∈ Finset.univ.erase i, (p (phase j)).toNat := by
    apply Finset.sum_congr rfl
    intro j hj
    rw [Function.update_of_ne (Finset.ne_of_mem_erase hj)]
  have after := Finset.add_sum_erase Finset.univ
    (fun j => (p (Function.update phase i x j)).toNat) (Finset.mem_univ i)
  have before := Finset.add_sum_erase Finset.univ (fun j => (p (phase j)).toNat) (Finset.mem_univ i)
  simp only [Function.update_self] at after
  simp only [count]
  omega

theorem count_pos_iff (p : L → Bool) (phase : ι → L) :
    0 < count p phase ↔ ∃ i, p (phase i) = true := by
  rw [count, Finset.sum_pos_iff]
  constructor
  · rintro ⟨i, _, hi⟩
    cases hp : p (phase i) with
    | true => exact ⟨i, hp⟩
    | false => simp [hp] at hi
  · rintro ⟨i, hi⟩
    exact ⟨i, Finset.mem_univ i, by simp [hi]⟩

theorem count_eq_zero (p : L → Bool) (phase : ι → L) (none : ∀ i, p (phase i) = false) :
    count p phase = 0 := by
  apply Nat.eq_zero_of_not_pos
  rw [count_pos_iff]
  rintro ⟨i, hi⟩
  rw [none i] at hi
  contradiction

theorem count_split (p q r : L → Bool) (split : ∀ x, (r x).toNat = (p x).toNat + (q x).toNat)
    (phase : ι → L) : count r phase = count p phase + count q phase := by
  simp only [count, split, Finset.sum_add_distrib]

/-- `sleepers` wait for a supply; `attending` threads are awake for it or about to wake one. -/
def Covered (sleepers attending supply : ℕ) (shut : Bool) : Prop :=
  0 < sleepers → shut = false ∧ supply ≤ attending

theorem covered_nobody (attending supply : ℕ) (shut : Bool) : Covered 0 attending supply shut :=
  fun h => absurd h (Nat.lt_irrefl 0)

theorem covered_nothing (sleepers attending : ℕ) : Covered sleepers attending 0 false :=
  fun _ => ⟨rfl, Nat.zero_le _⟩

/-- The law survives a step that puts nobody to sleep and adds no more supply than attention. -/
theorem Covered.mono {sleepers sleepers' attending attending' supply supply' : ℕ} {shut : Bool}
    (h : Covered sleepers attending supply shut) (fewer : sleepers' ≤ sleepers)
    (balance : supply' + attending ≤ supply + attending') :
    Covered sleepers' attending' supply' shut := by
  intro asleep
  obtain ⟨opened, covered⟩ := h (Nat.lt_of_lt_of_le asleep fewer)
  exact ⟨opened, by omega⟩

theorem Covered.of_shut {sleepers sleepers' attending attending' supply supply' : ℕ}
    (h : Covered sleepers attending supply true) (fewer : sleepers' ≤ sleepers) :
    Covered sleepers' attending' supply' true := by
  intro asleep
  obtain ⟨opened, _⟩ := h (Nat.lt_of_lt_of_le asleep fewer)
  contradiction

end Threads
