import Mathlib

/-! Texts that are put together from parts and taken apart again from the right: at the last
occurrence of a letter that the part behind it cannot have. -/
namespace Texts

variable {α : Type*} {a : α} {left left' right right' : List α}

theorem split_last (free : a ∉ right) (free' : a ∉ right')
    (same : left ++ a :: right = left' ++ a :: right') : left = left' ∧ right = right' := by
  rw [List.append_eq_append_iff] at same
  cases same with
  | inl longer =>
    obtain ⟨between, rfl, rest⟩ := longer
    cases between with
    | nil => exact ⟨(List.append_nil left).symm, (List.cons.inj rest).2⟩
    | cons first between =>
      have member : a ∈ right := by
        rw [(List.cons.inj rest).2]
        exact List.mem_append_right between List.mem_cons_self
      exact absurd member free
  | inr longer =>
    obtain ⟨between, rfl, rest⟩ := longer
    cases between with
    | nil => exact ⟨List.append_nil left', (List.cons.inj rest).2.symm⟩
    | cons first between =>
      have member : a ∈ right' := by
        rw [(List.cons.inj rest).2]
        exact List.mem_append_right between List.mem_cons_self
      exact absurd member free'

theorem isDigit_of_mem_nat {n : ℕ} {c : Char} (member : c ∈ (toString n).toList) :
    c.isDigit = true :=
  Nat.isDigit_of_mem_toDigits (by decide) (by decide) (Nat.toList_repr ▸ member)

theorem isDigit_or_minus_of_mem_int {n : ℤ} {c : Char} (member : c ∈ (toString n).toList) :
    c.isDigit = true ∨ c = '-' := by
  have written : (toString n) = n.repr := rfl
  rw [written, Int.repr_eq_if] at member
  split at member
  · exact Or.inl (isDigit_of_mem_nat member)
  · simp only [String.toList_append, List.mem_append] at member
    cases member with
    | inl sign => exact Or.inr (by simpa using sign)
    | inr digit => exact Or.inl (isDigit_of_mem_nat digit)

theorem notMem_nat {n : ℕ} {c : Char} (other : c.isDigit = false) : c ∉ (toString n).toList := by
  intro member
  rw [isDigit_of_mem_nat member] at other
  cases other

theorem notMem_int {n : ℤ} {c : Char} (other : c.isDigit = false) (sign : c ≠ '-') :
    c ∉ (toString n).toList := by
  intro member
  cases isDigit_or_minus_of_mem_int member with
  | inl digit =>
    rw [digit] at other
    cases other
  | inr minus => exact sign minus

theorem nat_injective {m n : ℕ} (same : (toString m).toList = (toString n).toList) : m = n :=
  Nat.repr_injective (String.toList_inj.mp same)

theorem int_injective {m n : ℤ} (same : (toString m).toList = (toString n).toList) : m = n :=
  Int.repr_injective (String.toList_inj.mp same)

end Texts
