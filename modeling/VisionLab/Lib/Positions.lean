import Mathlib.Data.List.Basic
import Mathlib.Data.List.Range
import Mathlib.Order.Monotone.Basic

/-! Loops over the positions of a list, and the same loops over its elements. Each element is
paired with its position; leaving elements out keeps the others in order, so the positions in the
shorter list are the positions in the longer one under an increasing renaming. -/
namespace Positions

variable {α β γ : Type*}

theorem range_eq (xs : List α) : List.range xs.length = xs.zipIdx.map Prod.snd := by
  rw [List.zipIdx_map_snd, List.range_eq_range']

theorem filter_range (xs : List α) (p : ℕ → Bool) (q : α × ℕ → Bool)
    (same : ∀ x ∈ xs.zipIdx, p x.2 = q x) :
    (List.range xs.length).filter p = (xs.zipIdx.filter q).map Prod.snd := by
  rw [range_eq, List.filter_map]
  congr 1
  exact List.filter_congr same

theorem map_range (xs : List α) (f : ℕ → β) (g : α → β)
    (same : ∀ x ∈ xs.zipIdx, f x.2 = g x.1) : (List.range xs.length).map f = xs.map g := by
  conv_rhs => rw [← List.zipIdx_map_fst 0 xs]
  rw [range_eq, List.map_map, List.map_map]
  exact List.map_congr_left same

theorem filterMap_range (xs : List α) (f : ℕ → Option β) (g : α → Option β)
    (same : ∀ x ∈ xs.zipIdx, f x.2 = g x.1) :
    (List.range xs.length).filterMap f = xs.filterMap g := by
  conv_rhs => rw [← List.zipIdx_map_fst 0 xs]
  rw [range_eq, List.filterMap_map, List.filterMap_map]
  exact List.filterMap_congr same

theorem flatMap_range (xs : List α) (f : ℕ → List β) (g : α → List β)
    (same : ∀ x ∈ xs.zipIdx, f x.2 = g x.1) :
    (List.range xs.length).flatMap f = xs.flatMap g := by
  conv_rhs => rw [← List.zipIdx_map_fst 0 xs]
  rw [range_eq, List.flatMap_map, List.flatMap_map]
  exact List.flatMap_congr same

theorem flatMap_filter (p : α → Bool) (g : α → List β) (xs : List α) :
    (xs.filter p).flatMap g = xs.flatMap (fun x => if p x then g x else []) := by
  induction xs with
  | nil => rfl
  | cons x xs ih =>
    cases keep : p x with
    | true =>
      rw [List.filter_cons_of_pos keep, List.flatMap_cons, List.flatMap_cons, ih, if_pos keep]
    | false =>
      have drop : ¬ p x = true := by simp [keep]
      rw [List.filter_cons_of_neg drop, List.flatMap_cons, ih, if_neg drop, List.nil_append]

theorem getD_of_mem_zipIdx {xs : List α} {x : α} {i : ℕ} (h : (x, i) ∈ xs.zipIdx) (d : α) :
    xs.getD i d = x := by
  rw [List.getD_eq_getElem?_getD, List.mk_mem_zipIdx_iff_getElem?.mp h]
  rfl

theorem zipIdx_cons_shift (x : α) (xs : List α) :
    (x :: xs).zipIdx = (x, 0) :: xs.zipIdx.map (fun y => (y.1, y.2 + 1)) := by
  rw [List.zipIdx_cons, Nat.zero_add, List.zipIdx_succ]

/-- The elements that pass a test stand at the positions of the filtered list, renamed by one
strictly increasing function. -/
theorem exists_renaming (g : β → α) (p : α → Bool) (xs : List α) (ys : List β)
    (h : ys.map g = xs.filter p) : ∃ ρ : ℕ → ℕ, StrictMono ρ ∧
      ys.zipIdx.map (Prod.map g ρ) = xs.zipIdx.filter (fun x => p x.1) := by
  induction xs generalizing ys with
  | nil =>
    rw [List.filter_nil, List.map_eq_nil_iff] at h
    subst h
    exact ⟨id, strictMono_id, rfl⟩
  | cons x xs ih =>
    have shift : ∀ l : List (α × ℕ),
        (l.map (fun y => (y.1, y.2 + 1))).filter (fun y => p y.1) =
          (l.filter (fun y => p y.1)).map (fun y => (y.1, y.2 + 1)) := fun l => List.filter_map
    rw [zipIdx_cons_shift]
    cases keep : p x with
    | false =>
      rw [List.filter_cons_of_neg (by simp [keep])] at h
      obtain ⟨ρ, increasing, renamed⟩ := ih ys h
      refine ⟨fun i => ρ i + 1, fun _ _ less => Nat.succ_lt_succ (increasing less), ?_⟩
      rw [List.filter_cons_of_neg (by simp [keep]), shift, ← renamed, List.map_map]
      rfl
    | true =>
      rw [List.filter_cons_of_pos keep] at h
      cases ys with
      | nil => cases h
      | cons y ys =>
        obtain ⟨head, tail⟩ := List.cons.inj h
        obtain ⟨ρ, increasing, renamed⟩ := ih ys tail
        refine ⟨fun | 0 => 0 | i + 1 => ρ i + 1, ?_, ?_⟩
        · rintro (_ | i) (_ | j) less
          · exact absurd less (Nat.lt_irrefl _)
          · exact Nat.succ_pos _
          · exact absurd less (Nat.not_lt_zero _)
          · exact Nat.succ_lt_succ (increasing (Nat.lt_of_succ_lt_succ less))
        · rw [zipIdx_cons_shift, List.filter_cons_of_pos (p := fun z : α × ℕ => p z.1) keep, shift,
            ← renamed, List.map_cons, List.map_map, List.map_map, Prod.map_apply, head]
          rfl

end Positions
