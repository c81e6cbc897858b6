import Mathlib.Data.List.Basic

/-! The ledger of a first-in first-out store whose head may be thrown away.
Items are accepted at the back; the item at the front is either taken or discarded. A discarded
item is recorded by its position in the order of acceptance, so equal items stay apart. -/
namespace Fifo

variable {α : Type*}

/-- The list without the positions in `ps`, the first element standing at position `i`. -/
def withoutFrom (ps : List ℕ) : ℕ → List α → List α
  | _, [] => []
  | i, x :: xs => if i ∈ ps then withoutFrom ps (i + 1) xs else x :: withoutFrom ps (i + 1) xs

def without (ps : List ℕ) (xs : List α) : List α := withoutFrom ps 0 xs

theorem withoutFrom_append (ps : List ℕ) (i : ℕ) (xs ys : List α) :
    withoutFrom ps i (xs ++ ys) = withoutFrom ps i xs ++ withoutFrom ps (i + xs.length) ys := by
  induction xs generalizing i with
  | nil => simp [withoutFrom]
  | cons x xs ih =>
    have shift : i + 1 + xs.length = i + (xs.length + 1) := by omega
    by_cases hit : i ∈ ps
    · simp only [List.cons_append, withoutFrom, if_pos hit, ih, shift, List.length_cons]
    · simp only [List.cons_append, withoutFrom, if_neg hit, ih, shift, List.length_cons]

theorem withoutFrom_eq_self {ps : List ℕ} {i : ℕ} {xs : List α}
    (out : ∀ p ∈ ps, p < i ∨ i + xs.length ≤ p) : withoutFrom ps i xs = xs := by
  induction xs generalizing i with
  | nil => rfl
  | cons x xs ih =>
    have miss : i ∉ ps := by
      intro hi
      have := out i hi
      simp only [List.length_cons] at this
      omega
    have rest : withoutFrom ps (i + 1) xs = xs := by
      apply ih
      intro p hp
      have := out p hp
      simp only [List.length_cons] at this
      omega
    simp only [withoutFrom, if_neg miss, rest]

theorem withoutFrom_snoc_beyond {ps : List ℕ} {q i : ℕ} {xs : List α}
    (beyond : i + xs.length ≤ q) : withoutFrom (ps ++ [q]) i xs = withoutFrom ps i xs := by
  induction xs generalizing i with
  | nil => rfl
  | cons x xs ih =>
    simp only [List.length_cons] at beyond
    have apart : i ≠ q := by omega
    have same : i ∈ ps ++ [q] ↔ i ∈ ps := by
      simp only [List.mem_append, List.mem_singleton, apart, or_false]
    have rest := ih (i := i + 1) (by omega)
    by_cases hit : i ∈ ps
    · simp only [withoutFrom, same, if_pos hit, rest]
    · simp only [withoutFrom, same, if_neg hit, rest]

theorem withoutFrom_sublist (ps : List ℕ) (i : ℕ) (xs : List α) :
    (withoutFrom ps i xs).Sublist xs := by
  induction xs generalizing i with
  | nil => exact List.Sublist.slnil
  | cons x xs ih =>
    by_cases hit : i ∈ ps
    · simp only [withoutFrom, if_pos hit]
      exact (ih (i + 1)).cons x
    · simp only [withoutFrom, if_neg hit]
      exact (ih (i + 1)).cons_cons x

theorem without_middle (ps : List ℕ) (xs : List α) (x : α) (ys : List α) :
    without ps (xs ++ x :: ys) =
      without ps xs ++ (if xs.length ∈ ps then [] else [x]) ++ withoutFrom ps (xs.length + 1) ys := by
  simp only [without, withoutFrom_append, withoutFrom, Nat.zero_add]
  split <;> simp

structure Ledger (α : Type*) where
  accepted : List α := []
  taken : List α := []
  discarded : List ℕ := []
  deriving DecidableEq, Repr

namespace Ledger

/-- The position of the oldest item still present. -/
def next (l : Ledger α) : ℕ := l.taken.length + l.discarded.length

def accept (l : Ledger α) (x : α) : Ledger α := { l with accepted := l.accepted ++ [x] }
def take (l : Ledger α) (x : α) : Ledger α := { l with taken := l.taken ++ [x] }
def discard (l : Ledger α) : Ledger α := { l with discarded := l.discarded ++ [l.next] }

@[simp] theorem next_take (l : Ledger α) (x : α) : (l.take x).next = l.next + 1 := by
  simp only [take, next, List.length_append, List.length_singleton]
  omega

@[simp] theorem next_discard (l : Ledger α) : l.discard.next = l.next + 1 := by
  simp only [discard, next, List.length_append, List.length_singleton]
  omega

/-- The store holds `items`: nothing is lost, nothing is reordered, and every discarded position
lies before the items still present. -/
structure Holds (l : Ledger α) (items : List α) : Prop where
  next_le : l.next ≤ l.accepted.length
  present : items = l.accepted.drop l.next
  gone : l.taken = without l.discarded (l.accepted.take l.next)
  discarded_lt : ∀ p ∈ l.discarded, p < l.next
  discarded_increasing : l.discarded.Pairwise (· < ·)

theorem holds_empty : Holds ({} : Ledger α) [] := by
  constructor
  · exact Nat.le_refl _
  · rfl
  · rfl
  · intro p hp
    cases hp
  · exact List.Pairwise.nil

theorem Holds.accept {l : Ledger α} {items : List α} (h : l.Holds items) (x : α) :
    (l.accept x).Holds (items ++ [x]) := by
  constructor
  · simp only [Ledger.accept, List.length_append, List.length_singleton]
    exact Nat.le_succ_of_le h.next_le
  · change items ++ [x] = (l.accepted ++ [x]).drop l.next
    rw [List.drop_append_of_le_length h.next_le, ← h.present]
  · change l.taken = without l.discarded ((l.accepted ++ [x]).take l.next)
    rw [List.take_append_of_le_length h.next_le]
    exact h.gone
  · exact h.discarded_lt
  · exact h.discarded_increasing

theorem Holds.head {l : Ledger α} {x : α} {items : List α} (h : l.Holds (x :: items)) :
    ∃ bound : l.next < l.accepted.length, l.accepted[l.next] = x ∧
      items = l.accepted.drop (l.next + 1) := by
  have present := h.present
  have bound : l.next < l.accepted.length := by
    by_contra beyond
    rw [List.drop_eq_nil_of_le (Nat.le_of_not_lt beyond)] at present
    cases present
  rw [List.drop_eq_getElem_cons bound] at present
  have parts := List.cons.inj present
  exact ⟨bound, parts.1.symm, parts.2⟩

theorem Holds.take {l : Ledger α} {x : α} {items : List α} (h : l.Holds (x :: items)) :
    (l.take x).Holds items := by
  obtain ⟨bound, front, rest⟩ := h.head
  have miss : l.next ∉ l.discarded := fun hit => Nat.lt_irrefl _ (h.discarded_lt _ hit)
  constructor
  · rw [next_take]
    exact bound
  · rw [next_take]
    exact rest
  · rw [next_take]
    change l.taken ++ [x] = without l.discarded (l.accepted.take (l.next + 1))
    rw [List.take_succ_eq_append_getElem bound, front, without, withoutFrom_append,
      ← without, ← h.gone]
    simp [withoutFrom, miss, Nat.min_eq_left h.next_le]
  · intro p hp
    rw [next_take]
    exact Nat.lt_succ_of_lt (h.discarded_lt p hp)
  · exact h.discarded_increasing

theorem Holds.discard {l : Ledger α} {x : α} {items : List α} (h : l.Holds (x :: items)) :
    l.discard.Holds items := by
  obtain ⟨bound, front, rest⟩ := h.head
  have upto : (l.accepted.take l.next).length = l.next := by
    simp [Nat.min_eq_left h.next_le]
  constructor
  · rw [next_discard]
    exact bound
  · rw [next_discard]
    exact rest
  · rw [next_discard]
    change l.taken = without (l.discarded ++ [l.next]) (l.accepted.take (l.next + 1))
    rw [List.take_succ_eq_append_getElem bound, without, withoutFrom_append,
      withoutFrom_snoc_beyond (by omega), ← without, ← h.gone]
    simp [withoutFrom, upto]
  · intro p hp
    rw [next_discard]
    simp only [Ledger.discard, List.mem_append, List.mem_singleton] at hp
    rcases hp with hp | hp
    · exact Nat.lt_succ_of_lt (h.discarded_lt p hp)
    · omega
  · simp only [Ledger.discard]
    rw [List.pairwise_append]
    refine ⟨h.discarded_increasing, List.pairwise_singleton _ _, ?_⟩
    intro p hp q hq
    rw [List.mem_singleton.mp hq]
    exact h.discarded_lt p hp

/-- What was taken, followed by what is present, is what was accepted less what was discarded. -/
theorem Holds.conserved {l : Ledger α} {items : List α} (h : l.Holds items) :
    l.taken ++ items = without l.discarded l.accepted := by
  have upto : (l.accepted.take l.next).length = l.next := by
    simp [Nat.min_eq_left h.next_le]
  have untouched : withoutFrom l.discarded l.next (l.accepted.drop l.next) =
      l.accepted.drop l.next := by
    apply withoutFrom_eq_self
    intro p hp
    exact Or.inl (h.discarded_lt p hp)
  calc l.taken ++ items
      = without l.discarded (l.accepted.take l.next) ++ l.accepted.drop l.next := by
        rw [← h.gone, ← h.present]
    _ = without l.discarded (l.accepted.take l.next ++ l.accepted.drop l.next) := by
        rw [without, without, withoutFrom_append, upto, Nat.zero_add, untouched]
    _ = without l.discarded l.accepted := by rw [List.take_append_drop]

theorem Holds.length {l : Ledger α} {items : List α} (h : l.Holds items) :
    l.accepted.length = l.taken.length + l.discarded.length + items.length := by
  have := h.next_le
  rw [h.present, List.length_drop, ← next]
  omega

theorem Holds.taken_sublist {l : Ledger α} {items : List α} (h : l.Holds items) :
    l.taken.Sublist l.accepted := by
  rw [h.gone]
  exact (withoutFrom_sublist _ _ _).trans (List.take_sublist _ _)

/-- What was taken of the items accepted before position `target`, once that position is passed. -/
def past (l : Ledger α) (target : ℕ) : List α := without l.discarded (l.accepted.take target)

theorem past_accept {l : Ledger α} {target : ℕ} (known : target ≤ l.accepted.length) (x : α) :
    (l.accept x).past target = l.past target := by
  simp only [past, accept, List.take_append_of_le_length known]

theorem past_discard {l : Ledger α} {target : ℕ} (passed : target ≤ l.next) :
    l.discard.past target = l.past target := by
  have short : 0 + (l.accepted.take target).length ≤ l.next := by
    rw [List.length_take]
    omega
  exact withoutFrom_snoc_beyond short

theorem Holds.past_prefix {l : Ledger α} {items : List α} (h : l.Holds items) {target : ℕ}
    (passed : target ≤ l.next) : l.past target <+: l.taken := by
  have split : l.accepted.take l.next =
      l.accepted.take target ++ (l.accepted.take l.next).drop target := by
    calc l.accepted.take l.next
        = (l.accepted.take l.next).take target ++ (l.accepted.take l.next).drop target :=
          (List.take_append_drop target _).symm
      _ = _ := by rw [List.take_take, Nat.min_eq_left passed]
  rw [h.gone, split, without, withoutFrom_append]
  exact List.prefix_append _ _

end Ledger

end Fifo
