import Mathlib.Data.List.Count
import VisionLab.Lib.Ledger

/-! The bounded queue, one critical section at a time. A push or a pop whose wait predicate fails
leaves the queue as it is and reports that its thread waits; the threads themselves are the
business of `VisionLab.Core.QueueThreads`. -/
namespace VisionLab

inductive OverflowPolicy where
  | blockProducer | dropNewest | dropOldest
  deriving DecidableEq, Repr

structure BoundedQueue (α : Type) where
  capacity : ℕ
  policy : OverflowPolicy
  queue : List α
  closed : Bool
  dropped : ℕ
  capacity_pos : 0 < capacity
  size_le : queue.length ≤ capacity

/-- How one critical section of `push` ends: it goes to wait, returns false because the queue is
closed or full, or returns true having evicted the given item. -/
inductive PushResult (α : Type) where
  | waits | closed | full | accepted (evicted : Option α)
  deriving DecidableEq, Repr

/-- How one critical section of `pop` ends: `drained` is the return value false. -/
inductive PopResult (α : Type) where
  | waits | drained | item (x : α)
  deriving DecidableEq, Repr

namespace BoundedQueue

variable {α : Type}

def empty (capacity : ℕ) (policy : OverflowPolicy) (positive : 0 < capacity) : BoundedQueue α :=
  ⟨capacity, policy, [], false, 0, positive, Nat.zero_le _⟩

/-- The constructor, with the text of the exception it throws. -/
def new (capacity : ℕ) (policy : OverflowPolicy := .dropOldest) : Except String (BoundedQueue α) :=
  if h : capacity = 0 then .error "BoundedQueue capacity must be >= 1"
  else .ok (empty capacity policy (Nat.pos_of_ne_zero h))

theorem new_ok {capacity : ℕ} {policy : OverflowPolicy} {q : BoundedQueue α}
    (made : new capacity policy = .ok q) : ∃ positive, q = empty capacity policy positive := by
  unfold new at made
  split at made
  · contradiction
  · rename_i positive
    exact ⟨Nat.pos_of_ne_zero positive, (Except.ok.inj made).symm⟩

def size (q : BoundedQueue α) : ℕ := q.queue.length
def droppedCount (q : BoundedQueue α) : ℕ := q.dropped

def notFull (q : BoundedQueue α) : Bool := q.closed || decide (q.queue.length < q.capacity)

def notEmpty (q : BoundedQueue α) : Bool := q.closed || !q.queue.isEmpty

def pushMustWait (q : BoundedQueue α) : Bool :=
  decide (q.policy = .blockProducer) && !q.notFull

theorem replaced_length {capacity : ℕ} {queue : List α} (x : α) (positive : 0 < capacity)
    (bound : queue.length ≤ capacity) : (queue.tail ++ [x]).length ≤ capacity := by
  simp only [List.length_append, List.length_tail, List.length_singleton]
  omega

theorem appended_length {capacity : ℕ} {queue : List α} (x : α)
    (room : ¬ capacity ≤ queue.length) : (queue ++ [x]).length ≤ capacity := by
  simp only [List.length_append, List.length_singleton]
  omega

/-- The body of `push` after the wait. -/
def pushLocked (q : BoundedQueue α) (x : α) : BoundedQueue α × PushResult α :=
  if q.closed then (q, .closed)
  else if h : q.capacity ≤ q.queue.length then
    if q.policy = .dropNewest then ({ q with dropped := q.dropped + 1 }, .full)
    else
      ({ q with
          queue := q.queue.tail ++ [x]
          dropped := q.dropped + 1
          size_le := replaced_length x q.capacity_pos q.size_le }, .accepted q.queue.head?)
  else
    ({ q with queue := q.queue ++ [x], size_le := appended_length x h }, .accepted none)

def push (q : BoundedQueue α) (x : α) : BoundedQueue α × PushResult α :=
  if q.pushMustWait then (q, .waits) else q.pushLocked x

def popLocked (q : BoundedQueue α) : BoundedQueue α × PopResult α :=
  match h : q.queue with
  | [] => (q, .drained)
  | x :: rest =>
    ({ q with
        queue := rest
        size_le := Nat.le_of_succ_le (by simpa only [h, List.length_cons] using q.size_le) },
      .item x)

def pop (q : BoundedQueue α) : BoundedQueue α × PopResult α :=
  if q.notEmpty then q.popLocked else (q, .waits)

def close (q : BoundedQueue α) : BoundedQueue α := { q with closed := true }

/- Everything one critical section can do, with the guard of each outcome. -/

inductive Pushed (q : BoundedQueue α) (x : α) : BoundedQueue α × PushResult α → Prop where
  | waits (blocking : q.policy = .blockProducer) (opened : q.closed = false)
      (full : q.queue.length = q.capacity) : Pushed q x (q, .waits)
  | closed (shut : q.closed = true) : Pushed q x (q, .closed)
  | full (newest : q.policy = .dropNewest) (opened : q.closed = false)
      (full : q.queue.length = q.capacity) :
      Pushed q x ({ q with dropped := q.dropped + 1 }, .full)
  | evicts (front : α) (rest : List α) (oldest : q.policy = .dropOldest)
      (opened : q.closed = false) (content : q.queue = front :: rest)
      (full : q.queue.length = q.capacity) (bound : (rest ++ [x]).length ≤ q.capacity) :
      Pushed q x
        ({ q with queue := rest ++ [x], dropped := q.dropped + 1, size_le := bound },
          .accepted (some front))
  | appends (opened : q.closed = false) (room : q.queue.length < q.capacity)
      (bound : (q.queue ++ [x]).length ≤ q.capacity) :
      Pushed q x ({ q with queue := q.queue ++ [x], size_le := bound }, .accepted none)

theorem pushMustWait_iff (q : BoundedQueue α) : q.pushMustWait = true ↔
    q.policy = .blockProducer ∧ q.closed = false ∧ q.queue.length = q.capacity := by
  have bound := q.size_le
  simp only [pushMustWait, notFull, Bool.and_eq_true, decide_eq_true_eq, Bool.not_eq_true',
    Bool.or_eq_false_iff, decide_eq_false_iff_not, Nat.not_lt]
  constructor
  · rintro ⟨blocking, opened, full⟩
    exact ⟨blocking, opened, Nat.le_antisymm bound full⟩
  · rintro ⟨blocking, opened, full⟩
    exact ⟨blocking, opened, Nat.le_of_eq full.symm⟩

theorem pushLocked_spec (q : BoundedQueue α) (x : α) (go : q.pushMustWait = false) :
    Pushed q x (q.pushLocked x) := by
  have bound := q.size_le
  unfold pushLocked
  by_cases shut : q.closed = true
  · rw [if_pos shut]
    exact .closed shut
  · have opened : q.closed = false := by simpa using shut
    rw [if_neg shut]
    by_cases room : q.capacity ≤ q.queue.length
    · have full : q.queue.length = q.capacity := Nat.le_antisymm bound room
      rw [dif_pos room]
      by_cases newest : q.policy = .dropNewest
      · rw [if_pos newest]
        exact .full newest opened full
      · rw [if_neg newest]
        have oldest : q.policy = .dropOldest := by
          cases hp : q.policy with
          | blockProducer =>
            rw [(pushMustWait_iff q).mpr ⟨hp, opened, full⟩] at go
            contradiction
          | dropNewest => exact absurd hp newest
          | dropOldest => rfl
        obtain ⟨front, rest, content⟩ : ∃ front rest, q.queue = front :: rest := by
          apply List.exists_cons_of_length_pos
          rw [full]
          exact q.capacity_pos
        have result := Pushed.evicts (x := x) front rest oldest opened content full
          (by simpa only [content, List.tail_cons] using replaced_length x q.capacity_pos bound)
        simpa only [content, List.tail_cons, List.head?_cons] using result
    · rw [dif_neg room]
      exact .appends opened (Nat.lt_of_not_le room) (appended_length x room)

theorem push_spec (q : BoundedQueue α) (x : α) : Pushed q x (q.push x) := by
  unfold push
  by_cases wait : q.pushMustWait = true
  · rw [if_pos wait]
    obtain ⟨blocking, opened, full⟩ := (pushMustWait_iff q).mp wait
    exact .waits blocking opened full
  · rw [if_neg wait]
    exact pushLocked_spec q x (by simpa using wait)

inductive Popped (q : BoundedQueue α) : BoundedQueue α × PopResult α → Prop where
  | waits (opened : q.closed = false) (content : q.queue = []) : Popped q (q, .waits)
  | drained (shut : q.closed = true) (content : q.queue = []) : Popped q (q, .drained)
  | item (x : α) (rest : List α) (content : q.queue = x :: rest)
      (bound : rest.length ≤ q.capacity) :
      Popped q ({ q with queue := rest, size_le := bound }, .item x)

theorem notEmpty_iff (q : BoundedQueue α) :
    q.notEmpty = true ↔ q.closed = true ∨ q.queue ≠ [] := by
  simp [notEmpty]

theorem popLocked_spec (q : BoundedQueue α) (go : q.notEmpty = true) :
    Popped q q.popLocked := by
  unfold popLocked
  split
  · rename_i content
    have shut : q.closed = true := by
      rcases (notEmpty_iff q).mp go with shut | present
      · exact shut
      · exact absurd content present
    exact .drained shut content
  · rename_i x rest content
    exact .item x rest content _

theorem pop_spec (q : BoundedQueue α) : Popped q q.pop := by
  unfold pop
  by_cases go : q.notEmpty = true
  · rw [if_pos go]
    exact popLocked_spec q go
  · rw [if_neg go]
    have stuck : q.closed = false ∧ q.queue = [] := by
      simpa [notEmpty_iff] using go
    exact .waits stuck.1 stuck.2

theorem push_frame (q : BoundedQueue α) (x : α) : (q.push x).1.capacity = q.capacity ∧
    (q.push x).1.policy = q.policy ∧ (q.push x).1.closed = q.closed := by
  have spec := push_spec q x
  generalize q.push x = result at spec ⊢
  cases spec <;> exact ⟨rfl, rfl, rfl⟩

theorem pop_frame (q : BoundedQueue α) : q.pop.1.capacity = q.capacity ∧
    q.pop.1.policy = q.policy ∧ q.pop.1.closed = q.closed ∧ q.pop.1.dropped = q.dropped := by
  have spec := pop_spec q
  generalize q.pop = result at spec ⊢
  cases spec <;> exact ⟨rfl, rfl, rfl, rfl⟩

end BoundedQueue

end VisionLab
