import VisionLab.Core.BoundedQueue

/-! Whole histories of the bounded queue. Every interleaving of producers, consumers and closers
is a list of critical sections; the ledger beside the queue records what the callers saw. -/
namespace VisionLab.BoundedQueue
open Fifo

variable {α : Type}

inductive Op (α : Type) where
  | push (x : α) | pop | close
  deriving DecidableEq, Repr

def Op.isPop : Op α → Bool
  | .pop => true
  | _ => false

structure History (α : Type) where
  ledger : Ledger α := {}
  refused : ℕ := 0

/-- Items whose `push` returned true, in that order. -/
def History.accepted (h : History α) : List α := h.ledger.accepted
def History.returned (h : History α) : List α := h.ledger.taken
/-- Positions, in the order of acceptance, of the evicted items. -/
def History.evicted (h : History α) : List ℕ := h.ledger.discarded

def History.afterPush (h : History α) (x : α) : PushResult α → History α
  | .accepted none => { h with ledger := h.ledger.accept x }
  | .accepted (some _) => { h with ledger := h.ledger.discard.accept x }
  | .full => { h with refused := h.refused + 1 }
  | .waits | .closed => h

def History.afterPop (h : History α) : PopResult α → History α
  | .item x => { h with ledger := h.ledger.take x }
  | .waits | .drained => h

structure Traced (α : Type) where
  queue : BoundedQueue α
  history : History α := {}

namespace Traced

def start (capacity : ℕ) (policy : OverflowPolicy) (positive : 0 < capacity) : Traced α :=
  { queue := .empty capacity policy positive }

def push (s : Traced α) (x : α) : Traced α :=
  ⟨(s.queue.push x).1, s.history.afterPush x (s.queue.push x).2⟩
def pop (s : Traced α) : Traced α := ⟨s.queue.pop.1, s.history.afterPop s.queue.pop.2⟩
def close (s : Traced α) : Traced α := ⟨s.queue.close, s.history⟩

def step (s : Traced α) : Op α → Traced α
  | .push x => s.push x
  | .pop => s.pop
  | .close => s.close

def run (s : Traced α) (ops : List (Op α)) : Traced α := ops.foldl step s

def owed (policy : OverflowPolicy) (h : History α) : ℕ :=
  match policy with
  | .dropOldest => h.evicted.length
  | .dropNewest => h.refused
  | .blockProducer => 0

structure Lawful (s : Traced α) : Prop where
  holds : s.history.ledger.Holds s.queue.queue
  counted : s.queue.dropped = owed s.queue.policy s.history
  spared : s.queue.policy ≠ .dropOldest → s.history.evicted = []

theorem start_lawful (capacity : ℕ) (policy : OverflowPolicy) (positive : 0 < capacity) :
    Lawful (start (α := α) capacity policy positive) := by
  constructor
  · exact Ledger.holds_empty
  · cases policy <;> rfl
  · intro _
    rfl

theorem push_lawful {s : Traced α} (h : Lawful s) (x : α) : Lawful (s.push x) := by
  have counted := h.counted
  have spec := push_spec s.queue x
  unfold push
  generalize s.queue.push x = result at spec ⊢
  cases spec with
  | waits => exact ⟨h.holds, h.counted, h.spared⟩
  | closed => exact ⟨h.holds, h.counted, h.spared⟩
  | full newest =>
    refine ⟨h.holds, ?_, h.spared⟩
    simp only [newest, owed] at counted
    simp only [newest, owed, History.afterPush, counted]
  | evicts front rest oldest opened content =>
    have gone := (content ▸ h.holds).discard
    refine ⟨gone.accept x, ?_, fun other => absurd oldest other⟩
    simp only [oldest, owed, History.evicted] at counted
    simp only [oldest, owed, History.evicted, History.afterPush, Ledger.accept, Ledger.discard,
      List.length_append, List.length_singleton, counted]
  | appends => exact ⟨h.holds.accept x, h.counted, h.spared⟩

theorem pop_lawful {s : Traced α} (h : Lawful s) : Lawful s.pop := by
  have spec := pop_spec s.queue
  unfold pop
  generalize s.queue.pop = result at spec ⊢
  cases spec with
  | waits => exact ⟨h.holds, h.counted, h.spared⟩
  | drained => exact ⟨h.holds, h.counted, h.spared⟩
  | item x rest content => exact ⟨(content ▸ h.holds).take, h.counted, h.spared⟩

theorem step_lawful {s : Traced α} (h : Lawful s) (op : Op α) : Lawful (s.step op) := by
  cases op with
  | push x => exact push_lawful h x
  | pop => exact pop_lawful h
  | close => exact ⟨h.holds, h.counted, h.spared⟩

theorem run_lawful {s : Traced α} (h : Lawful s) (ops : List (Op α)) : Lawful (s.run ops) := by
  induction ops generalizing s with
  | nil => exact h
  | cons op ops ih => exact ih (step_lawful h op)

@[simp] theorem run_append (s : Traced α) (ops more : List (Op α)) :
    s.run (ops ++ more) = (s.run ops).run more := List.foldl_append

theorem run_queue {s t : Traced α} (same : s.queue = t.queue) (ops : List (Op α)) :
    (s.run ops).queue = (t.run ops).queue := by
  induction ops generalizing s t with
  | nil => exact same
  | cons op ops ih =>
    apply ih
    cases op with
    | push x => exact congrArg (fun q => (q.push x).1) same
    | pop => exact congrArg (fun q => q.pop.1) same
    | close => exact congrArg BoundedQueue.close same

theorem run_frame (s : Traced α) (ops : List (Op α)) :
    (s.run ops).queue.capacity = s.queue.capacity ∧ (s.run ops).queue.policy = s.queue.policy := by
  induction ops generalizing s with
  | nil => exact ⟨rfl, rfl⟩
  | cons op ops ih =>
    have rest := ih (s.step op)
    have here : (s.step op).queue.capacity = s.queue.capacity ∧
        (s.step op).queue.policy = s.queue.policy := by
      cases op with
      | push x => exact ⟨(push_frame s.queue x).1, (push_frame s.queue x).2.1⟩
      | pop => exact ⟨(pop_frame s.queue).1, (pop_frame s.queue).2.1⟩
      | close => exact ⟨rfl, rfl⟩
    exact ⟨rest.1.trans here.1, rest.2.trans here.2⟩

/-- An eviction takes the oldest item present and records where it stood. -/
theorem push_evicts_oldest {s : Traced α} (h : Lawful s) (x y : α)
    (evicts : (s.queue.push x).2 = .accepted (some y)) :
    s.queue.policy = .dropOldest ∧ s.queue.queue.head? = some y ∧
      s.history.accepted[s.history.ledger.next]? = some y ∧
      (s.push x).history.evicted = s.history.evicted ++ [s.history.ledger.next] := by
  have spec := push_spec s.queue x
  unfold push
  generalize s.queue.push x = result at spec evicts ⊢
  cases spec with
  | waits => cases evicts
  | closed => cases evicts
  | full => cases evicts
  | appends => cases evicts
  | evicts front rest oldest opened content =>
    have same : front = y := by simpa using evicts
    subst same
    obtain ⟨bound, position, _⟩ := (content ▸ h.holds).head
    refine ⟨oldest, by rw [content]; rfl, ?_, rfl⟩
    rw [History.accepted, List.getElem?_eq_getElem bound, position]

/- After `close`: pushes are refused, pops drain what is left and then fail. -/

def pushResults (s : Traced α) : List (Op α) → List (PushResult α)
  | [] => []
  | .push x :: ops => (s.queue.push x).2 :: pushResults (s.push x) ops
  | .pop :: ops => pushResults s.pop ops
  | .close :: ops => pushResults s.close ops

def popResults (s : Traced α) : List (Op α) → List (PopResult α)
  | [] => []
  | .push x :: ops => popResults (s.push x) ops
  | .pop :: ops => s.queue.pop.2 :: popResults s.pop ops
  | .close :: ops => popResults s.close ops

theorem push_of_closed {q : BoundedQueue α} (shut : q.closed = true) (x : α) :
    q.push x = (q, .closed) := by
  have spec := push_spec q x
  generalize q.push x = result at spec ⊢
  cases spec <;> simp_all

theorem pushResults_of_closed {s : Traced α} (shut : s.queue.closed = true) (ops : List (Op α)) :
    ∀ r ∈ s.pushResults ops, r = .closed := by
  induction ops generalizing s with
  | nil => simp [pushResults]
  | cons op ops ih =>
    cases op with
    | push x =>
      have after : (s.push x).queue.closed = true := by
        rw [push, push_of_closed shut]
        exact shut
      intro r hr
      simp only [pushResults, List.mem_cons, push_of_closed shut] at hr
      rcases hr with hr | hr
      · exact hr
      · exact ih after r hr
    | pop =>
      have after : s.pop.queue.closed = true := (pop_frame s.queue).2.2.1.trans shut
      exact ih after
    | close => exact ih rfl

theorem popResults_of_closed {s : Traced α} (shut : s.queue.closed = true) (ops : List (Op α)) :
    s.popResults ops = (s.queue.queue.take (ops.countP Op.isPop)).map .item ++
      List.replicate (ops.countP Op.isPop - s.queue.queue.length) .drained := by
  induction ops generalizing s with
  | nil => simp [popResults]
  | cons op ops ih =>
    cases op with
    | push x =>
      have same : s.push x = s := by
        rw [push, push_of_closed shut]
        rfl
      have skip : (Op.push x :: ops).countP Op.isPop = ops.countP Op.isPop := rfl
      rw [popResults, same, ih shut, skip]
    | pop =>
      have count : (Op.pop :: ops).countP Op.isPop = ops.countP Op.isPop + 1 := by
        simp [List.countP_cons, Op.isPop]
      have after : s.pop.queue.closed = true := (pop_frame s.queue).2.2.1.trans shut
      have rest := ih after
      rw [popResults, count]
      have spec := pop_spec s.queue
      unfold pop at rest ⊢
      generalize s.queue.pop = result at spec rest ⊢
      cases spec with
      | waits opened => rw [shut] at opened; contradiction
      | drained _ content =>
        simp only [content, List.take_nil, List.map_nil, List.nil_append, List.length_nil,
          Nat.sub_zero] at rest ⊢
        rw [rest, List.replicate_succ]
      | item x rest' content =>
        simp only [content, List.take_succ_cons, List.map_cons, List.length_cons,
          Nat.add_sub_add_right, List.cons_append] at rest ⊢
        rw [rest]
    | close => exact ih (s := s.close) rfl

theorem run_closed (s : Traced α) (ops : List (Op α)) :
    (s.run ops).queue.closed = true ↔ s.queue.closed = true ∨ .close ∈ ops := by
  induction ops generalizing s with
  | nil => simp [run]
  | cons op ops ih =>
    have later : (s.run (op :: ops)).queue.closed = true ↔
        (s.step op).queue.closed = true ∨ .close ∈ ops := ih (s.step op)
    rw [later, List.mem_cons]
    cases op with
    | push x =>
      have same : (s.step (.push x)).queue.closed = s.queue.closed := (push_frame s.queue x).2.2
      simp [same]
    | pop =>
      have same : (s.step .pop).queue.closed = s.queue.closed := (pop_frame s.queue).2.2.1
      simp [same]
    | close =>
      have shut : (s.step .close).queue.closed = true := rfl
      simp [shut]

theorem push_closed_iff (q : BoundedQueue α) (x : α) :
    (q.push x).2 = .closed ↔ q.closed = true := by
  constructor
  · intro refused
    have spec := push_spec q x
    generalize q.push x = result at spec refused
    cases spec with
    | closed shut => exact shut
    | _ => cases refused
  · intro shut
    rw [push_of_closed shut]

theorem push_refused {q : BoundedQueue α} {x : α}
    (refused : (q.push x).2 = .waits ∨ (q.push x).2 = .full) : q.size = q.capacity := by
  have spec := push_spec q x
  generalize q.push x = result at spec refused
  cases spec with
  | waits _ _ full => exact full
  | full _ _ full => exact full
  | _ => rcases refused with none | none <;> cases none

/-- The history law of a queue, for the interleaving `ops` of critical sections. -/
structure Conserves (first : Traced α) (ops : List (Op α)) : Prop where
  bounded : (first.run ops).queue.size ≤ first.queue.capacity
  /-- Returned items and the content are the accepted items less the evicted ones. -/
  conserved : (first.run ops).history.returned ++ (first.run ops).queue.queue =
    without (first.run ops).history.evicted (first.run ops).history.accepted
  counted : (first.run ops).queue.droppedCount = owed first.queue.policy (first.run ops).history
  spared : first.queue.policy ≠ .dropOldest → (first.run ops).history.evicted = []
  /-- A push that evicts takes the oldest item present. -/
  oldest : ∀ pre x post y, ops = pre ++ .push x :: post →
    ((first.run pre).queue.push x).2 = .accepted (some y) →
    first.queue.policy = .dropOldest ∧ (first.run pre).queue.queue.head? = some y ∧
    (first.run pre).history.accepted[(first.run pre).history.ledger.next]? = some y ∧
    ((first.run pre).push x).history.evicted =
      (first.run pre).history.evicted ++ [(first.run pre).history.ledger.next]
  /-- An open queue keeps back or refuses an item only where it is full. -/
  answers : ∀ pre x post, ops = pre ++ .push x :: post →
    (((first.run pre).queue.push x).2 = .closed ↔ .close ∈ pre) ∧
    (((first.run pre).queue.push x).2 = .waits ∨ ((first.run pre).queue.push x).2 = .full →
      (first.run pre).queue.size = first.queue.capacity)
  refuses : ∀ pre post, ops = pre ++ .close :: post →
    ∀ r ∈ (first.run pre).close.pushResults post, r = .closed
  /-- A closed queue hands out its content before it fails. -/
  drains : ∀ pre post, ops = pre ++ .close :: post →
    (first.run pre).close.popResults post =
      ((first.run pre).queue.queue.take (post.countP Op.isPop)).map .item ++
        List.replicate (post.countP Op.isPop - (first.run pre).queue.size) .drained

/-- The history law holds for every capacity, every policy and every interleaving. -/
theorem conservation (capacity : ℕ) (positive : 0 < capacity) (policy : OverflowPolicy)
    (ops : List (Op α)) : Conserves (start capacity policy positive) ops := by
  have lawful := run_lawful (start_lawful (α := α) capacity policy positive)
  have frame := run_frame (start (α := α) capacity policy positive)
  constructor
  · have bound := ((start capacity policy positive).run ops).queue.size_le
    rw [(frame ops).1] at bound
    exact bound
  · exact (lawful ops).holds.conserved
  · have counted := (lawful ops).counted
    rw [(frame ops).2] at counted
    exact counted
  · have spared := (lawful ops).spared
    rw [(frame ops).2] at spared
    exact spared
  · intro pre x post y _ evicts
    have oldest := push_evicts_oldest (lawful pre) x y evicts
    rw [(frame pre).2] at oldest
    exact oldest
  · intro pre x post _
    rw [push_closed_iff, run_closed]
    refine ⟨by simp [start, empty], ?_⟩
    intro refused
    exact (push_refused refused).trans (frame pre).1
  · intro pre post _
    exact pushResults_of_closed rfl post
  · intro pre post _
    exact popResults_of_closed rfl post

theorem conservation_two_slots :
    Conserves (start 2 .dropOldest (by decide))
      [.push 'a', .push 'b', .push 'c', .pop, .close, .push 'd', .pop, .pop] :=
  conservation 2 (by decide) .dropOldest _

end Traced

end VisionLab.BoundedQueue
