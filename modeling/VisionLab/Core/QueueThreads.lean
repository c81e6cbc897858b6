import VisionLab.Core.QueueHistory
import VisionLab.Lib.ThreadCount

/-! The threads inside `push`, `pop` and `close`: a mutex, the two condition variables and one
phase per thread. Locking with the check of the wait predicate, going to sleep, locking again,
the body with the unlock, and the `notify_one` after it are steps of their own, so any other
thread may act between two of them. -/
namespace VisionLab.BoundedQueue
open Threads

/-- Where a thread stands. `Ready` and `MustWait` hold the mutex with the predicate checked,
`Blocked` sleeps un-notified, `Awake` has been woken and has not locked again; `pushInserted` and
`popRemoved` have unlocked and still owe their `notify_one`. -/
inductive Phase (α : Type) where
  | idle
  | pushReady (x : α) | pushMustWait (x : α) | pushBlocked (x : α) | pushAwake (x : α)
  | pushInserted
  | popReady | popMustWait | popBlocked | popAwake | popRemoved
  | closing
  deriving DecidableEq, Repr

structure Monitor (ι α : Type) where
  queue : BoundedQueue α
  holder : Option ι
  phase : ι → Phase α

namespace Monitor

variable {ι α : Type} [DecidableEq ι]

def start (queue : BoundedQueue α) : Monitor ι α := ⟨queue, none, fun _ => .idle⟩

def goto (s : Monitor ι α) (i : ι) (p : Phase α) : Monitor ι α :=
  { s with phase := Function.update s.phase i p }

theorem goto_of_ne (s : Monitor ι α) {i j : ι} (p : Phase α) (apart : j ≠ i) :
    (s.goto i p).phase j = s.phase j := by
  change Function.update s.phase i p j = s.phase j
  rw [Function.update_of_ne apart]

@[simp] theorem goto_self (s : Monitor ι α) (i : ι) (p : Phase α) : (s.goto i p).phase i = p := by
  change Function.update s.phase i p i = p
  rw [Function.update_self]

def enterPush (s : Monitor ι α) (i : ι) (x : α) : Monitor ι α :=
  { s.goto i (if s.queue.pushMustWait then .pushMustWait x else .pushReady x) with
    holder := some i }

def enterPop (s : Monitor ι α) (i : ι) : Monitor ι α :=
  { s.goto i (if s.queue.notEmpty then .popReady else .popMustWait) with holder := some i }

def afterPush : PushResult α → Phase α
  | .accepted _ => .pushInserted
  | .waits | .closed | .full => .idle

def afterPop : PopResult α → Phase α
  | .item _ => .popRemoved
  | .waits | .drained => .idle

def wake : Phase α → Phase α
  | .pushBlocked x => .pushAwake x
  | .popBlocked => .popAwake
  | p => p

inductive Step : Monitor ι α → Monitor ι α → Prop where
  | lockPush {s} (i : ι) (x : α) (free : s.holder = none) (at_ : s.phase i = .idle) :
      Step s (s.enterPush i x)
  | relockPush {s} (i : ι) (x : α) (free : s.holder = none) (at_ : s.phase i = .pushAwake x) :
      Step s (s.enterPush i x)
  | waitPush {s} (i : ι) (x : α) (at_ : s.phase i = .pushMustWait x) :
      Step s { s.goto i (.pushBlocked x) with holder := none }
  | bodyPush {s} (i : ι) (x : α) (at_ : s.phase i = .pushReady x) :
      Step s { s.goto i (afterPush (s.queue.pushLocked x).2) with
        queue := (s.queue.pushLocked x).1, holder := none }
  | notifyPush {s} (i j : ι) (at_ : s.phase i = .pushInserted) (sleeps : s.phase j = .popBlocked) :
      Step s ((s.goto i .idle).goto j .popAwake)
  | notifyPushNone {s} (i : ι) (at_ : s.phase i = .pushInserted)
      (nobody : ∀ j, s.phase j ≠ .popBlocked) : Step s (s.goto i .idle)
  | spuriousPush {s} (i : ι) (x : α) (sleeps : s.phase i = .pushBlocked x) :
      Step s (s.goto i (.pushAwake x))
  | lockPop {s} (i : ι) (free : s.holder = none) (at_ : s.phase i = .idle) :
      Step s (s.enterPop i)
  | relockPop {s} (i : ι) (free : s.holder = none) (at_ : s.phase i = .popAwake) :
      Step s (s.enterPop i)
  | waitPop {s} (i : ι) (at_ : s.phase i = .popMustWait) :
      Step s { s.goto i .popBlocked with holder := none }
  | bodyPop {s} (i : ι) (at_ : s.phase i = .popReady) :
      Step s { s.goto i (afterPop s.queue.popLocked.2) with
        queue := s.queue.popLocked.1, holder := none }
  | notifyPop {s} (i j : ι) (x : α) (at_ : s.phase i = .popRemoved)
      (sleeps : s.phase j = .pushBlocked x) : Step s ((s.goto i .idle).goto j (.pushAwake x))
  | notifyPopNone {s} (i : ι) (at_ : s.phase i = .popRemoved)
      (nobody : ∀ j x, s.phase j ≠ .pushBlocked x) : Step s (s.goto i .idle)
  | spuriousPop {s} (i : ι) (sleeps : s.phase i = .popBlocked) : Step s (s.goto i .popAwake)
  | lockClose {s} (i : ι) (free : s.holder = none) (at_ : s.phase i = .idle) :
      Step s { s.goto i .closing with holder := some i }
  | closedBefore {s} (i : ι) (at_ : s.phase i = .closing) (shut : s.queue.closed = true) :
      Step s { s.goto i .idle with holder := none }
  | bodyClose {s} (i : ι) (at_ : s.phase i = .closing) (opened : s.queue.closed = false) :
      Step s ⟨s.queue.close, none, fun j => wake ((s.goto i .idle).phase j)⟩

inductive Reachable (queue : BoundedQueue α) : Monitor ι α → Prop where
  | start : Reachable queue (start queue)
  | next {s t} : Reachable queue s → Step s t → Reachable queue t

/- The counted phases. A thread attends to the consumers when it is awake in `pop`, inside the
critical section of `pop` with the predicate true, or owes the notification after an insertion. -/

def blockedPop : Phase α → Bool | .popBlocked => true | _ => false
def awakePop : Phase α → Bool | .popAwake => true | _ => false
def readyPop : Phase α → Bool | .popReady => true | _ => false
def inserted : Phase α → Bool | .pushInserted => true | _ => false
def attendsPop : Phase α → Bool | .popAwake | .popReady | .pushInserted => true | _ => false
def blockedPush : Phase α → Bool | .pushBlocked _ => true | _ => false
def awakePush : Phase α → Bool | .pushAwake _ => true | _ => false
def readyPush : Phase α → Bool | .pushReady _ => true | _ => false
def removed : Phase α → Bool | .popRemoved => true | _ => false
def attendsPush : Phase α → Bool | .pushAwake _ | .pushReady _ | .popRemoved => true | _ => false

/-- What the phase of one thread says about the mutex and the queue. -/
def Stands (queue : BoundedQueue α) (holder : Option ι) (i : ι) : Phase α → Prop
  | .pushReady _ => holder = some i ∧ queue.pushMustWait = false
  | .pushMustWait _ => holder = some i ∧ queue.pushMustWait = true
  | .popReady => holder = some i ∧ queue.notEmpty = true
  | .popMustWait => holder = some i ∧ queue.notEmpty = false
  | .closing => holder = some i
  | .pushBlocked _ => holder ≠ some i ∧ queue.policy = .blockProducer
  | .idle | .pushAwake _ | .pushInserted | .popBlocked | .popAwake | .popRemoved =>
    holder ≠ some i

/- A thread without the mutex stands as it did through any step of another thread. -/
omit [DecidableEq ι] in
theorem stands_aside {q r : BoundedQueue α} {h k : Option ι} {i : ι} {p : Phase α}
    (old : Stands q h i p) (outside : h ≠ some i) (after : k ≠ some i)
    (policy : r.policy = q.policy) : Stands r k i p := by
  cases p with
  | pushReady => exact absurd old.1 outside
  | pushMustWait => exact absurd old.1 outside
  | popReady => exact absurd old.1 outside
  | popMustWait => exact absurd old.1 outside
  | closing => exact absurd old outside
  | pushBlocked => exact ⟨after, policy.trans old.2⟩
  | idle => exact after
  | pushAwake => exact after
  | pushInserted => exact after
  | popBlocked => exact after
  | popAwake => exact after
  | popRemoved => exact after

omit [DecidableEq ι] in
theorem stands_unlocked (queue : BoundedQueue α) (i : ι) : Stands queue none i .idle := by
  intro held
  cases held

omit [DecidableEq ι] in
theorem stands_afterPush (queue : BoundedQueue α) (i : ι) (r : PushResult α) :
    Stands queue none i (afterPush r) := by
  cases r <;> (intro held; cases held)

omit [DecidableEq ι] in
theorem stands_afterPop (queue : BoundedQueue α) (i : ι) (r : PopResult α) :
    Stands queue none i (afterPop r) := by
  cases r <;> (intro held; cases held)

omit [DecidableEq ι] in
theorem stands_wake {q r : BoundedQueue α} {h : Option ι} {i : ι} {p : Phase α}
    (old : Stands q h i p) (outside : h ≠ some i) : Stands r none i (wake p) := by
  cases p with
  | pushReady => exact absurd old.1 outside
  | pushMustWait => exact absurd old.1 outside
  | popReady => exact absurd old.1 outside
  | popMustWait => exact absurd old.1 outside
  | closing => exact absurd old outside
  | _ =>
    intro held
    cases held

/- A step that takes, keeps or gives back the mutex. -/
theorem stands_lock {s t : Monitor ι α} {i : ι} {p : Phase α}
    (h : ∀ j, Stands s.queue s.holder j (s.phase j))
    (moved : t.phase = Function.update s.phase i p)
    (before : ∀ j, j ≠ i → s.holder ≠ some j) (after : ∀ j, j ≠ i → t.holder ≠ some j)
    (policy : t.queue.policy = s.queue.policy) (mine : Stands t.queue t.holder i p) :
    ∀ j, Stands t.queue t.holder j (t.phase j) := by
  intro j
  rw [moved]
  by_cases same : j = i
  · subst same
    rw [Function.update_self]
    exact mine
  · rw [Function.update_of_ne same]
    exact stands_aside (h j) (before j same) (after j same) policy

/- A step outside the mutex leaves the holder and the queue alone. -/
theorem stands_free {s t : Monitor ι α} {i : ι} {p : Phase α}
    (h : ∀ j, Stands s.queue s.holder j (s.phase j))
    (moved : t.phase = Function.update s.phase i p) (queue : t.queue = s.queue)
    (holder : t.holder = s.holder) (mine : Stands s.queue s.holder i p) :
    ∀ j, Stands t.queue t.holder j (t.phase j) := by
  intro j
  rw [moved, queue, holder]
  by_cases same : j = i
  · subst same
    rw [Function.update_self]
    exact mine
  · rw [Function.update_of_ne same]
    exact h j

omit [DecidableEq ι] in
theorem others_of_holder {h : Option ι} {i : ι} (mine : h = some i) :
    ∀ j, j ≠ i → h ≠ some j := by
  rintro j different rfl
  exact different (Option.some.inj mine)

omit [DecidableEq ι] in
theorem others_of_free {h : Option ι} {i : ι} (free : h = none) :
    ∀ j, j ≠ i → h ≠ some j := by
  rintro j _ rfl
  contradiction

variable [Fintype ι]

def number (s : Monitor ι α) (p : Phase α → Bool) : ℕ := count p s.phase

/-- While a thread sleeps in `pop`, every item has a thread attending to it. -/
def ConsumersCovered (s : Monitor ι α) : Prop :=
  Covered (s.number blockedPop) (s.number attendsPop) s.queue.size s.queue.closed

/-- The same for the free places while a thread sleeps in `push`. -/
def ProducersCovered (s : Monitor ι α) : Prop :=
  Covered (s.number blockedPush) (s.number attendsPush) (s.queue.capacity - s.queue.size)
    s.queue.closed

structure Inv (s : Monitor ι α) : Prop where
  stands : ∀ i, Stands s.queue s.holder i (s.phase i)
  consumers : ConsumersCovered s
  producers : ProducersCovered s

/-- One thread moves from `old` to `new`. -/
theorem tally {s t : Monitor ι α} {i : ι} {old new : Phase α} (at_ : s.phase i = old)
    (moved : t.phase = Function.update s.phase i new) (p : Phase α → Bool) :
    t.number p + (p old).toNat = s.number p + (p new).toNat := by
  have balance := count_update p s.phase i new
  rw [at_] at balance
  rw [number, moved]
  exact balance

theorem tally_two {s : Monitor ι α} {i j : ι} {old₁ old₂ : Phase α} (apart : j ≠ i)
    (first : s.phase i = old₁) (second : s.phase j = old₂) (new₁ new₂ : Phase α)
    (p : Phase α → Bool) :
    ((s.goto i new₁).goto j new₂).number p + ((p old₁).toNat + (p old₂).toNat) =
      s.number p + ((p new₁).toNat + (p new₂).toNat) := by
  have still : (s.goto i new₁).phase j = old₂ := by rw [goto_of_ne s _ apart, second]
  have one := tally first (t := s.goto i new₁) rfl p
  have two := tally still (t := (s.goto i new₁).goto j new₂) rfl p
  omega

/- How the laws survive a step, and where they hold for want of a sleeper or of a supply. -/

theorem consumers_move {s t : Monitor ι α} {i : ι} {old new : Phase α}
    (h : ConsumersCovered s) (at_ : s.phase i = old)
    (moved : t.phase = Function.update s.phase i new) (closed : t.queue.closed = s.queue.closed)
    (fewer : (blockedPop new).toNat ≤ (blockedPop old).toNat)
    (balance : t.queue.size + (attendsPop old).toNat ≤ s.queue.size + (attendsPop new).toNat) :
    ConsumersCovered t := by
  have sleepers := tally at_ moved blockedPop
  have attending := tally at_ moved attendsPop
  unfold ConsumersCovered
  rw [closed]
  exact Covered.mono h (by omega) (by omega)

theorem producers_move {s t : Monitor ι α} {i : ι} {old new : Phase α}
    (h : ProducersCovered s) (at_ : s.phase i = old)
    (moved : t.phase = Function.update s.phase i new) (closed : t.queue.closed = s.queue.closed)
    (fewer : (blockedPush new).toNat ≤ (blockedPush old).toNat)
    (balance : t.queue.capacity - t.queue.size + (attendsPush old).toNat ≤
      s.queue.capacity - s.queue.size + (attendsPush new).toNat) :
    ProducersCovered t := by
  have sleepers := tally at_ moved blockedPush
  have attending := tally at_ moved attendsPush
  unfold ProducersCovered
  rw [closed]
  exact Covered.mono h (by omega) (by omega)

theorem consumers_nobody {s t : Monitor ι α} {i : ι} {old new : Phase α}
    (nobody : s.number blockedPop = 0) (at_ : s.phase i = old)
    (moved : t.phase = Function.update s.phase i new) (awake : blockedPop new = false) :
    ConsumersCovered t := by
  have sleepers := tally at_ moved blockedPop
  rw [awake, Bool.toNat_false] at sleepers
  have none_now : t.number blockedPop = 0 := by omega
  rw [ConsumersCovered, none_now]
  exact covered_nobody _ _ _

theorem producers_nobody {s t : Monitor ι α} {i : ι} {old new : Phase α}
    (nobody : s.number blockedPush = 0) (at_ : s.phase i = old)
    (moved : t.phase = Function.update s.phase i new) (awake : blockedPush new = false) :
    ProducersCovered t := by
  have sleepers := tally at_ moved blockedPush
  rw [awake, Bool.toNat_false] at sleepers
  have none_now : t.number blockedPush = 0 := by omega
  rw [ProducersCovered, none_now]
  exact covered_nobody _ _ _

omit [DecidableEq ι] in
theorem consumers_nothing {s : Monitor ι α} (opened : s.queue.closed = false)
    (content : s.queue.queue = []) : ConsumersCovered s := by
  rw [ConsumersCovered, size, content, opened]
  exact covered_nothing _ _

omit [DecidableEq ι] in
theorem producers_nothing {s : Monitor ι α} (opened : s.queue.closed = false)
    (full : s.queue.queue.length = s.queue.capacity) : ProducersCovered s := by
  rw [ProducersCovered, size, full, Nat.sub_self, opened]
  exact covered_nothing _ _

omit [DecidableEq ι] in
theorem start_inv (queue : BoundedQueue α) : Inv (start (ι := ι) queue) := by
  have nobody : ∀ p : Phase α → Bool, p .idle = false → (start (ι := ι) queue).number p = 0 :=
    fun p none => count_eq_zero p _ (fun _ => none)
  constructor
  · intro i held
    cases held
  · rw [ConsumersCovered, nobody blockedPop rfl]
    exact covered_nobody _ _ _
  · rw [ProducersCovered, nobody blockedPush rfl]
    exact covered_nobody _ _ _

theorem enterPush_inv {s : Monitor ι α} (h : Inv s) (i : ι) (x : α) (free : s.holder = none)
    {old : Phase α} (at_ : s.phase i = old) (outside : old = .idle ∨ old = .pushAwake x) :
    Inv (s.enterPush i x) := by
  have sleeps : (attendsPop old).toNat = 0 := by
    rcases outside with rfl | rfl <;> rfl
  unfold enterPush
  cases wait : s.queue.pushMustWait with
  | true =>
    obtain ⟨-, opened, full⟩ := (pushMustWait_iff s.queue).mp wait
    constructor
    · exact stands_lock h.stands rfl (others_of_free free) (others_of_holder rfl) rfl ⟨rfl, wait⟩
    · exact consumers_move h.consumers at_ rfl rfl (Nat.zero_le _) (by rw [sleeps]; exact le_rfl)
    · exact producers_nothing opened full
  | false =>
    constructor
    · exact stands_lock h.stands rfl (others_of_free free) (others_of_holder rfl) rfl ⟨rfl, wait⟩
    · exact consumers_move h.consumers at_ rfl rfl (Nat.zero_le _) (by rw [sleeps]; exact le_rfl)
    · refine producers_move h.producers at_ rfl rfl (Nat.zero_le _) ?_
      exact Nat.add_le_add_left (Bool.toNat_le _) _

theorem enterPop_inv {s : Monitor ι α} (h : Inv s) (i : ι) (free : s.holder = none)
    {old : Phase α} (at_ : s.phase i = old) (outside : old = .idle ∨ old = .popAwake) :
    Inv (s.enterPop i) := by
  have sleeps : (attendsPush old).toNat = 0 := by
    rcases outside with rfl | rfl <;> rfl
  unfold enterPop
  cases go : s.queue.notEmpty with
  | true =>
    constructor
    · exact stands_lock h.stands rfl (others_of_free free) (others_of_holder rfl) rfl ⟨rfl, go⟩
    · refine consumers_move h.consumers at_ rfl rfl (Nat.zero_le _) ?_
      exact Nat.add_le_add_left (Bool.toNat_le _) _
    · exact producers_move h.producers at_ rfl rfl (Nat.zero_le _) (by rw [sleeps]; exact le_rfl)
  | false =>
    have stuck : s.queue.closed = false ∧ s.queue.queue = [] := by
      have := mt (notEmpty_iff s.queue).mpr (by simp [go])
      simpa using this
    constructor
    · exact stands_lock h.stands rfl (others_of_free free) (others_of_holder rfl) rfl ⟨rfl, go⟩
    · exact consumers_nothing stuck.1 stuck.2
    · exact producers_move h.producers at_ rfl rfl (Nat.zero_le _) (by rw [sleeps]; exact le_rfl)

omit [DecidableEq ι] in
theorem no_sleeping_producer {s : Monitor ι α} (h : Inv s)
    (policy : s.queue.policy ≠ .blockProducer) : s.number blockedPush = 0 := by
  apply count_eq_zero
  intro j
  have stands := h.stands j
  cases phase : s.phase j with
  | pushBlocked x =>
    rw [phase] at stands
    exact absurd stands.2 policy
  | _ => rfl

theorem bodyPush_inv {s : Monitor ι α} (h : Inv s) (i : ι) (x : α)
    (at_ : s.phase i = .pushReady x) :
    Inv { s.goto i (afterPush (s.queue.pushLocked x).2) with
      queue := (s.queue.pushLocked x).1, holder := none } := by
  have mine := h.stands i
  rw [at_] at mine
  obtain ⟨held, go⟩ := mine
  have others := others_of_holder held
  have spec := pushLocked_spec s.queue x go
  generalize s.queue.pushLocked x = result at spec ⊢
  cases spec with
  | waits blocking opened full =>
    have wait := (pushMustWait_iff s.queue).mpr ⟨blocking, opened, full⟩
    rw [go] at wait
    contradiction
  | closed shut =>
    constructor
    · exact stands_lock h.stands rfl others (others_of_free rfl) rfl
        (stands_afterPush _ i _)
    · exact consumers_move h.consumers at_ rfl rfl (Nat.le_refl _) (Nat.le_refl _)
    · have sleepers := tally at_ (t := { s.goto i .idle with holder := none }) rfl blockedPush
      have old := h.producers
      unfold ProducersCovered at old ⊢
      change Covered _ _ _ s.queue.closed
      rw [shut] at old ⊢
      exact old.of_shut (Nat.le_of_eq sleepers)
  | full newest =>
    constructor
    · exact stands_lock h.stands rfl others (others_of_free rfl) rfl
        (stands_afterPush _ i _)
    · exact consumers_move h.consumers at_ rfl rfl (Nat.le_refl _) (Nat.le_refl _)
    · exact producers_nobody (no_sleeping_producer h (by simp [newest])) at_ rfl rfl
  | evicts front rest oldest opened content =>
    constructor
    · exact stands_lock h.stands rfl others (others_of_free rfl) rfl
        (stands_afterPush _ i _)
    · refine consumers_move h.consumers at_ rfl rfl (Nat.le_refl _) ?_
      simp [size, content, afterPush, attendsPop]
    · exact producers_nobody (no_sleeping_producer h (by simp [oldest])) at_ rfl rfl
  | appends opened room =>
    constructor
    · exact stands_lock h.stands rfl others (others_of_free rfl) rfl
        (stands_afterPush _ i _)
    · refine consumers_move h.consumers at_ rfl rfl (Nat.le_refl _) ?_
      simp [size, afterPush, attendsPop]
    · refine producers_move h.producers at_ rfl rfl (Nat.le_refl _) ?_
      simp only [size, List.length_append, List.length_singleton, afterPush, attendsPush,
        Bool.toNat_true, Bool.toNat_false]
      omega

theorem bodyPop_inv {s : Monitor ι α} (h : Inv s) (i : ι) (at_ : s.phase i = .popReady) :
    Inv { s.goto i (afterPop s.queue.popLocked.2) with
      queue := s.queue.popLocked.1, holder := none } := by
  have mine := h.stands i
  rw [at_] at mine
  obtain ⟨held, go⟩ := mine
  have others := others_of_holder held
  have spec := popLocked_spec s.queue go
  generalize s.queue.popLocked = result at spec ⊢
  cases spec with
  | waits opened content =>
    have stuck := (notEmpty_iff s.queue).mp go
    simp [opened, content] at stuck
  | drained shut content =>
    constructor
    · exact stands_lock h.stands rfl others (others_of_free rfl) rfl
        (stands_afterPop _ i _)
    · have sleepers := tally at_ (t := { s.goto i .idle with holder := none }) rfl blockedPop
      have old := h.consumers
      unfold ConsumersCovered at old ⊢
      change Covered _ _ _ s.queue.closed
      rw [shut] at old ⊢
      exact old.of_shut (Nat.le_of_eq sleepers)
    · exact producers_move h.producers at_ rfl rfl (Nat.le_refl _) (Nat.le_refl _)
  | item x rest content bound =>
    have before : s.queue.size = rest.length + 1 := by rw [size, content, List.length_cons]
    constructor
    · exact stands_lock h.stands rfl others (others_of_free rfl) rfl
        (stands_afterPop _ i _)
    · refine consumers_move h.consumers at_ rfl rfl (Nat.le_refl _) ?_
      rw [before]
      exact Nat.le_refl _
    · refine producers_move h.producers at_ rfl rfl (Nat.le_refl _) ?_
      rw [before]
      simp only [size, afterPop, attendsPush, Bool.toNat_true, Bool.toNat_false]
      omega

/-- `notify_one` hands its caller's attention to the thread it wakes. -/
theorem notifyPush_inv {s : Monitor ι α} (h : Inv s) (i j : ι) (at_ : s.phase i = .pushInserted)
    (sleeps : s.phase j = .popBlocked) : Inv ((s.goto i .idle).goto j .popAwake) := by
  have apart : j ≠ i := by
    rintro rfl
    rw [at_] at sleeps
    contradiction
  have still : (s.goto i .idle).phase j = .popBlocked := by
    rw [goto_of_ne s _ apart, sleeps]
  have mine := h.stands i
  rw [at_] at mine
  have theirs := h.stands j
  rw [sleeps] at theirs
  constructor
  · have middle := stands_free (t := s.goto i .idle) h.stands rfl rfl rfl mine
    exact stands_free middle rfl rfl rfl theirs
  · have sleepers := tally_two apart at_ sleeps .idle .popAwake blockedPop
    have attending := tally_two apart at_ sleeps .idle .popAwake attendsPop
    simp only [blockedPop, attendsPop, Bool.toNat_true, Bool.toNat_false] at sleepers attending
    refine Covered.mono h.consumers (by omega) ?_
    change s.queue.size + _ ≤ s.queue.size + _
    omega
  · have middle := producers_move h.producers at_ (t := s.goto i .idle) rfl rfl (Nat.le_refl _)
      (Nat.le_refl _)
    exact producers_move middle still rfl rfl (Nat.le_refl _) (Nat.le_refl _)

theorem notifyPop_inv {s : Monitor ι α} (h : Inv s) (i j : ι) (x : α)
    (at_ : s.phase i = .popRemoved) (sleeps : s.phase j = .pushBlocked x) :
    Inv ((s.goto i .idle).goto j (.pushAwake x)) := by
  have apart : j ≠ i := by
    rintro rfl
    rw [at_] at sleeps
    contradiction
  have still : (s.goto i .idle).phase j = .pushBlocked x := by
    rw [goto_of_ne s _ apart, sleeps]
  have mine := h.stands i
  rw [at_] at mine
  have theirs := h.stands j
  rw [sleeps] at theirs
  constructor
  · have middle := stands_free (t := s.goto i .idle) h.stands rfl rfl rfl mine
    exact stands_free (p := .pushAwake x) middle rfl rfl rfl theirs.1
  · have middle := consumers_move h.consumers at_ (t := s.goto i .idle) rfl rfl (Nat.le_refl _)
      (Nat.le_refl _)
    exact consumers_move middle still rfl rfl (Nat.le_refl _) (Nat.le_refl _)
  · have sleepers := tally_two apart at_ sleeps .idle (.pushAwake x) blockedPush
    have attending := tally_two apart at_ sleeps .idle (.pushAwake x) attendsPush
    simp only [blockedPush, attendsPush, Bool.toNat_true, Bool.toNat_false] at sleepers attending
    refine Covered.mono h.producers (by omega) ?_
    change s.queue.capacity - s.queue.size + _ ≤ s.queue.capacity - s.queue.size + _
    omega

theorem notifyPushNone_inv {s : Monitor ι α} (h : Inv s) (i : ι)
    (at_ : s.phase i = .pushInserted) (nobody : ∀ j, s.phase j ≠ .popBlocked) :
    Inv (s.goto i .idle) := by
  have mine := h.stands i
  rw [at_] at mine
  have asleep : s.number blockedPop = 0 := by
    apply count_eq_zero
    intro j
    cases phase : s.phase j with
    | popBlocked => exact absurd phase (nobody j)
    | _ => rfl
  constructor
  · exact stands_free h.stands rfl rfl rfl mine
  · exact consumers_nobody asleep at_ rfl rfl
  · exact producers_move h.producers at_ rfl rfl (Nat.le_refl _) (Nat.le_refl _)

theorem notifyPopNone_inv {s : Monitor ι α} (h : Inv s) (i : ι) (at_ : s.phase i = .popRemoved)
    (nobody : ∀ j x, s.phase j ≠ .pushBlocked x) : Inv (s.goto i .idle) := by
  have mine := h.stands i
  rw [at_] at mine
  have asleep : s.number blockedPush = 0 := by
    apply count_eq_zero
    intro j
    cases phase : s.phase j with
    | pushBlocked x => exact absurd phase (nobody j x)
    | _ => rfl
  constructor
  · exact stands_free h.stands rfl rfl rfl mine
  · exact consumers_move h.consumers at_ rfl rfl (Nat.le_refl _) (Nat.le_refl _)
  · exact producers_nobody asleep at_ rfl rfl

/-- After `notify_all` nobody sleeps, and nobody who stood elsewhere has moved. -/
theorem bodyClose_inv {s : Monitor ι α} (h : Inv s) (i : ι) (at_ : s.phase i = .closing) :
    Inv ⟨s.queue.close, none, fun j => wake ((s.goto i .idle).phase j)⟩ := by
  have held := h.stands i
  rw [at_] at held
  have others := others_of_holder held
  have awake : ∀ p : Phase α, blockedPop (wake p) = false ∧ blockedPush (wake p) = false := by
    intro p
    cases p <;> exact ⟨rfl, rfl⟩
  constructor
  · intro j
    by_cases same : j = i
    · subst same
      simp only [goto_self]
      exact stands_unlocked _ j
    · simp only [goto_of_ne s _ same]
      exact stands_wake (h.stands j) (others j same)
  · rw [ConsumersCovered, number, count_eq_zero blockedPop _ (fun j => (awake _).1)]
    exact covered_nobody _ _ _
  · rw [ProducersCovered, number, count_eq_zero blockedPush _ (fun j => (awake _).2)]
    exact covered_nobody _ _ _

theorem waitPush_inv {s : Monitor ι α} (h : Inv s) (i : ι) (x : α)
    (at_ : s.phase i = .pushMustWait x) :
    Inv { s.goto i (.pushBlocked x) with holder := none } := by
  have mine := h.stands i
  rw [at_] at mine
  obtain ⟨held, wait⟩ := mine
  obtain ⟨blocking, opened, full⟩ := (pushMustWait_iff s.queue).mp wait
  constructor
  · exact stands_lock h.stands rfl (others_of_holder held) (others_of_free rfl) rfl
      ⟨(Option.some_ne_none i).symm, blocking⟩
  · exact consumers_move h.consumers at_ rfl rfl (Nat.le_refl _) (Nat.le_refl _)
  · exact producers_nothing opened full

theorem waitPop_inv {s : Monitor ι α} (h : Inv s) (i : ι) (at_ : s.phase i = .popMustWait) :
    Inv { s.goto i .popBlocked with holder := none } := by
  have mine := h.stands i
  rw [at_] at mine
  obtain ⟨held, go⟩ := mine
  have stuck : s.queue.closed = false ∧ s.queue.queue = [] := by
    have := mt (notEmpty_iff s.queue).mpr (by simp [go])
    simpa using this
  constructor
  · exact stands_lock (p := .popBlocked) h.stands rfl (others_of_holder held)
      (others_of_free rfl) rfl (Option.some_ne_none i).symm
  · exact consumers_nothing stuck.1 stuck.2
  · exact producers_move h.producers at_ rfl rfl (Nat.le_refl _) (Nat.le_refl _)

theorem step_inv {s t : Monitor ι α} (h : Inv s) (step : Step s t) : Inv t := by
  cases step with
  | lockPush i x free at_ => exact enterPush_inv h i x free at_ (Or.inl rfl)
  | relockPush i x free at_ => exact enterPush_inv h i x free at_ (Or.inr rfl)
  | waitPush i x at_ => exact waitPush_inv h i x at_
  | bodyPush i x at_ => exact bodyPush_inv h i x at_
  | notifyPush i j at_ sleeps => exact notifyPush_inv h i j at_ sleeps
  | notifyPushNone i at_ nobody => exact notifyPushNone_inv h i at_ nobody
  | spuriousPush i x sleeps =>
    have mine := h.stands i
    rw [sleeps] at mine
    constructor
    · exact stands_free (p := .pushAwake x) h.stands rfl rfl rfl mine.1
    · exact consumers_move h.consumers sleeps rfl rfl (Nat.le_refl _) (Nat.le_refl _)
    · exact producers_move h.producers sleeps rfl rfl (Nat.zero_le _) (Nat.le_succ _)
  | lockPop i free at_ => exact enterPop_inv h i free at_ (Or.inl rfl)
  | relockPop i free at_ => exact enterPop_inv h i free at_ (Or.inr rfl)
  | waitPop i at_ => exact waitPop_inv h i at_
  | bodyPop i at_ => exact bodyPop_inv h i at_
  | notifyPop i j x at_ sleeps => exact notifyPop_inv h i j x at_ sleeps
  | notifyPopNone i at_ nobody => exact notifyPopNone_inv h i at_ nobody
  | spuriousPop i sleeps =>
    have mine := h.stands i
    rw [sleeps] at mine
    constructor
    · exact stands_free (p := .popAwake) h.stands rfl rfl rfl mine
    · exact consumers_move h.consumers sleeps rfl rfl (Nat.zero_le _) (Nat.le_succ _)
    · exact producers_move h.producers sleeps rfl rfl (Nat.le_refl _) (Nat.le_refl _)
  | lockClose i free at_ =>
    constructor
    · exact stands_lock (p := .closing) h.stands rfl (others_of_free free)
        (others_of_holder rfl) rfl rfl
    · exact consumers_move h.consumers at_ rfl rfl (Nat.le_refl _) (Nat.le_refl _)
    · exact producers_move h.producers at_ rfl rfl (Nat.le_refl _) (Nat.le_refl _)
  | closedBefore i at_ shut =>
    have held := h.stands i
    rw [at_] at held
    constructor
    · exact stands_lock h.stands rfl (others_of_holder held) (others_of_free rfl) rfl
        (stands_unlocked _ i)
    · exact consumers_move h.consumers at_ rfl rfl (Nat.le_refl _) (Nat.le_refl _)
    · exact producers_move h.producers at_ rfl rfl (Nat.le_refl _) (Nat.le_refl _)
  | bodyClose i at_ opened => exact bodyClose_inv h i at_

theorem reachable_inv {queue : BoundedQueue α} {s : Monitor ι α} (h : Reachable queue s) :
    Inv s := by
  induction h with
  | start => exact start_inv queue
  | next _ step ih => exact step_inv ih step

omit [DecidableEq ι] in
theorem number_attendsPop (s : Monitor ι α) :
    s.number attendsPop = s.number awakePop + s.number readyPop + s.number inserted := by
  have inner := count_split awakePop readyPop (fun p => awakePop p || readyPop p)
    (fun p : Phase α => by cases p <;> rfl) s.phase
  have outer := count_split (fun p => awakePop p || readyPop p) inserted attendsPop
    (fun p : Phase α => by cases p <;> rfl) s.phase
  rw [number, outer, inner]
  rfl

omit [DecidableEq ι] in
theorem number_attendsPush (s : Monitor ι α) :
    s.number attendsPush = s.number awakePush + s.number readyPush + s.number removed := by
  have inner := count_split awakePush readyPush (fun p => awakePush p || readyPush p)
    (fun p : Phase α => by cases p <;> rfl) s.phase
  have outer := count_split (fun p => awakePush p || readyPush p) removed attendsPush
    (fun p : Phase α => by cases p <;> rfl) s.phase
  rw [number, outer, inner]
  rfl

omit [DecidableEq ι] in
theorem nobody_inside {s : Monitor ι α} (h : Inv s) (free : s.holder = none) :
    s.number readyPop = 0 ∧ s.number readyPush = 0 := by
  constructor
  · apply count_eq_zero
    intro j
    have stands := h.stands j
    cases phase : s.phase j with
    | popReady => rw [phase, free] at stands; cases stands.1
    | _ => rfl
  · apply count_eq_zero
    intro j
    have stands := h.stands j
    cases phase : s.phase j with
    | pushReady => rw [phase, free] at stands; cases stands.1
    | _ => rfl

omit [DecidableEq ι] in
theorem number_blockedPop_pos {s : Monitor ι α} (asleep : ∃ i, s.phase i = .popBlocked) :
    0 < s.number blockedPop := by
  obtain ⟨i, hi⟩ := asleep
  exact (count_pos_iff _ _).mpr ⟨i, by rw [hi]; rfl⟩

omit [DecidableEq ι] in
theorem number_blockedPush_pos {s : Monitor ι α} (asleep : ∃ i x, s.phase i = .pushBlocked x) :
    0 < s.number blockedPush := by
  obtain ⟨i, x, hi⟩ := asleep
  exact (count_pos_iff _ _).mpr ⟨i, by rw [hi]; rfl⟩

/- The machine refines the critical sections: a step changes the queue by one `push`, one `pop`
or one `close`, or not at all. -/

omit [Fintype ι] in
theorem step_section {s t : Monitor ι α} (stands : ∀ i, Stands s.queue s.holder i (s.phase i))
    (step : Step s t) : ∃ ops : List (Op α), ops.length ≤ 1 ∧
      t.queue = ((Traced.mk s.queue {}).run ops).queue := by
  cases step with
  | bodyPush i x at_ =>
    have mine := stands i
    rw [at_] at mine
    refine ⟨[.push x], Nat.le_refl _, ?_⟩
    change (s.queue.pushLocked x).1 = (s.queue.push x).1
    rw [push, if_neg (by simp [mine.2])]
  | bodyPop i at_ =>
    have mine := stands i
    rw [at_] at mine
    refine ⟨[.pop], Nat.le_refl _, ?_⟩
    change s.queue.popLocked.1 = s.queue.pop.1
    rw [pop, if_pos mine.2]
  | bodyClose => exact ⟨[.close], Nat.le_refl _, rfl⟩
  | _ => exact ⟨[], Nat.zero_le _, rfl⟩

theorem reachable_section {queue : BoundedQueue α} {s : Monitor ι α} (h : Reachable queue s) :
    ∃ ops : List (Op α), s.queue = ((Traced.mk queue {}).run ops).queue := by
  induction h with
  | start => exact ⟨[], rfl⟩
  | next before step ih =>
    obtain ⟨ops, here⟩ := ih
    obtain ⟨more, -, next⟩ := step_section (reachable_inv before).stands step
    refine ⟨ops ++ more, ?_⟩
    rw [Traced.run_append, next]
    exact Traced.run_queue here more

/-- No wakeup is lost. A thread that has locked again and passed its check counts until it has
changed the queue; with the mutex free there is no such thread and the two bounds are the plain
ones. Where a thread sleeps although it could go on, another one is on its way. And the queue is one
that some calls make, one after the other. -/
theorem no_lost_wakeup {queue : BoundedQueue α} {s : Monitor ι α} (h : Reachable queue s) :
    ((∃ i, s.phase i = .popBlocked) → s.queue.closed = false ∧
      s.queue.size ≤ s.number awakePop + s.number readyPop + s.number inserted) ∧
    ((∃ i x, s.phase i = .pushBlocked x) → s.queue.closed = false ∧
      s.queue.capacity - s.queue.size ≤
        s.number awakePush + s.number readyPush + s.number removed) ∧
    (s.holder = none → s.number readyPop = 0 ∧ s.number readyPush = 0) ∧
    ((∃ i, s.phase i = .popBlocked) → s.queue.notEmpty = true →
      ∃ j, attendsPop (s.phase j) = true) ∧
    ((∃ i x, s.phase i = .pushBlocked x) → s.queue.notFull = true →
      ∃ j, attendsPush (s.phase j) = true) ∧
    ∃ ops : List (Op α), s.queue = ((Traced.mk queue {}).run ops).queue := by
  have inv := reachable_inv h
  refine ⟨?_, ?_, nobody_inside inv, ?_, ?_, reachable_section h⟩
  · intro asleep
    rw [← number_attendsPop]
    exact inv.consumers (number_blockedPop_pos asleep)
  · intro asleep
    rw [← number_attendsPush]
    exact inv.producers (number_blockedPush_pos asleep)
  · intro asleep ready
    obtain ⟨opened, bound⟩ := inv.consumers (number_blockedPop_pos asleep)
    rcases (notEmpty_iff s.queue).mp ready with shut | present
    · rw [opened] at shut
      contradiction
    · apply (count_pos_iff _ _).mp
      exact Nat.lt_of_lt_of_le (List.length_pos_iff.mpr present) bound
  · intro asleep ready
    obtain ⟨opened, bound⟩ := inv.producers (number_blockedPush_pos asleep)
    rw [notFull, opened, Bool.false_or, decide_eq_true_eq] at ready
    apply (count_pos_iff _ _).mp
    exact Nat.lt_of_lt_of_le (Nat.sub_pos_of_lt ready) bound

def oneSlot : BoundedQueue ℕ := .empty 1 .dropOldest (by decide)

/-- Two consumers sleep, a push is notified, and the woken consumer has locked the mutex again. -/
theorem relocked : ∃ s : Monitor (Fin 3) ℕ, Reachable oneSlot s ∧ s.phase 1 = .popBlocked ∧
    s.queue.queue = [7] ∧ s.number awakePop = 0 ∧ s.number inserted = 0 := by
  have s0 : Reachable (ι := Fin 3) oneSlot (start oneSlot) := .start
  have s1 := Reachable.next s0 (.lockPop (0 : Fin 3) rfl rfl)
  have s2 := Reachable.next s1 (.waitPop (0 : Fin 3) rfl)
  have s3 := Reachable.next s2 (.lockPop (1 : Fin 3) rfl rfl)
  have s4 := Reachable.next s3 (.waitPop (1 : Fin 3) rfl)
  have s5 := Reachable.next s4 (.lockPush (2 : Fin 3) 7 rfl rfl)
  have s6 := Reachable.next s5 (.bodyPush (2 : Fin 3) 7 rfl)
  have s7 := Reachable.next s6 (.notifyPush (2 : Fin 3) 0 rfl rfl)
  have s8 := Reachable.next s7 (.relockPop (0 : Fin 3) rfl rfl)
  exact ⟨_, s8, rfl, rfl, rfl, rfl⟩

/-- The consumer that still sleeps is covered by the one inside the critical section. -/
theorem one_slot_asleep : ∃ s : Monitor (Fin 3) ℕ, Reachable oneSlot s ∧ s.queue.queue = [7] ∧
    (∃ i, s.phase i = .popBlocked) ∧ s.queue.closed = false ∧ 1 ≤ s.number readyPop ∧
    ∃ j, attendsPop (s.phase j) = true := by
  obtain ⟨s, reached, asleep, content, awake, owed⟩ := relocked
  obtain ⟨covered, -, -, attended, -⟩ := no_lost_wakeup reached
  obtain ⟨opened, bound⟩ := covered ⟨1, asleep⟩
  have ready : s.queue.notEmpty = true := (notEmpty_iff s.queue).mpr (Or.inr (by simp [content]))
  refine ⟨s, reached, content, ⟨1, asleep⟩, opened, ?_, attended ⟨1, asleep⟩ ready⟩
  rw [size, content, awake, owed] at bound
  simpa using bound

/-- The item in the queue is covered by nobody but the thread inside the critical section. -/
theorem relocked_consumer_uncounted :
    ¬ ∀ s : Monitor (Fin 3) ℕ, Reachable oneSlot s →
      (∃ i, s.phase i = .popBlocked) →
      s.queue.closed = false ∧ s.queue.size ≤ s.number awakePop + s.number inserted := by
  intro claim
  obtain ⟨s, reached, asleep, content, awake, owed⟩ := relocked
  have bound := (claim s reached ⟨1, asleep⟩).2
  rw [size, content, awake, owed] at bound
  contradiction

end Monitor

end VisionLab.BoundedQueue
