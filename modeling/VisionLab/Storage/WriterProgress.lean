import VisionLab.Lib.Progress
import VisionLab.Storage.QueryAnswers

/-! The writer does not starve anybody. A command that the queue took is carried out or pushed out
after so many steps of the thread as the capacity allows, however much is enqueued meanwhile; and a
`stop` therefore returns. -/
namespace VisionLab
open Machine

def WriterStop.progress : WriterStop → ℕ
  | .none => 0
  | .queueClosed => 1
  | .joined => 2
  | .queueDropped => 3
  | .repoClosed => 4
  | .returned => 5

namespace EventWriter

variable {R : Type}

def Turn.isWriter : Turn → Bool
  | .writer _ => true
  | _ => false

def handLeft (w : EventWriter R) : ℕ := (w.thread.map left).getD 0

/-- Each of the first `target` commands has been carried out or pushed out. -/
def Cleared (target : ℕ) (w : EventWriter R) : Prop :=
  target ≤ w.ledger.next ∧ (w.ledger.past target).length ≤ w.record.handled.length

instance (target : ℕ) (w : EventWriter R) : Decidable (w.Cleared target) :=
  inferInstanceAs (Decidable (_ ∧ _))

def todo (target : ℕ) (w : EventWriter R) : ℕ :=
  if w.Cleared target then 0 else 3 * (target - w.ledger.next) + w.handLeft

/-- The invariant under which `todo` falls: the target has been accepted. -/
structure Aims [IEventRepository R] (first : R) (target : ℕ) (w : EventWriter R) : Prop where
  steady : w.Steady first
  accepted : target ≤ w.ledger.accepted.length

theorem todo_le_of {target : ℕ} {w after : EventWriter R}
    (cleared : w.Cleared target → after.Cleared target)
    (next : w.ledger.next ≤ after.ledger.next) (hand : after.handLeft ≤ w.handLeft) :
    after.todo target ≤ w.todo target := by
  unfold todo
  split
  · exact Nat.zero_le _
  · rename_i short
    rw [if_neg (fun reached => short (cleared reached))]
    omega

theorem todo_eq_zero {target : ℕ} {w : EventWriter R} (reached : w.Cleared target) :
    w.todo target = 0 := if_pos reached

variable [IEventRepository R] {first : R} {target : ℕ}

theorem Steady.waiting_length {w : EventWriter R} (h : w.Steady first) :
    w.ledger.next + w.waiting.length = w.ledger.accepted.length := by
  have total := h.holds.length
  simp only [Fifo.Ledger.next]
  omega

theorem Steady.past_handled {w : EventWriter R} (h : w.Steady first)
    (passed : target ≤ w.ledger.next) :
    w.ledger.past target <+: w.record.handled ++ w.inHand :=
  h.taken ▸ h.holds.past_prefix passed

theorem Aims.cleared {w : EventWriter R} (h : w.Aims first target)
    (passed : target ≤ w.ledger.next) (hand : w.inHand = []) : w.Cleared target := by
  have before := (h.steady.past_handled passed).length_le
  rw [hand, List.append_nil] at before
  exact ⟨passed, before⟩

theorem Aims.reached {w : EventWriter R} (h : w.Aims first target) (waiting : w.waiting = [])
    (hand : w.inHand = []) : w.Cleared target := by
  have total := h.steady.waiting_length
  have accepted := h.accepted
  rw [waiting, List.length_nil] at total
  exact h.cleared (by omega) hand

omit [IEventRepository R] in
theorem submit_ledger (w : EventWriter R) (command : Command) :
    (w.submit command).ledger = w.ledger ∨ (w.submit command).ledger = w.ledger.accept command ∨
      (w.submit command).ledger = w.ledger.discard.accept command := by
  unfold submit
  split
  · cases there : w.queue with
    | none => simp [ledger, there]
    | some queue =>
      have spec := queue.queue.push_spec command
      simp only [ledger, there, Option.map_some, Option.getD_some, BoundedQueue.Traced.push]
      generalize queue.queue.push command = result at spec ⊢
      cases spec <;> simp [BoundedQueue.History.afterPush]
  · exact Or.inl rfl

theorem submit_aims {w : EventWriter R} (h : w.Aims first target) (command : Command) :
    target ≤ (w.submit command).ledger.accepted.length := by
  have accepted := h.accepted
  rcases submit_ledger w command with same | same | same <;> rw [same]
  · exact accepted
  · exact accepted.trans (by simp [Fifo.Ledger.accept])
  · exact accepted.trans (by simp [Fifo.Ledger.accept, Fifo.Ledger.discard])

theorem submit_todo {w : EventWriter R} (h : w.Aims first target) (command : Command) :
    (w.submit command).todo target ≤ w.todo target := by
  obtain ⟨thread, record, -, -⟩ := submit_rest w command
  have hand : (w.submit command).handLeft ≤ w.handLeft := by
    simp only [handLeft, thread]
    exact le_refl _
  rcases submit_ledger w command with same | same | same
  · refine todo_le_of ?_ (by rw [same]) hand
    simp only [Cleared, same, record]
    exact id
  · refine todo_le_of ?_ (by rw [same]; exact le_refl _) hand
    simp only [Cleared, same, record, Fifo.Ledger.past_accept h.accepted]
    exact id
  · have kept : w.ledger.discard.accepted = w.ledger.accepted := rfl
    have next : (w.ledger.discard.accept command).next = w.ledger.next + 1 :=
      Fifo.Ledger.next_discard w.ledger
    refine todo_le_of ?_ (by rw [same, next]; exact Nat.le_succ _) hand
    rintro ⟨passed, done⟩
    simp only [Cleared, same, record, next]
    rw [Fifo.Ledger.past_accept (kept ▸ h.accepted), Fifo.Ledger.past_discard passed]
    exact ⟨Nat.le_succ_of_le passed, done⟩

omit [IEventRepository R] in
theorem todo_lt_of_hand {w after : EventWriter R} (ledger : after.ledger = w.ledger)
    (handled : w.record.handled.length ≤ after.record.handled.length)
    (hand : after.handLeft + 1 = w.handLeft) : after.todo target ≤ w.todo target - 1 := by
  unfold todo
  split
  · exact Nat.zero_le _
  · rename_i short
    have still : ¬ w.Cleared target := by
      rintro ⟨passed, done⟩
      exact short ⟨ledger ▸ passed, ledger ▸ done.trans handled⟩
    rw [if_neg still, ledger]
    omega

theorem pop_todo {w : EventWriter R} (h : w.Aims first target) (free : w.thread = some .pop)
    {queue : BoundedQueue.Traced Command} (there : w.queue = some queue) :
    (w.popStep queue).todo target ≤ w.todo target - 1 := by
  have hand : w.inHand = [] := by simp [inHand, free, WriterState.inHand]
  have before : w.ledger = queue.history.ledger := by simp [ledger, there]
  have waiting : w.waiting = queue.queue.queue := by simp [EventWriter.waiting, there]
  have spec := BoundedQueue.pop_spec queue.queue
  have after : (w.popStep queue).ledger =
      (queue.history.afterPop queue.queue.pop.2).ledger := rfl
  have busy : ∀ command, queue.queue.pop.2 = .item command → (w.popStep queue).handLeft ≤ 2 := by
    intro command popped
    simp only [popStep, handLeft, popped]
    cases command <;> simp [handle, left]
  have record : (w.popStep queue).record = w.record := rfl
  generalize queue.queue.pop = result at spec after busy
  cases spec with
  | waits opened content =>
    obtain ⟨passed, done⟩ := h.reached (waiting.trans content) hand
    rw [todo_eq_zero ⟨after ▸ before ▸ passed, record ▸ after ▸ before ▸ done⟩]
    exact Nat.zero_le _
  | drained shut content =>
    obtain ⟨passed, done⟩ := h.reached (waiting.trans content) hand
    rw [todo_eq_zero ⟨after ▸ before ▸ passed, record ▸ after ▸ before ▸ done⟩]
    exact Nat.zero_le _
  | item command rest content bound =>
    have taken : (w.popStep queue).ledger = w.ledger.take command := by
      rw [after, before]
      rfl
    have most := busy command rfl
    by_cases passed : target ≤ w.ledger.next
    · obtain ⟨-, done⟩ := h.cleared passed hand
      have reached : (w.popStep queue).Cleared target := by
        refine ⟨?_, ?_⟩
        · rw [taken, Fifo.Ledger.next_take]
          exact Nat.le_succ_of_le passed
        · rw [taken, record]
          exact done
      rw [todo_eq_zero reached]
      exact Nat.zero_le _
    · have short : ¬ w.Cleared target := fun reached => passed reached.1
      unfold todo
      rw [if_neg short, taken, Fifo.Ledger.next_take]
      split <;> omega

theorem writer_todo {w : EventWriter R} (h : w.Aims first target) (now : ℤ) :
    (w.writerStep now).todo target ≤ w.todo target - 1 := by
  unfold writerStep
  split
  · rename_i gone
    have drained := h.steady.drained (by simp [ended, gone])
    rw [todo_eq_zero (h.reached drained (by simp [inHand, gone]))]
  · rename_i gone
    rw [todo_eq_zero (h.reached (h.steady.drained (by simp [ended, gone]))
      (by simp [inHand, gone, WriterState.inHand]))]
  · rename_i free
    split
    · rename_i missing
      have none := h.steady.joined.mp (h.steady.held missing)
      rw [none] at free
      contradiction
    · rename_i queue there
      exact pop_todo h free there
  · rename_i event busy
    refine todo_lt_of_hand rfl (le_refl _) ?_
    simp [handLeft, busy, left]
  · rename_i event now busy
    refine todo_lt_of_hand rfl (by simp) ?_
    simp [handLeft, busy, left]
  · rename_i job busy
    have kept : (w.queryStep job).ledger = w.ledger ∧ (w.queryStep job).thread = some .pop ∧
        (w.queryStep job).record.handled = w.record.handled ++ [.query job] := by
      unfold queryStep
      split <;> exact ⟨rfl, rfl, rfl⟩
    refine todo_lt_of_hand kept.1 (by simp [kept.2.2]) ?_
    simp [handLeft, busy, kept.2.1, left]

theorem stopStep_todo (w : EventWriter R) : w.stopStep.todo target ≤ w.todo target := by
  have ledger := stop_ledger w
  have kept : w.stopStep.record.handled = w.record.handled ∧ w.stopStep.handLeft ≤ w.handLeft := by
    unfold stopStep handLeft
    split
    case h_2 => split <;> simp
    all_goals exact ⟨rfl, le_refl _⟩
  refine todo_le_of ?_ (by rw [ledger]) kept.2
  simp only [Cleared, ledger, kept.1]
  exact id

theorem step_todo (w : EventWriter R) (turn : Turn) (h : w.Aims first target) :
    (w.step turn).todo target ≤ w.todo target ∧
      (turn.isWriter = true → (w.step turn).todo target ≤ w.todo target - 1) := by
  cases turn with
  | enqueue event => exact ⟨submit_todo h _, nofun⟩
  | requestQuery query receiver onResult => exact ⟨submit_todo h _, nofun⟩
  | writer now =>
    have less := writer_todo h now
    exact ⟨less.trans (Nat.sub_le _ _), fun _ => less⟩
  | stop => exact ⟨stopStep_todo w, nofun⟩
  | destroy receiver => exact ⟨le_refl _, nofun⟩

theorem step_aims (w : EventWriter R) (turn : Turn) (h : w.Aims first target) :
    (w.step turn).Aims first target := by
  refine ⟨step_steady w turn h.steady, ?_⟩
  cases turn with
  | enqueue event => exact submit_aims h _
  | requestQuery query receiver onResult => exact submit_aims h _
  | writer now =>
    rw [step, (writer_ledger w now).1]
    exact h.accepted
  | stop =>
    rw [step, stop_ledger]
    exact h.accepted
  | destroy receiver => exact h.accepted

theorem Steady.room {w : EventWriter R} (h : w.Steady first) : w.waiting.length ≤ w.capacity := by
  unfold waiting
  cases there : w.queue with
  | none => exact Nat.zero_le _
  | some queue => exact queue.queue.size_le.trans (h.capacity queue there).le

omit [IEventRepository R] in
theorem handLeft_le (w : EventWriter R) : w.handLeft ≤ 2 := by
  unfold handLeft
  cases w.thread with
  | none => exact Nat.zero_le _
  | some state => cases state <;> simp [left]

theorem Aims.todo_le {w : EventWriter R} (h : w.Aims first target) :
    w.todo target ≤ 3 * w.capacity + 2 := by
  have room := h.steady.room
  have total := h.steady.waiting_length
  have accepted := h.accepted
  have hand := w.handLeft_le
  unfold todo
  split <;> omega

theorem Aims.of_todo {w : EventWriter R} (h : w.Aims first target) (spent : w.todo target = 0) :
    w.Cleared target := by
  by_contra short
  unfold todo at spent
  rw [if_neg short] at spent
  have hand : w.inHand = [] := by
    have free : w.handLeft = 0 := by omega
    revert free
    unfold handLeft inHand
    cases w.thread with
    | none => simp
    | some state => cases state <;> simp [left, WriterState.inHand]
  exact short (h.cleared (by omega) hand)

/-- No command starves: rounds with a step of the thread in each clear what was accepted. -/
theorem within_cleared (first : R) (target capacity : ℕ) :
    Within step (fun round => round.any Turn.isWriter = true) (3 * capacity + 2)
      (fun w => w.Aims first target ∧ w.capacity = capacity)
      (fun w => (w.Aims first target ∧ w.capacity = capacity) ∧ w.todo target = 0) := by
  refine Within.of_rank _ _ (fun w : EventWriter R => w.todo target) Turn.isWriter ?_ ?_ ?_
    (fun _ fair => fair) ?_
  · rintro w turn ⟨aims, size⟩
    exact ⟨step_aims w turn aims, (step_frame w turn).1.trans size⟩
  · exact fun w turn h => (step_todo w turn h.1).1
  · exact fun w turn h => (step_todo w turn h.1).2
  · rintro w ⟨aims, rfl⟩
    exact aims.todo_le

/-- Whatever is enqueued later and whenever `stop` comes, the commands offered so far have been
carried out in their turn, or pushed out, as soon as the thread has taken three steps for each place
of the queue and two more. -/
theorem carried_out {idle w : EventWriter R} {dbPath : String}
    (started : idle.start dbPath = (true, w)) (turns : List Turn) (rounds : List (List Turn))
    (fair : ∀ round ∈ rounds, round.any Turn.isWriter = true)
    (long : 3 * w.capacity + 2 ≤ rounds.length) :
    Fifo.without ((w.run turns).run rounds.flatten).ledger.discarded (offered turns) <+:
      ((w.run turns).run rounds.flatten).record.handled := by
  obtain ⟨-, fresh, phase, -⟩ := start_fresh started
  have steady := run_steady (start_steady started) turns
  have serving := run_serving (start_serving started) turns
  have accepted : (w.run turns).ledger.accepted = offered turns := by
    simpa [fresh, phase] using run_accepted (start_steady started) (start_serving started) turns
  have later := run_accepted steady serving rounds.flatten
  obtain ⟨⟨aims, -⟩, spent⟩ := within_cleared w.repo (offered turns).length w.capacity
    (w.run turns) ⟨⟨steady, accepted ▸ le_refl _⟩, run_capacity w turns⟩ rounds fair long
  obtain ⟨passed, done⟩ := aims.of_todo spent
  have prior : ((w.run turns).run rounds.flatten).ledger.past (offered turns).length =
      Fifo.without ((w.run turns).run rounds.flatten).ledger.discarded (offered turns) := by
    rw [Fifo.Ledger.past, later, accepted, List.take_left']
    rfl
  rw [← prior]
  exact List.prefix_of_prefix_length_le (aims.steady.past_handled passed)
    (List.prefix_append _ _) done

/-- Three events for the room of two; the thread is at the second of them when the third comes. -/
theorem small_carried_out :
    Fifo.without (((small.start "events.sqlite").2.run
        [.enqueue { eventId := 1 }, .enqueue { eventId := 2 }, .enqueue { eventId := 3 }]).run
          (List.replicate 8 [.enqueue { eventId := 4 }, .writer 5]).flatten).ledger.discarded
        [.event { eventId := 1 }, .event { eventId := 2 }, .event { eventId := 3 }] <+:
      (((small.start "events.sqlite").2.run
        [.enqueue { eventId := 1 }, .enqueue { eventId := 2 }, .enqueue { eventId := 3 }]).run
          (List.replicate 8 [.enqueue { eventId := 4 }, .writer 5]).flatten).record.handled :=
  carried_out small_start
    [.enqueue { eventId := 1 }, .enqueue { eventId := 2 }, .enqueue { eventId := 3 }] _
    (by decide) (by decide)

/- The end of a `stop`. -/

/-- `stop` has closed the queue, and the database is still the one of this start. -/
structure Stopping (first : R) (capacity : ℕ) (w : EventWriter R) : Prop where
  steady : w.Steady first
  serving : w.Serving
  capacity : w.capacity = capacity
  stopping : 1 ≤ w.stopping.progress

/-- All that was accepted is cleared, so the thread has nothing left to do but to end. -/
structure Emptied (first : R) (capacity : ℕ) (w : EventWriter R) : Prop
    extends Stopping first capacity w where
  waiting : w.waiting = []
  inHand : w.inHand = []

theorem stopStep_progress (w : EventWriter R) : w.stopStep.stopping.progress =
    if w.stopping = .returned ∨ w.stopping = .queueClosed ∧ w.ended = false then
      w.stopping.progress
    else w.stopping.progress + 1 := by
  unfold stopStep ended
  cases phase : w.stopping with
  | queueClosed =>
    simp only
    split <;> simp_all [WriterStop.progress]
  | _ => simp [phase, WriterStop.progress]

theorem step_progress (w : EventWriter R) (turn : Turn) :
    w.stopping.progress ≤ (w.step turn).stopping.progress := by
  cases turn with
  | enqueue event => exact (congrArg _ (submit_frame w _).2).ge
  | requestQuery query receiver onResult => exact (congrArg _ (submit_frame w _).2).ge
  | writer now => exact (congrArg _ (writer_frame w now).2).ge
  | stop =>
    have moved := stopStep_progress w
    simp only [step]
    split at moved <;> omega
  | destroy receiver => exact le_refl _

theorem Stopping.step {capacity : ℕ} {w : EventWriter R} (h : w.Stopping first capacity)
    (turn : Turn) : (w.step turn).Stopping first capacity :=
  ⟨step_steady w turn h.steady, step_serving w turn h.serving,
    (step_frame w turn).1.trans h.capacity, h.stopping.trans (step_progress w turn)⟩

theorem Stopping.shut {capacity : ℕ} {w : EventWriter R} (h : w.Stopping first capacity)
    (queue : BoundedQueue.Traced Command) (there : w.queue = some queue) :
    queue.queue.closed = true := by
  refine h.serving.refuses ?_ queue there
  intro phase
  have := h.stopping
  rw [phase] at this
  contradiction

theorem Stopping.submit {capacity : ℕ} {w : EventWriter R} (h : w.Stopping first capacity)
    (command : Command) : (w.submit command).work = w.work ∧
      (w.submit command).waiting = w.waiting ∧ (w.submit command).inHand = w.inHand := by
  have same : (w.submit command).waiting = w.waiting := by
    unfold EventWriter.submit
    split
    · cases there : w.queue with
      | none => simp [waiting, there]
      | some queue => simp [waiting, there, push_of_closed (h.shut queue there)]
    · rfl
  simp only [work, inHand, same, (submit_rest w command).1, and_self]

theorem stopStep_work (w : EventWriter R) : w.stopStep.work ≤ w.work := by
  have hand : (w.stopStep.thread.map left).getD 0 ≤ (w.thread.map left).getD 0 := by
    unfold stopStep
    split
    case h_2 => split <;> simp
    all_goals exact le_refl _
  have queue : w.stopStep.waiting.length ≤ w.waiting.length := by
    unfold stopStep waiting
    split
    case h_1 => cases w.queue <;> simp [BoundedQueue.Traced.close, BoundedQueue.close]
    case h_2 => split <;> exact le_refl _
    case h_3 => simp
    all_goals exact le_refl _
  unfold work
  omega

theorem Stopping.step_work {capacity : ℕ} {w : EventWriter R} (h : w.Stopping first capacity)
    (turn : Turn) : (w.step turn).work ≤ w.work ∧
      (turn.isWriter = true → (w.step turn).work ≤ w.work - 1) := by
  cases turn with
  | enqueue event => exact ⟨(h.submit _).1.le, nofun⟩
  | requestQuery query receiver onResult => exact ⟨(h.submit _).1.le, nofun⟩
  | writer now =>
    have less := writer_works h.steady now
    exact ⟨less.trans (Nat.sub_le _ _), fun _ => less⟩
  | stop => exact ⟨stopStep_work w, nofun⟩
  | destroy receiver => exact ⟨le_refl _, nofun⟩

/- The four parts of a `stop`. -/

/-- The thread takes a step and so does `stop`. -/
def FairRound (round : List Turn) : Prop :=
  round.any Turn.isWriter = true ∧ round.any Turn.isStop = true

instance (round : List Turn) : Decidable (FairRound round) :=
  inferInstanceAs (Decidable (_ ∧ _))

theorem stop_begins (first : R) (capacity : ℕ) :
    Within step FairRound 1
      (fun w => w.Steady first ∧ w.Serving ∧ w.capacity = capacity)
      (Stopping first capacity) := by
  have begun := Within.of_rank (I := fun w => w.Steady first ∧ w.Serving ∧ w.capacity = capacity)
    step FairRound (fun w => 1 - w.stopping.progress) Turn.isStop ?_ ?_ ?_
    (fun _ fair => fair.2) (fun w _ => Nat.sub_le _ _)
  · refine begun.mono (le_refl _) ?_
    rintro w ⟨⟨steady, serving, size⟩, spent⟩
    exact ⟨steady, serving, size, by omega⟩
  · rintro w turn ⟨steady, serving, size⟩
    exact ⟨step_steady w turn steady, step_serving w turn serving, (step_frame w turn).1.trans size⟩
  · intro w turn _
    have := step_progress w turn
    omega
  · rintro w turn _ own
    cases turn with
    | stop =>
      have moved := stopStep_progress w
      simp only [step]
      split at moved
      · rename_i late
        rcases late with phase | ⟨phase, -⟩ <;> rw [moved, phase] <;> decide
      · omega
    | _ => contradiction

theorem thread_drains (first : R) (capacity : ℕ) :
    Within step FairRound (3 * capacity + 2) (Stopping first capacity)
      (Emptied first capacity) := by
  have drained := Within.of_rank step FairRound work Turn.isWriter
    (fun w turn (h : w.Stopping first capacity) => h.step turn)
    (fun w turn h => (h.step_work turn).1) (fun w turn h => (h.step_work turn).2)
    (fun _ fair => fair.1) (n := 3 * capacity + 2) ?_
  · refine drained.mono (le_refl _) ?_
    rintro w ⟨stopping, spent⟩
    exact ⟨stopping, (work_zero spent).2, (work_zero spent).1⟩
  · intro w h
    have room := h.steady.room
    have hand := w.handLeft_le
    rw [h.capacity] at room
    simp only [work, handLeft] at hand ⊢
    omega

theorem Emptied.step {capacity : ℕ} {w : EventWriter R} (h : w.Emptied first capacity)
    (turn : Turn) : (w.step turn).Emptied first capacity := by
  have none : w.work = 0 := by
    have idle := h.inHand
    revert idle
    unfold work EventWriter.inHand
    rw [h.waiting]
    cases w.thread with
    | none => simp
    | some state => cases state <;> simp [WriterState.inHand, left]
  have spent := (h.step_work turn).1
  rw [none] at spent
  exact ⟨h.toStopping.step turn, (work_zero (Nat.le_zero.mp spent)).2,
    (work_zero (Nat.le_zero.mp spent)).1⟩

theorem Emptied.writer {capacity : ℕ} {w : EventWriter R} (h : w.Emptied first capacity)
    (now : ℤ) : (w.writerStep now).ended = true := by
  have idle := h.inHand
  have empty := h.waiting
  unfold writerStep
  cases here : w.thread with
  | none => simp [ended, here]
  | some state =>
    cases state with
    | pop =>
      cases there : w.queue with
      | none => rfl
      | some queue =>
        have shut := h.shut queue there
        have spec := BoundedQueue.pop_spec queue.queue
        simp only [EventWriter.waiting, there, Option.map_some, Option.getD_some] at empty
        simp only [popStep, ended]
        generalize queue.queue.pop = result at spec ⊢
        cases spec <;> simp_all
    | done => simp [ended, here]
    | _ => simp [EventWriter.inHand, here, WriterState.inHand] at idle

theorem step_ended {capacity : ℕ} {w : EventWriter R} (h : w.Emptied first capacity)
    (spent : w.ended = true) (turn : Turn) : (w.step turn).ended = true := by
  cases turn with
  | enqueue event => simpa only [ended, step, enqueue, (submit_rest w _).1] using spent
  | requestQuery query receiver onResult =>
    simpa only [ended, step, requestQuery, (submit_rest w _).1] using spent
  | writer now => exact h.writer now
  | stop =>
    simp only [step]
    unfold stopStep
    split
    case h_2 =>
      split
      · rfl
      · rfl
      · exact spent
    all_goals exact spent
  | destroy receiver => exact spent

theorem thread_ends (first : R) (capacity : ℕ) :
    Within step FairRound 1 (Emptied first capacity)
      (fun w => w.Emptied first capacity ∧ w.ended = true) := by
  have ends := Within.of_rank step FairRound (fun w => if w.ended then 0 else 1) Turn.isWriter
    (fun w turn (h : w.Emptied first capacity) => h.step turn) ?_ ?_ (fun _ fair => fair.1)
    (n := 1) ?_
  · refine ends.mono (le_refl _) ?_
    rintro w ⟨emptied, spent⟩
    refine ⟨emptied, ?_⟩
    by_contra alive
    simp [alive] at spent
  · intro w turn h
    by_cases spent : w.ended = true
    · simp [spent, step_ended h spent turn]
    · simp only [spent]
      split <;> simp
  · intro w turn h own
    cases turn with
    | writer now => simp [step, h.writer now]
    | _ => contradiction
  · intro w _
    split <;> simp

theorem stop_finishes (first : R) (capacity : ℕ) :
    Within step FairRound 4 (fun w => w.Emptied first capacity ∧ w.ended = true)
      (fun w => w.stopping = .returned) := by
  have finished := Within.of_rank step FairRound (fun w => 5 - w.stopping.progress) Turn.isStop
    (fun w turn (h : w.Emptied first capacity ∧ w.ended = true) =>
      ⟨h.1.step turn, step_ended h.1 h.2 turn⟩) ?_ ?_ (fun _ fair => fair.2) (n := 4) ?_
  · refine finished.mono (le_refl _) ?_
    rintro w ⟨-, spent⟩
    revert spent
    cases w.stopping <;> simp [WriterStop.progress]
  · intro w turn _
    have := step_progress w turn
    omega
  · rintro w turn h own
    cases turn with
    | stop =>
      have moved := stopStep_progress w
      simp only [step]
      split at moved
      · rename_i late
        rcases late with phase | ⟨-, alive⟩
        · rw [moved, phase]
          decide
        · exact absurd (h.2.symm.trans alive) (by decide)
      · omega
    | _ => contradiction
  · intro w h
    have := h.1.stopping
    omega

/-- `stop` returns, whatever the writer was doing and however much it had to do, after three rounds
for each place of the queue and eight more. -/
theorem stop_returns {idle w : EventWriter R} {dbPath : String}
    (started : idle.start dbPath = (true, w)) (turns : List Turn) (rounds : List (List Turn))
    (fair : ∀ round ∈ rounds, FairRound round) (long : 3 * w.capacity + 8 ≤ rounds.length) :
    ((w.run turns).run rounds.flatten).stopping = .returned := by
  have whole := (((stop_begins w.repo w.capacity).trans (thread_drains w.repo w.capacity)).trans
    (thread_ends w.repo w.capacity)).trans (stop_finishes w.repo w.capacity)
  exact whole (w.run turns)
    ⟨run_steady (start_steady started) turns, run_serving (start_serving started) turns,
      run_capacity w turns⟩ rounds fair (by omega)

theorem small_stop_returns :
    (((small.start "events.sqlite").2.run
        [.enqueue { eventId := 1 }, .enqueue { eventId := 2 }, .writer 5]).run
      (List.replicate 14 [.stop, .requestQuery {} (some 0) (some 0), .writer 5]).flatten).stopping =
      .returned :=
  stop_returns small_start [.enqueue { eventId := 1 }, .enqueue { eventId := 2 }, .writer 5] _
    (by decide) (by decide)

end EventWriter

end VisionLab
