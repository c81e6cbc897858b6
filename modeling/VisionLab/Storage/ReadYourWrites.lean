import VisionLab.Storage.WriterHistory

/-! The law of the writer: first in first out, a query sees the writes accepted before it, and
`stop` drains the queue before it closes the database. -/
namespace VisionLab

namespace EventWriter

variable {R : Type}

def Turn.isStop : Turn → Bool
  | .stop => true
  | _ => false

def Turn.command? : Turn → Option Command
  | .enqueue event => some (.event event)
  | .requestQuery query receiver onResult =>
    some (.query { query := query, receiver := receiver, onResult := onResult })
  | .writer _ | .stop | .destroy _ => none

/-- The commands offered before the first step of `stop`. -/
def offered (turns : List Turn) : List Command :=
  (turns.takeWhile (fun turn => !turn.isStop)).filterMap Turn.command?

/-- The queue takes commands until `stop` is called and none from then on. -/
structure Serving (w : EventWriter R) : Prop where
  opened : w.stopping = .none →
    w.running = true ∧ ∃ queue, w.queue = some queue ∧ queue.queue.closed = false
  refuses : w.stopping ≠ .none → ∀ queue, w.queue = some queue → queue.queue.closed = true

theorem submit_serving {w : EventWriter R} (h : w.Serving) (command : Command) :
    (w.submit command).Serving := by
  unfold submit
  split
  · constructor
    · intro phase
      obtain ⟨running, queue, there, opened⟩ := h.opened phase
      refine ⟨running, queue.push command, by simp [there], ?_⟩
      exact (queue.queue.push_frame command).2.2.trans opened
    · intro phase pushed there
      obtain ⟨queue, before, rfl⟩ := Option.map_eq_some_iff.mp there
      exact (queue.queue.push_frame command).2.2.trans (h.refuses phase queue before)
  · exact h

theorem popStep_serving {w : EventWriter R} (h : w.Serving) {queue : BoundedQueue.Traced Command}
    (there : w.queue = some queue) : (w.popStep queue).Serving := by
  have same : queue.pop.queue.closed = queue.queue.closed := queue.queue.pop_frame.2.2.1
  constructor
  · intro phase
    obtain ⟨running, before, here, opened⟩ := h.opened phase
    obtain rfl := Option.some.inj (there.symm.trans here)
    exact ⟨running, queue.pop, rfl, same.trans opened⟩
  · rintro phase _ ⟨⟩
    exact same.trans (h.refuses phase queue there)

variable [IEventRepository R]

/-- All that a step of the thread changes: it pops, or it leaves the queue alone. -/
theorem writerStep_changes (w : EventWriter R) (now : ℤ) :
    (∃ queue, w.queue = some queue ∧ w.writerStep now = w.popStep queue) ∨
      ∃ repo thread answers handled writes asked, w.writerStep now =
        { w with
          repo := repo
          thread := thread
          answers := answers
          record := { w.record with handled := handled, writes := writes, asked := asked } } := by
  unfold writerStep
  split
  · exact Or.inr ⟨_, _, _, _, _, _, rfl⟩
  · exact Or.inr ⟨_, _, _, _, _, _, rfl⟩
  · split
    · exact Or.inr ⟨_, _, _, _, _, _, rfl⟩
    · rename_i queue there
      exact Or.inl ⟨queue, there, rfl⟩
  · exact Or.inr ⟨_, _, _, _, _, _, rfl⟩
  · exact Or.inr ⟨_, _, _, _, _, _, rfl⟩
  · unfold queryStep
    split <;> exact Or.inr ⟨_, _, _, _, _, _, rfl⟩

theorem writer_serving {w : EventWriter R} (h : w.Serving) (now : ℤ) :
    (w.writerStep now).Serving := by
  obtain ⟨queue, there, after⟩ | ⟨_, _, _, _, _, _, after⟩ := writerStep_changes w now
  · exact after ▸ popStep_serving h there
  · rw [after]
    exact ⟨h.opened, h.refuses⟩

omit [IEventRepository R] in
theorem Serving.stopped {w : EventWriter R} (phase : w.stopping ≠ .none)
    (shut : ∀ queue, w.queue = some queue → queue.queue.closed = true) : w.Serving :=
  ⟨fun none => absurd none phase, fun _ => shut⟩

theorem stop_serving {w : EventWriter R} (h : w.Serving) : w.stopStep.Serving := by
  unfold stopStep
  split
  · refine .stopped (by simp) ?_
    intro closed there
    obtain ⟨queue, -, rfl⟩ := Option.map_eq_some_iff.mp there
    rfl
  · rename_i phase
    have shut := h.refuses (by simp [phase])
    split
    · exact .stopped (by simp) shut
    · exact .stopped (by simp) shut
    · exact h
  · exact .stopped (by simp) (by simp)
  · rename_i phase
    exact .stopped (by simp) (h.refuses (by simp [phase]))
  · rename_i phase
    exact .stopped (by simp) (h.refuses (by simp [phase]))
  · exact h

theorem step_serving (w : EventWriter R) (turn : Turn) (h : w.Serving) :
    (w.step turn).Serving := by
  cases turn with
  | enqueue event => exact submit_serving h (.event event)
  | requestQuery query receiver onResult => exact submit_serving h _
  | writer now => exact writer_serving h now
  | stop => exact stop_serving h
  | destroy receiver => exact ⟨h.opened, h.refuses⟩

theorem start_serving {w after : EventWriter R} {dbPath : String}
    (started : w.start dbPath = (true, after)) : after.Serving := by
  unfold start at started
  split at started
  · cases started
  · obtain rfl := (Prod.mk.inj started).2
    refine ⟨fun _ => ⟨rfl, _, rfl, rfl⟩, ?_⟩
    intro stopping
    exact absurd rfl stopping

omit [IEventRepository R] in
theorem push_ledger {queue : BoundedQueue.Traced Command}
    (policy : queue.queue.policy = .dropOldest) (opened : queue.queue.closed = false) (command : Command) :
    (queue.push command).history.ledger.accepted = queue.history.ledger.accepted ++ [command] ∧
      ((queue.push command).history.ledger.discarded = queue.history.ledger.discarded ∨
        queue.queue.size = queue.queue.capacity) := by
  have spec := queue.queue.push_spec command
  unfold BoundedQueue.Traced.push
  generalize queue.queue.push command = result at spec ⊢
  cases spec with
  | waits blocking => simp [policy] at blocking
  | closed shut => simp [opened] at shut
  | full newest => simp [policy] at newest
  | evicts front rest oldest opened content full => exact ⟨rfl, Or.inr full⟩
  | appends => exact ⟨rfl, Or.inl rfl⟩

/-- What a step does to the commands accepted so far and to the evictions. -/
structure Admits (w after : EventWriter R) (command : Option Command) : Prop where
  accepted : after.ledger.accepted =
    w.ledger.accepted ++ (if w.stopping = .none then command.toList else [])
  spared : after.ledger.discarded = w.ledger.discarded ∨
    ∃ queue, w.queue = some queue ∧ queue.queue.size = w.capacity

omit [IEventRepository R] in
theorem Admits.nothing {w after : EventWriter R}
    (accepted : after.ledger.accepted = w.ledger.accepted)
    (discarded : after.ledger.discarded = w.ledger.discarded) : Admits w after none :=
  ⟨by simp [accepted], Or.inl discarded⟩

theorem submit_admits {first : R} {w : EventWriter R} (steady : w.Steady first) (h : w.Serving)
    (command : Command) : Admits w (w.submit command) (some command) := by
  by_cases phase : w.stopping = .none
  · obtain ⟨running, queue, there, opened⟩ := h.opened phase
    obtain ⟨accepted, spared⟩ := push_ledger (steady.policy queue there) opened command
    rw [steady.capacity queue there] at spared
    constructor
    · simpa [submit, running, ledger, there, phase] using accepted
    · simpa [submit, running, ledger, there] using spared
  · have still : (w.submit command).ledger = w.ledger := by
      unfold submit
      split
      · cases there : w.queue with
        | none => simp [ledger, there]
        | some queue => simp [ledger, there, push_of_closed (h.refuses phase queue there)]
      · rfl
    exact ⟨by simp [still, phase], Or.inl (by rw [still])⟩

theorem writer_ledger (w : EventWriter R) (now : ℤ) :
    (w.writerStep now).ledger.accepted = w.ledger.accepted ∧
      (w.writerStep now).ledger.discarded = w.ledger.discarded := by
  obtain ⟨queue, there, after⟩ | ⟨_, _, _, _, _, _, after⟩ := writerStep_changes w now
  · have kept : queue.pop.history.ledger.accepted = queue.history.ledger.accepted ∧
        queue.pop.history.ledger.discarded = queue.history.ledger.discarded := by
      unfold BoundedQueue.Traced.pop BoundedQueue.History.afterPop
      split <;> exact ⟨rfl, rfl⟩
    rw [after, popStep]
    exact ⟨by simp [ledger, there, kept.1], by simp [ledger, there, kept.2]⟩
  · rw [after]
    exact ⟨rfl, rfl⟩

theorem writer_admits (w : EventWriter R) (now : ℤ) : Admits w (w.writerStep now) none :=
  .nothing (writer_ledger w now).1 (writer_ledger w now).2

theorem stop_ledger (w : EventWriter R) : w.stopStep.ledger = w.ledger := by
  unfold stopStep
  split
  · cases there : w.queue <;> simp [ledger, there, BoundedQueue.Traced.close]
  · split <;> rfl
  · rfl
  · rfl
  · rfl
  · rfl

theorem step_admits {first : R} {w : EventWriter R} (steady : w.Steady first) (h : w.Serving)
    (turn : Turn) : Admits w (w.step turn) turn.command? := by
  cases turn with
  | enqueue event => exact submit_admits steady h _
  | requestQuery query receiver onResult => exact submit_admits steady h _
  | writer now => exact writer_admits w now
  | stop => exact .nothing (by rw [step, stop_ledger]) (by rw [step, stop_ledger])
  | destroy receiver => exact .nothing rfl rfl

omit [IEventRepository R] in
theorem submit_frame (w : EventWriter R) (command : Command) :
    (w.submit command).capacity = w.capacity ∧ (w.submit command).stopping = w.stopping := by
  unfold submit
  split <;> exact ⟨rfl, rfl⟩

theorem writer_frame (w : EventWriter R) (now : ℤ) :
    (w.writerStep now).capacity = w.capacity ∧ (w.writerStep now).stopping = w.stopping := by
  obtain ⟨queue, there, after⟩ | ⟨_, _, _, _, _, _, after⟩ := writerStep_changes w now
  all_goals
    rw [after]
    exact ⟨rfl, rfl⟩

theorem stop_frame (w : EventWriter R) :
    w.stopStep.capacity = w.capacity ∧ w.stopStep.stopping ≠ .none := by
  unfold stopStep
  split
  · simp
  · rename_i phase
    split <;> simp [phase]
  · simp
  · simp
  · simp
  · rename_i phase
    simp [phase]

theorem step_frame (w : EventWriter R) (turn : Turn) : (w.step turn).capacity = w.capacity ∧
    ((w.step turn).stopping = .none ↔ w.stopping = .none ∧ turn.isStop = false) := by
  cases turn with
  | enqueue event => simp [step, enqueue, submit_frame, Turn.isStop]
  | requestQuery query receiver onResult => simp [step, requestQuery, submit_frame, Turn.isStop]
  | writer now => simp [step, writer_frame, Turn.isStop]
  | stop => simp [step, stop_frame, Turn.isStop]
  | destroy receiver => simp [step, Turn.isStop]

theorem run_steady {first : R} {w : EventWriter R} (steady : w.Steady first) (turns : List Turn) :
    (w.run turns).Steady first :=
  Machine.run_invariant steady step_steady turns

theorem run_serving {w : EventWriter R} (h : w.Serving) (turns : List Turn) :
    (w.run turns).Serving :=
  Machine.run_invariant h step_serving turns

theorem run_capacity (w : EventWriter R) (turns : List Turn) :
    (w.run turns).capacity = w.capacity := by
  induction turns generalizing w with
  | nil => rfl
  | cons turn turns ih => exact (ih (w.step turn)).trans (step_frame w turn).1

theorem run_accepted {first : R} {w : EventWriter R} (steady : w.Steady first) (h : w.Serving)
    (turns : List Turn) : (w.run turns).ledger.accepted =
      w.ledger.accepted ++ (if w.stopping = .none then offered turns else []) := by
  induction turns generalizing w with
  | nil => simp [run, offered]
  | cons turn turns ih =>
    have rest := ih (step_steady w turn steady) (step_serving w turn h)
    rw [run, Machine.run_cons, ← run, rest, (step_admits steady h turn).accepted]
    by_cases phase : w.stopping = .none
    · cases stops : turn.isStop with
      | false =>
        have on := (step_frame w turn).2.mpr ⟨phase, stops⟩
        cases command : turn.command? <;> simp [phase, on, offered, stops, command]
      | true =>
        have off : (w.step turn).stopping ≠ .none := by simp [step_frame, stops]
        cases turn <;> simp_all [Turn.isStop, Turn.command?, offered]
    · have off : (w.step turn).stopping ≠ .none := by simp [step_frame, phase]
      simp [phase, off]

/- Who has been told of the queries that were carried out. -/

def alive (destroyed : List ℕ) (answer : Answer) : Bool := decide (answer.receiver ∉ destroyed)

/-- The answer to a query that was carried out, if there is somebody to tell. -/
def answer? (asked : Asked R) : Option Answer :=
  asked.job.receiver.bind (fun receiver => asked.job.onResult.map (fun onResult =>
    ⟨receiver, onResult, IEventRepository.query asked.repo asked.job.query⟩))

/-- The receivers that live have been told of every query that was carried out. -/
def Told (earlier : List Answer) (w : EventWriter R) : Prop :=
  w.answers.filter (alive w.destroyed) =
    (earlier ++ w.record.asked.filterMap answer?).filter (alive w.destroyed)

theorem query_told {earlier : List Answer} {w : EventWriter R} (h : w.Told earlier)
    (job : QueryJob) : (w.queryStep job).Told earlier := by
  unfold queryStep
  cases told : job.onResult with
  | none => exact h
  | some onResult =>
    unfold Told at h ⊢
    cases named : job.receiver with
    | none => simpa [answer?, named] using h
    | some receiver =>
      by_cases gone : receiver ∈ w.destroyed
      · simpa [answer?, named, told, gone, alive, Option.filter_some] using h
      · simp only [List.filter_append] at h
        simp [answer?, named, told, gone, alive, Option.filter_some, h]

theorem writer_told {earlier : List Answer} {w : EventWriter R} (h : w.Told earlier) (now : ℤ) :
    (w.writerStep now).Told earlier := by
  unfold writerStep
  split
  · exact h
  · exact h
  · split <;> exact h
  · exact h
  · exact h
  · exact query_told h _

theorem stop_answers (w : EventWriter R) : w.stopStep.answers = w.answers ∧
    w.stopStep.record.asked = w.record.asked ∧ w.stopStep.destroyed = w.destroyed := by
  unfold stopStep
  split
  · exact ⟨rfl, rfl, rfl⟩
  · split <;> exact ⟨rfl, rfl, rfl⟩
  · exact ⟨rfl, rfl, rfl⟩
  · exact ⟨rfl, rfl, rfl⟩
  · exact ⟨rfl, rfl, rfl⟩
  · exact ⟨rfl, rfl, rfl⟩

omit [IEventRepository R] in
theorem filter_alive (answers : List Answer) (receiver : ℕ) (destroyed : List ℕ) :
    answers.filter (alive (receiver :: destroyed)) =
      (answers.filter (alive destroyed)).filter (fun answer => decide (answer.receiver ≠ receiver)) :=
    by
  rw [List.filter_filter]
  apply List.filter_congr
  intro answer _
  simp [alive]

omit [IEventRepository R] in
theorem submit_rest (w : EventWriter R) (command : Command) :
    (w.submit command).thread = w.thread ∧ (w.submit command).record = w.record ∧
      (w.submit command).destroyed = w.destroyed ∧ (w.submit command).answers = w.answers := by
  unfold submit
  split <;> exact ⟨rfl, rfl, rfl, rfl⟩

theorem step_told {earlier : List Answer} (w : EventWriter R) (turn : Turn)
    (h : w.Told earlier) : (w.step turn).Told earlier := by
  have submitted (command : Command) : (w.submit command).Told earlier := by
    obtain ⟨-, record, destroyed, answers⟩ := submit_rest w command
    simpa only [Told, record, destroyed, answers] using h
  cases turn with
  | enqueue event => exact submitted _
  | requestQuery query receiver onResult => exact submitted _
  | writer now => exact writer_told h now
  | stop =>
    obtain ⟨answers, asked, destroyed⟩ := stop_answers w
    simpa only [step, Told, answers, asked, destroyed] using h
  | destroy receiver =>
    unfold Told at h ⊢
    simp only [step, filter_alive, h]

theorem run_told (w : EventWriter R) (fresh : w.record.asked = []) (turns : List Turn) :
    (w.run turns).Told w.answers :=
  Machine.run_invariant (by simp [Told, fresh]) step_told turns

theorem start_fresh {idle w : EventWriter R} {dbPath : String}
    (started : idle.start dbPath = (true, w)) :
    w.record.asked = [] ∧ w.ledger = {} ∧ w.stopping = .none ∧ w.running = true ∧
      w.thread = some .pop ∧ w.record.handled = [] := by
  unfold start at started
  split at started
  · cases started
  · obtain rfl := (Prod.mk.inj started).2
    exact ⟨rfl, rfl, rfl, rfl, rfl, rfl⟩

/-- What holds of a writer after the calls and steps `turns`, from the state that a start leaves. -/
structure FifoLaw (w : EventWriter R) (turns : List Turn) : Prop where
  /-- The commands carried out are those offered before `stop`, without the evicted ones and those
  that the thread or the queue still holds. -/
  order : (w.run turns).record.handled ++ (w.run turns).inHand ++ (w.run turns).waiting =
    Fifo.without (w.run turns).ledger.discarded (offered turns)
  spared : ∀ pre turn post, turns = pre ++ turn :: post →
    ((w.run pre).step turn).ledger.discarded ≠ (w.run pre).ledger.discarded →
      ∃ queue, (w.run pre).queue = some queue ∧ queue.queue.size = w.capacity
  asked : (w.run turns).record.asked.map Asked.job =
    (w.run turns).record.handled.filterMap Command.asked?
  /-- A query finds the events carried out before it, over the database that the start opened. -/
  reads : ∀ asked ∈ (w.run turns).record.asked,
    asked.before ++ [.query asked.job] <+: (w.run turns).record.handled ∧
      asked.writes.map Prod.fst = asked.before.filterMap Command.event? ∧
      asked.repo = written w.repo asked.writes
  /-- A receiver that lives has got the rows of each of its queries that was carried out. -/
  told : (w.run turns).Told w.answers
  opened : (w.run turns).closed = false → (w.run turns).repo = (w.run turns).database w.repo
  drained : (w.run turns).closed = true →
    (w.run turns).record.handled =
        Fifo.without (w.run turns).ledger.discarded (offered turns) ∧
      (w.run turns).repo =
        IEventRepository.close (written w.repo (w.run turns).record.writes) ∧
      (w.run turns).record.writes.map Prod.fst =
        (w.run turns).record.handled.filterMap Command.event?

theorem started_fifo {idle w : EventWriter R} {dbPath : String}
    (started : idle.start dbPath = (true, w)) (turns : List Turn) : w.FifoLaw turns := by
  have steady := start_steady started
  have serving := start_serving started
  have later := run_steady steady turns
  have fresh : w.ledger.accepted = [] ∧ w.stopping = .none := by
    unfold start at started
    split at started
    · cases started
    · obtain rfl := (Prod.mk.inj started).2
      exact ⟨rfl, rfl⟩
  have accepted : (w.run turns).ledger.accepted = offered turns := by
    simpa [fresh] using run_accepted steady serving turns
  have order : (w.run turns).record.handled ++ (w.run turns).inHand ++ (w.run turns).waiting =
      Fifo.without (w.run turns).ledger.discarded (offered turns) := by
    rw [← later.taken, later.holds.conserved, accepted]
  have unasked := (start_fresh started).1
  refine ⟨order, ?_, later.asked, later.answered, run_told w unasked turns, later.repo, ?_⟩
  · intro pre turn post _ evicts
    have here := step_admits (run_steady steady pre) (run_serving serving pre) turn
    simpa [run_capacity] using here.spared.resolve_left evicts
  · intro closed
    have joined := later.opened closed
    have none := later.joined.mp joined
    have waiting := later.drained (by simp [ended, none])
    have finished := later.finished closed
    have inHand : (w.run turns).inHand = [] := by simp [EventWriter.inHand, none]
    rw [waiting, inHand, List.append_nil, List.append_nil] at order
    simp only [database, none] at finished
    exact ⟨order, finished, later.writes⟩

theorem FifoLaw.sublist {w : EventWriter R} {turns : List Turn} (law : w.FifoLaw turns) :
    ((w.run turns).record.handled ++ (w.run turns).inHand).Sublist (offered turns) := by
  have all := Fifo.withoutFrom_sublist (w.run turns).ledger.discarded 0 (offered turns)
  rw [← Fifo.without, ← law.order] at all
  exact (List.sublist_append_left _ _).trans all

end EventWriter

structure MemoryRepository where
  isOpen : Bool := false
  rows : List StoredEvent := []
  lastId : ℕ := 0
  deriving DecidableEq, Repr

instance : IEventRepository MemoryRepository where
  open_ repo dbPath := if dbPath = "" then (false, repo) else (true, { repo with isOpen := true })
  insert repo event now :=
    if repo.isOpen then
      (true,
        { repo with
          rows := repo.rows ++ [⟨repo.lastId + 1, now, event⟩]
          lastId := repo.lastId + 1 })
    else (false, repo)
  query repo query :=
    if repo.isOpen then
      (repo.rows.filter (fun row => decide ((query.afterRowId : ℤ) < row.rowId) &&
        (query.type.map (fun type => decide (row.event.type = type))).getD true)).take query.limit
    else []
  prune repo maxRows :=
    if repo.isOpen then { repo with rows := repo.rows.drop (repo.rows.length - maxRows) } else repo
  close repo := { repo with isOpen := false }

namespace EventWriter

def small : EventWriter MemoryRepository := .new {} 2

/-- Three events for the room of two, then a query, of which the answer is awaited; `stop` finds one
more event in the queue. -/
def smallTurns : List Turn :=
  [.enqueue { eventId := 1 }, .enqueue { eventId := 2 }, .enqueue { eventId := 3 }] ++
    List.replicate 7 (.writer 5) ++ [.requestQuery {} (some 0) (some 0)] ++
    List.replicate 2 (.writer 6) ++ [.enqueue { eventId := 4 }, .stop] ++
    List.replicate 5 (.writer 7) ++ List.replicate 4 .stop

theorem small_start : small.start "events.sqlite" = (true, (small.start "events.sqlite").2) := rfl

theorem small_started_fifo : (small.start "events.sqlite").2.FifoLaw smallTurns ∧
    ((small.start "events.sqlite").2.run smallTurns).stopping = .returned :=
  ⟨started_fifo small_start smallTurns, by decide +kernel⟩

example : ((small.start "events.sqlite").2.run smallTurns).answers =
    [⟨0, 0, [⟨1, 5, { eventId := 2 }⟩, ⟨2, 5, { eventId := 3 }⟩]⟩] := by decide +kernel

end EventWriter

end VisionLab
