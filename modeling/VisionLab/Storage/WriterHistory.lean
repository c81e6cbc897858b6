import VisionLab.Storage.EventWriter

/-! What the writer has done at any moment of a run: the commands carried out, in order, are the
accepted ones that no later one has pushed out of the queue, and a query sees what the ones before
it have written. -/
namespace VisionLab.EventWriter

variable {R : Type}

def waiting (w : EventWriter R) : List Command :=
  (w.queue.map (fun queue => queue.queue.queue)).getD []

def inHand (w : EventWriter R) : List Command := (w.thread.map WriterState.inHand).getD []

/-- The commands accepted since the start, those taken from the queue and the positions of those
evicted. -/
def ledger (w : EventWriter R) : Fifo.Ledger Command :=
  (w.queue.map (fun queue => queue.history.ledger)).getD w.record.ledger

def written [IEventRepository R] (repo : R) (writes : List (VisionEvent × ℤ)) : R :=
  writes.foldl
    (fun repo write =>
      IEventRepository.prune (IEventRepository.insert repo write.1 write.2).2 10000)
    repo

def database [IEventRepository R] (first : R) (w : EventWriter R) : R :=
  match w.thread with
  | some (.prune event now) =>
    (IEventRepository.insert (written first w.record.writes) event now).2
  | _ => written first w.record.writes

def closed (w : EventWriter R) : Bool :=
  match w.stopping with
  | .repoClosed | .returned => true
  | _ => false

def isJoined (w : EventWriter R) : Bool :=
  match w.stopping with
  | .none | .queueClosed => false
  | _ => true

def ended (w : EventWriter R) : Bool :=
  match w.thread with
  | none | some .done => true
  | some _ => false

/-- The invariant of a run from a start that opens the database `first`. -/
structure Steady [IEventRepository R] (first : R) (w : EventWriter R) : Prop where
  lawful : ∀ queue, w.queue = some queue → queue.Lawful
  policy : ∀ queue, w.queue = some queue → queue.queue.policy = .dropOldest
  capacity : ∀ queue, w.queue = some queue → queue.queue.capacity = w.capacity
  holds : w.ledger.Holds w.waiting
  taken : w.ledger.taken = w.record.handled ++ w.inHand
  writes : w.record.writes.map Prod.fst = w.record.handled.filterMap Command.event?
  repo : w.closed = false → w.repo = w.database first
  finished : w.closed = true → w.repo = IEventRepository.close (w.database first)
  asked : w.record.asked.map Asked.job = w.record.handled.filterMap Command.asked?
  answered : ∀ asked ∈ w.record.asked, asked.before ++ [.query asked.job] <+: w.record.handled ∧
    asked.writes.map Prod.fst = asked.before.filterMap Command.event? ∧
    asked.repo = written first asked.writes
  drained : w.ended = true → w.waiting = []
  shut : w.ended = true → ∀ queue, w.queue = some queue → queue.queue.closed = true
  joined : w.isJoined = true ↔ w.thread = none
  opened : w.closed = true → w.isJoined = true
  held : w.queue = none → w.isJoined = true

variable [IEventRepository R]

theorem start_steady {w after : EventWriter R} {dbPath : String}
    (started : w.start dbPath = (true, after)) : after.Steady after.repo := by
  unfold start at started
  split at started
  · cases started
  · obtain rfl := (Prod.mk.inj started).2
    constructor
    case lawful =>
      rintro _ ⟨⟩
      exact BoundedQueue.Traced.start_lawful _ _ _
    case policy =>
      rintro _ ⟨⟩
      rfl
    case capacity =>
      rintro _ ⟨⟩
      rfl
    case holds => exact Fifo.Ledger.holds_empty
    case answered => simp
    all_goals
      simp [ledger, inHand, waiting, closed, ended, isJoined, database, written,
        BoundedQueue.Traced.start, WriterState.inHand]

omit [IEventRepository R] in
theorem push_taken (queue : BoundedQueue.Traced Command) (command : Command) :
    (queue.push command).history.ledger.taken = queue.history.ledger.taken := by
  unfold BoundedQueue.Traced.push BoundedQueue.History.afterPush
  split <;> rfl

omit [IEventRepository R] in
theorem push_of_closed {queue : BoundedQueue.Traced Command} (shut : queue.queue.closed = true)
    (command : Command) : queue.push command = queue := by
  rw [BoundedQueue.Traced.push, BoundedQueue.Traced.push_of_closed shut]
  rfl

theorem Steady.withQueue {first : R} {w after : EventWriter R} (h : w.Steady first)
    {queue : BoundedQueue.Traced Command} (there : after.queue = some queue)
    (lawful : queue.Lawful) (policy : queue.queue.policy = .dropOldest)
    (capacity : queue.queue.capacity = after.capacity) (record : after.record = w.record)
    (taken : queue.history.ledger.taken = w.record.handled ++ after.inHand)
    (repo : after.closed = false → after.repo = after.database first)
    (finished : after.closed = true → after.repo = IEventRepository.close (after.database first))
    (drained : after.ended = true → queue.queue.queue = [])
    (shut : after.ended = true → queue.queue.closed = true)
    (joined : after.isJoined = true ↔ after.thread = none)
    (opened : after.closed = true → after.isJoined = true) : after.Steady first := by
  have waiting : after.waiting = queue.queue.queue := by simp [EventWriter.waiting, there]
  have ledger : after.ledger = queue.history.ledger := by simp [EventWriter.ledger, there]
  constructor
  case lawful => simpa [there] using lawful
  case policy => simpa [there] using policy
  case capacity => simpa [there] using capacity
  case holds => simpa [waiting, ledger] using lawful.holds
  case taken => simpa [ledger, record] using taken
  case writes => simpa [record] using h.writes
  case repo => exact repo
  case finished => exact finished
  case asked => simpa [record] using h.asked
  case answered => simpa [record] using h.answered
  case drained => simpa [waiting] using drained
  case shut => simpa [there] using shut
  case joined => exact joined
  case opened => exact opened
  case held => simp [there]

theorem submit_steady {first : R} {w : EventWriter R} (h : w.Steady first) (command : Command) :
    (w.submit command).Steady first := by
  unfold submit
  split
  · cases there : w.queue with
    | none =>
      have same : { w with queue := w.queue.map (fun queue => queue.push command) } = w := by
        rw [there, Option.map_none, ← there]
      rw [there] at same
      exact same.symm ▸ h
    | some queue =>
      have frame := queue.queue.push_frame command
      have taken := h.taken
      simp only [ledger, there, Option.map_some, Option.getD_some] at taken
      refine h.withQueue rfl (BoundedQueue.Traced.push_lawful (h.lawful queue there) command)
        (frame.2.1.trans (h.policy queue there)) (frame.1.trans (h.capacity queue there)) rfl
        ((push_taken queue command).trans taken) h.repo h.finished ?_ ?_ h.joined h.opened
      · -- a thread that has ended has left a closed queue, which takes no command
        intro ended
        have still := push_of_closed (h.shut ended queue there) command
        simpa [waiting, there, still] using h.drained ended
      · exact fun ended => frame.2.2.trans (h.shut ended queue there)
  · exact h

omit [IEventRepository R] in
theorem popStep_thread (w : EventWriter R) (queue : BoundedQueue.Traced Command) :
    queue.pop.history.ledger.taken = queue.history.ledger.taken ++ (w.popStep queue).inHand ∧
      ((w.popStep queue).ended = true →
        queue.pop.queue.queue = [] ∧ queue.pop.queue.closed = true) := by
  have spec := BoundedQueue.pop_spec queue.queue
  unfold popStep inHand ended BoundedQueue.Traced.pop
  generalize queue.queue.pop = result at spec ⊢
  cases spec with
  | waits => simp [BoundedQueue.History.afterPop, WriterState.inHand]
  | drained shut content =>
    simp [BoundedQueue.History.afterPop, WriterState.inHand, shut, content]
  | item command rest content =>
    cases command <;>
      simp [BoundedQueue.History.afterPop, Fifo.Ledger.take, handle, WriterState.inHand]

theorem popStep_database (first : R) (w : EventWriter R) (queue : BoundedQueue.Traced Command) :
    (w.popStep queue).database first = written first w.record.writes := by
  unfold popStep database
  cases queue.queue.pop.2 with
  | waits => rfl
  | drained => rfl
  | item command => cases command <;> rfl

theorem pop_steady {first : R} {w : EventWriter R} (h : w.Steady first)
    {queue : BoundedQueue.Traced Command} (there : w.queue = some queue)
    (here : w.thread = some .pop) : (w.popStep queue).Steady first := by
  have frame := queue.queue.pop_frame
  obtain ⟨popped, drained⟩ := popStep_thread w queue
  have taken := h.taken
  simp only [ledger, inHand, there, here, Option.map_some, Option.getD_some, WriterState.inHand,
    List.append_nil] at taken
  have parted : w.isJoined ≠ true := by simp [h.joined, here]
  have repo := h.repo
  simp only [database, here] at repo
  refine h.withQueue rfl (BoundedQueue.Traced.pop_lawful (h.lawful queue there))
    (frame.2.1.trans (h.policy queue there)) (frame.1.trans (h.capacity queue there)) rfl ?_ ?_ ?_
    (fun ended => (drained ended).1) (fun ended => (drained ended).2) ?_ ?_
  · rw [popped, taken]
  · exact fun opened => (repo opened).trans (popStep_database first w queue).symm
  · exact fun closed => absurd (h.opened closed) parted
  · exact ⟨fun joined => absurd joined parted, fun none => by simp [popStep] at none⟩
  · exact fun closed => absurd (h.opened closed) parted

omit [IEventRepository R] in
structure Works (w after : EventWriter R) : Prop where
  queue : after.queue = w.queue
  ledger : after.record.ledger = w.record.ledger
  capacity : after.capacity = w.capacity
  stopping : after.stopping = w.stopping
  before : w.thread ≠ none
  running : after.ended = false
  handled : after.record.handled ++ after.inHand = w.record.handled ++ w.inHand

theorem Works.steady {first : R} {w after : EventWriter R} (works : Works w after)
    (h : w.Steady first)
    (writes : after.record.writes.map Prod.fst = after.record.handled.filterMap Command.event?)
    (repo : after.closed = false → after.repo = after.database first)
    (asked : after.record.asked.map Asked.job = after.record.handled.filterMap Command.asked?)
    (answered : ∀ asked ∈ after.record.asked,
      asked.before ++ [.query asked.job] <+: after.record.handled ∧
        asked.writes.map Prod.fst = asked.before.filterMap Command.event? ∧
        asked.repo = written first asked.writes) : after.Steady first := by
  have ledger : after.ledger = w.ledger := by
    simp [EventWriter.ledger, works.queue, works.ledger]
  have waiting : after.waiting = w.waiting := by rw [EventWriter.waiting, works.queue]; rfl
  have joined : after.isJoined = w.isJoined := by rw [isJoined, works.stopping]; rfl
  have closed : after.closed = w.closed := by rw [EventWriter.closed, works.stopping]; rfl
  have parted : w.isJoined ≠ true := fun joined => works.before (h.joined.mp joined)
  have alive : after.thread ≠ none := by
    intro none
    simpa [ended, none] using works.running
  constructor
  case lawful => rw [works.queue]; exact h.lawful
  case policy => rw [works.queue]; exact h.policy
  case capacity => rw [works.queue, works.capacity]; exact h.capacity
  case holds => rw [ledger, waiting]; exact h.holds
  case taken => rw [ledger, works.handled]; exact h.taken
  case writes => exact writes
  case repo => exact repo
  case finished => exact fun both => absurd (h.opened (closed ▸ both)) parted
  case asked => exact asked
  case answered => exact answered
  case drained => exact fun ended => absurd ended (by simp [works.running])
  case shut => exact fun ended => absurd ended (by simp [works.running])
  case joined => exact ⟨fun both => absurd (joined ▸ both) parted, fun none => absurd none alive⟩
  case opened => rw [closed, joined]; exact h.opened
  case held => rw [works.queue, joined]; exact h.held

/-- What was asked before stays asked before, with one more command carried out. -/
theorem Steady.earlier {first : R} {w : EventWriter R} (h : w.Steady first)
    (command : Command) : ∀ asked ∈ w.record.asked,
      asked.before ++ [.query asked.job] <+: w.record.handled ++ [command] ∧
        asked.writes.map Prod.fst = asked.before.filterMap Command.event? ∧
        asked.repo = written first asked.writes := by
  intro asked member
  obtain ⟨before, rest⟩ := h.answered asked member
  exact ⟨before.trans (List.prefix_append _ _), rest⟩

theorem insert_steady {first : R} {w : EventWriter R} (h : w.Steady first) {event : VisionEvent}
    (here : w.thread = some (.insert event)) (now : ℤ) :
    ({ w with
        repo := (IEventRepository.insert w.repo event now).2
        thread := some (.prune event now) } : EventWriter R).Steady first := by
  have repo := h.repo
  simp only [database, here] at repo
  refine Works.steady (w := w) ⟨rfl, rfl, rfl, rfl, by simp [here], rfl, ?_⟩ h h.writes ?_ h.asked
    h.answered
  · simp [inHand, here, WriterState.inHand]
  · intro opened
    simp only [database]
    rw [repo opened]

theorem prune_steady {first : R} {w : EventWriter R} (h : w.Steady first) {event : VisionEvent}
    {now : ℤ} (here : w.thread = some (.prune event now)) :
    ({ w with
        repo := IEventRepository.prune w.repo 10000
        thread := some .pop
        record :=
          { w.record with
            handled := w.record.handled ++ [.event event]
            writes := w.record.writes ++ [(event, now)] } } : EventWriter R).Steady first := by
  have repo := h.repo
  simp only [database, here] at repo
  refine Works.steady (w := w) ⟨rfl, rfl, rfl, rfl, by simp [here], rfl, ?_⟩ h ?_ ?_ ?_
    (h.earlier _)
  · simp [inHand, here, WriterState.inHand]
  · simp [h.writes, Command.event?]
  · intro opened
    simp [database, written, repo opened]
  · simp [h.asked, Command.asked?]

theorem query_steady {first : R} {w : EventWriter R} (h : w.Steady first) {job : QueryJob}
    (here : w.thread = some (.query job)) : (w.queryStep job).Steady first := by
  have repo := h.repo
  simp only [database, here] at repo
  have opened : w.closed = false := by
    by_contra closed
    have joined := h.joined.mp (h.opened (by simpa using closed))
    rw [here] at joined
    cases joined
  have earlier := h.earlier (.query job)
  unfold queryStep
  cases told : job.onResult with
  | none =>
    refine Works.steady (w := w) ⟨rfl, rfl, rfl, rfl, by simp [here], rfl, ?_⟩ h ?_ ?_ ?_ earlier
    · simp [inHand, here, WriterState.inHand]
    · simp [h.writes, Command.event?]
    · exact repo
    · simp [h.asked, Command.asked?, told]
  | some onResult =>
    refine Works.steady (w := w) ⟨rfl, rfl, rfl, rfl, by simp [here], rfl, ?_⟩ h ?_ ?_ ?_ ?_
    · simp [inHand, here, WriterState.inHand]
    · simp [h.writes, Command.event?]
    · exact repo
    · simp [h.asked, Command.asked?, told]
    · intro asked member
      rcases List.mem_append.mp member with member | member
      · exact earlier asked member
      · obtain rfl := List.mem_singleton.mp member
        exact ⟨List.prefix_rfl, h.writes, repo opened⟩

theorem writer_steady {first : R} {w : EventWriter R} (h : w.Steady first) (now : ℤ) :
    (w.writerStep now).Steady first := by
  unfold writerStep
  split
  · exact h
  · exact h
  · rename_i here
    split
    · rename_i none
      have joined := h.joined.mp (h.held none)
      rw [here] at joined
      cases joined
    · rename_i queue there
      exact pop_steady h there here
  · rename_i event here
    exact insert_steady h here now
  · rename_i event before here
    exact prune_steady h here
  · rename_i job here
    exact query_steady h here

/- The phases of `stop`. -/

theorem close_steady {first : R} {w : EventWriter R} (h : w.Steady first)
    (phase : w.stopping = .none) :
    ({ w with queue := w.queue.map (fun queue => queue.close), stopping := .queueClosed } :
      EventWriter R).Steady first := by
  have parted : w.isJoined = false := by simp [isJoined, phase]
  cases there : w.queue with
  | none => simp [h.held there] at parted
  | some queue =>
    have taken := h.taken
    have drained := h.drained
    simp only [ledger, waiting, there, Option.map_some, Option.getD_some] at taken drained
    have alive : w.thread ≠ none := fun none => by simp [h.joined.mpr none] at parted
    refine h.withQueue rfl (BoundedQueue.Traced.step_lawful (h.lawful queue there) .close)
      (h.policy queue there) (h.capacity queue there) rfl taken
      (fun _ => h.repo (by simp [closed, phase])) ?_ drained (fun _ => rfl) ?_ ?_
    · intro both
      simp [EventWriter.closed] at both
    · constructor
      · intro both
        simp [isJoined] at both
      · exact fun none => absurd none alive
    · intro both
      simp [EventWriter.closed] at both

theorem join_steady {first : R} {w : EventWriter R} (h : w.Steady first)
    (phase : w.stopping = .queueClosed) (ended : w.ended = true) :
    ({ w with thread := none, stopping := .joined } : EventWriter R).Steady first := by
  have empty : w.inHand = [] := by
    unfold EventWriter.ended at ended
    unfold inHand
    split at ended
    · rename_i none
      rw [none]
      rfl
    · rename_i none
      rw [none]
      rfl
    · cases ended
  have taken := h.taken
  rw [empty] at taken
  have repo := h.repo (by simp [closed, phase])
  have written : w.database first = written first w.record.writes := by
    unfold database
    split
    · rename_i here
      simp [EventWriter.ended, here] at ended
    · rfl
  rw [written] at repo
  refine ⟨h.lawful, h.policy, h.capacity, h.holds, taken, h.writes, fun _ => repo, ?_, h.asked,
    h.answered, fun _ => h.drained ended, fun _ => h.shut ended, ?_, fun _ => rfl, fun _ => rfl⟩
  · intro both
    simp [EventWriter.closed] at both
  · exact ⟨fun _ => rfl, fun _ => rfl⟩

theorem drop_steady {first : R} {w : EventWriter R} (h : w.Steady first)
    (phase : w.stopping = .joined) : w.stopStep.Steady first := by
  have none : w.thread = none := h.joined.mp (by simp [isJoined, phase])
  have empty := h.drained (by simp [ended, none])
  have holds := h.holds
  rw [empty] at holds
  have repo := h.repo (by simp [closed, phase])
  simp only [stopStep, phase]
  refine ⟨?_, ?_, ?_, holds, h.taken, h.writes, fun _ => repo, ?_, h.asked, h.answered,
    fun _ => rfl, ?_, ?_, fun _ => rfl, fun _ => rfl⟩
  · rintro _ ⟨⟩
  · rintro _ ⟨⟩
  · rintro _ ⟨⟩
  · intro both
    simp [EventWriter.closed] at both
  · rintro _ _ ⟨⟩
  · exact ⟨fun _ => none, fun _ => rfl⟩

theorem closing_steady {first : R} {w : EventWriter R} (h : w.Steady first)
    (parted : w.isJoined = true) {phase : WriterStop}
    (last : phase = .repoClosed ∨ phase = .returned) {repo : R}
    (finished : repo = IEventRepository.close (w.database first)) (running : Bool) :
    ({ w with repo := repo, running := running, stopping := phase } : EventWriter R).Steady
      first := by
  have none := h.joined.mp parted
  rcases last with rfl | rfl
  all_goals
    refine ⟨h.lawful, h.policy, h.capacity, h.holds, h.taken, h.writes, ?_, fun _ => finished,
      h.asked, h.answered, h.drained, h.shut, ⟨fun _ => none, fun _ => rfl⟩, fun _ => rfl,
      fun _ => rfl⟩
    intro opened
    simp [EventWriter.closed] at opened

theorem stop_steady {first : R} {w : EventWriter R} (h : w.Steady first) :
    w.stopStep.Steady first := by
  cases phase : w.stopping with
  | none =>
    simp only [stopStep, phase]
    exact close_steady h phase
  | queueClosed =>
    simp only [stopStep, phase]
    split
    · rename_i ended
      exact join_steady h phase (by simp [EventWriter.ended, ended])
    · rename_i ended
      exact join_steady h phase (by simp [EventWriter.ended, ended])
    · exact h
  | joined => exact drop_steady h phase
  | queueDropped =>
    simp only [stopStep, phase]
    have opened := h.repo (by simp [closed, phase])
    exact closing_steady h (by simp [isJoined, phase]) (Or.inl rfl) (by rw [opened]) _
  | repoClosed =>
    simp only [stopStep, phase]
    have finished := h.finished (by simp [closed, phase])
    exact closing_steady h (by simp [isJoined, phase]) (Or.inr rfl) finished _
  | returned =>
    simp only [stopStep, phase]
    exact h

theorem step_steady {first : R} (w : EventWriter R) (turn : Turn) (h : w.Steady first) :
    (w.step turn).Steady first := by
  cases turn with
  | enqueue event => exact submit_steady h (.event event)
  | requestQuery query receiver onResult => exact submit_steady h _
  | writer now => exact writer_steady h now
  | stop => exact stop_steady h
  | destroy receiver =>
    exact ⟨h.lawful, h.policy, h.capacity, h.holds, h.taken, h.writes, h.repo, h.finished, h.asked,
      h.answered, h.drained, h.shut, h.joined, h.opened, h.held⟩

end VisionLab.EventWriter
