import Mathlib.Data.List.TakeWhile
import VisionLab.Storage.ReadYourWrites

/-! Who hears of a query. The thread answers each query that it carries out, so a request is answered
once, unless later commands push it out of the queue before the thread comes to it. -/
namespace VisionLab

namespace EventWriter

variable {R : Type}

def scheduled (w : EventWriter R) (receiver onResult : ℕ) : ℕ :=
  w.answers.countP (fun answer =>
    decide (answer.receiver = receiver) && decide (answer.onResult = onResult))

/-- The writer has drained its queue, or `stop` has returned. -/
def Settled (w : EventWriter R) : Prop :=
  w.stopping = .returned ∨ w.inHand = [] ∧ w.waiting = []

def requests (receiver onResult : ℕ) : Command → Bool
  | .event _ => false
  | .query job => decide (job.receiver = some receiver) && decide (job.onResult = some onResult)

variable [IEventRepository R]

/-- Every answer was sent earlier or belongs to a query that was carried out. -/
def Owed (earlier : List Answer) (w : EventWriter R) : Prop :=
  ∀ answer ∈ w.answers, answer ∈ earlier ∨ ∃ asked ∈ w.record.asked, answer? asked = some answer

theorem query_owed {earlier : List Answer} {w : EventWriter R} (h : w.Owed earlier)
    (job : QueryJob) : (w.queryStep job).Owed earlier := by
  unfold queryStep
  cases told : job.onResult with
  | none => exact h
  | some onResult =>
    have before : ∀ answer ∈ w.answers, answer ∈ earlier ∨
        ∃ asked ∈ w.record.asked ++ [⟨job, w.record.handled, w.record.writes, w.repo⟩],
          answer? asked = some answer := by
      intro answer member
      rcases h answer member with sent | ⟨asked, carried, given⟩
      · exact Or.inl sent
      · exact Or.inr ⟨asked, List.mem_append_left _ carried, given⟩
    intro answer member
    cases named : job.receiver.filter (fun receiver => receiver ∉ w.destroyed) with
    | none =>
      simp only [named] at member
      exact before answer member
    | some receiver =>
      simp only [named] at member
      rcases List.mem_append.mp member with old | own
      · exact before answer old
      · refine Or.inr ⟨_, List.mem_append_right _ (List.mem_singleton_self _), ?_⟩
        have there := (Option.filter_eq_some_iff.mp named).1
        simp [answer?, there, told, List.mem_singleton.mp own]

theorem writer_owed {earlier : List Answer} {w : EventWriter R} (h : w.Owed earlier) (now : ℤ) :
    (w.writerStep now).Owed earlier := by
  unfold writerStep
  split
  · exact h
  · exact h
  · split <;> exact h
  · exact h
  · exact h
  · exact query_owed h _

theorem step_owed {earlier : List Answer} (w : EventWriter R) (turn : Turn)
    (h : w.Owed earlier) : (w.step turn).Owed earlier := by
  have submitted (command : Command) : (w.submit command).Owed earlier := by
    obtain ⟨-, record, -, answers⟩ := submit_rest w command
    simpa only [Owed, record, answers] using h
  cases turn with
  | enqueue event => exact submitted _
  | requestQuery query receiver onResult => exact submitted _
  | writer now => exact writer_owed h now
  | stop =>
    obtain ⟨answers, asked, -⟩ := stop_answers w
    simpa only [step, Owed, answers, asked] using h
  | destroy receiver => exact h

/-- A command is evicted only behind as many later ones as the queue has room for. -/
def Overtaken (w : EventWriter R) : Prop :=
  ∀ p ∈ w.ledger.discarded, p + w.capacity < w.ledger.accepted.length

omit [IEventRepository R] in
theorem push_overtaken {queue : BoundedQueue.Traced Command} (lawful : queue.Lawful)
    (command : Command)
    (h : ∀ p ∈ queue.history.ledger.discarded,
      p + queue.queue.capacity < queue.history.ledger.accepted.length) :
    ∀ p ∈ (queue.push command).history.ledger.discarded,
      p + queue.queue.capacity < (queue.push command).history.ledger.accepted.length := by
  have spec := queue.queue.push_spec command
  have length := lawful.holds.length
  unfold BoundedQueue.Traced.push
  generalize queue.queue.push command = result at spec ⊢
  cases spec with
  | waits => exact h
  | closed => exact h
  | full => exact h
  | appends =>
    intro p member
    have before := h p member
    simp only [BoundedQueue.History.afterPush, Fifo.Ledger.accept, List.length_append,
      List.length_singleton]
    omega
  | evicts front rest oldest opened content full =>
    intro p member
    simp only [BoundedQueue.History.afterPush, Fifo.Ledger.accept, Fifo.Ledger.discard,
      List.mem_append, List.mem_singleton, List.length_append, List.length_singleton] at member ⊢
    rcases member with before | rfl
    · have below := h p before
      omega
    · unfold Fifo.Ledger.next
      omega

theorem step_overtaken {first : R} {w : EventWriter R} (steady : w.Steady first)
    (h : w.Overtaken) (turn : Turn) : (w.step turn).Overtaken := by
  have submitted (command : Command) : (w.submit command).Overtaken := by
    unfold submit
    split
    · unfold Overtaken at h ⊢
      cases there : w.queue with
      | none => simpa [ledger, there] using h
      | some queue =>
        have capacity := steady.capacity queue there
        simp only [ledger, there, Option.map_some, Option.getD_some, ← capacity] at h ⊢
        exact push_overtaken (steady.lawful queue there) command h
    · exact h
  cases turn with
  | enqueue event => exact submitted _
  | requestQuery query receiver onResult => exact submitted _
  | writer now =>
    obtain ⟨accepted, discarded⟩ := writer_ledger w now
    simpa only [step, Overtaken, accepted, discarded, writer_frame] using h
  | stop => simpa only [step, Overtaken, stop_ledger, stop_frame] using h
  | destroy receiver => exact h

theorem run_owed (w : EventWriter R) (turns : List Turn) : (w.run turns).Owed w.answers :=
  Machine.run_invariant (fun _ sent => Or.inl sent) step_owed turns

theorem run_overtaken {first : R} {w : EventWriter R} (steady : w.Steady first)
    (h : w.Overtaken) (turns : List Turn) : (w.run turns).Overtaken := by
  let P (w : EventWriter R) : Prop := w.Steady first ∧ w.Overtaken
  have keeps (w : EventWriter R) (turn : Turn) (here : P w) : P (w.step turn) :=
    ⟨step_steady w turn here.1, step_overtaken here.1 here.2 turn⟩
  exact (Machine.run_invariant (P := P) ⟨steady, h⟩ keeps turns).2

theorem scheduled_eq {earlier w : EventWriter R} (told : w.Told earlier.answers)
    (asked : w.record.asked.map Asked.job = w.record.handled.filterMap Command.asked?)
    {receiver : ℕ} (lives : receiver ∉ w.destroyed) (onResult : ℕ) :
    w.scheduled receiver onResult =
      earlier.scheduled receiver onResult + w.record.handled.countP (requests receiver onResult) := by
  let own (answer : Answer) : Bool :=
    decide (answer.receiver = receiver) && decide (answer.onResult = onResult)
  let names (job : QueryJob) : Bool :=
    decide (job.receiver = some receiver) && decide (job.onResult = some onResult)
  have living (answers : List Answer) :
      (answers.filter (alive w.destroyed)).countP own = answers.countP own := by
    rw [List.countP_filter]
    apply List.countP_congr
    intro answer _
    simp only [own, alive, Bool.and_eq_true, decide_eq_true_eq]
    constructor
    · exact fun both => both.1
    · exact fun both => ⟨both, both.1 ▸ lives⟩
  have one (asked : Asked R) : ((answer? asked).map own).getD false = names asked.job := by
    cases named : asked.job.receiver <;> cases told : asked.job.onResult <;>
      simp [answer?, own, names, named, told]
  have each : (w.record.asked.filterMap answer?).countP own =
      (w.record.asked.map Asked.job).countP names := by
    rw [List.countP_filterMap, List.countP_map]
    apply List.countP_congr
    intro asked _
    simp only [Function.comp, one]
  have commands : (w.record.handled.filterMap Command.asked?).countP names =
      w.record.handled.countP (requests receiver onResult) := by
    rw [List.countP_filterMap]
    apply List.countP_congr
    intro command _
    cases command with
    | event event => simp [Command.asked?, requests]
    | query job => cases told : job.onResult <;> simp [Command.asked?, requests, names, told]
  calc w.answers.countP own
      = (earlier.answers ++ w.record.asked.filterMap answer?).countP own := by
        rw [← living, told, living]
    _ = earlier.answers.countP own + w.record.handled.countP (requests receiver onResult) := by
        rw [List.countP_append, each, asked, commands]

/-- No other request in these calls names the callback. -/
def Unasked (receiver onResult : ℕ) (turns : List Turn) : Prop :=
  ∀ query, .requestQuery query (some receiver) (some onResult) ∉ turns

omit [IEventRepository R] in
theorem unasked_offered {receiver onResult : ℕ} {turns : List Turn}
    (other : Unasked receiver onResult turns) :
    ∀ command ∈ offered turns, requests receiver onResult command = false := by
  intro command member
  obtain ⟨turn, early, offers⟩ := List.mem_filterMap.mp member
  have there : turn ∈ turns := (List.takeWhile_sublist _).subset early
  cases turn with
  | enqueue event =>
    obtain rfl := Option.some.inj offers
    rfl
  | requestQuery query heir callback =>
    obtain rfl := Option.some.inj offers
    simp only [requests, Bool.and_eq_false_iff, decide_eq_false_iff_not]
    by_contra named
    obtain ⟨rfl, rfl⟩ := not_or.mp named |>.imp not_not.mp not_not.mp
    exact other query there
  | writer now => cases offers
  | stop => cases offers
  | destroy gone => cases offers

omit [IEventRepository R] in
theorem offered_request {pre : List Turn} (running : ∀ turn ∈ pre, turn.isStop = false)
    (query : EventQuery) (receiver onResult : Option ℕ) (post : List Turn) :
    offered (pre ++ .requestQuery query receiver onResult :: post) =
      offered pre ++ .query { query, receiver, onResult } :: offered post := by
  have all : ∀ turn ∈ pre, (!turn.isStop) = true := fun turn member => by simp [running turn member]
  have whole : pre.takeWhile (fun turn => !turn.isStop) = pre := List.takeWhile_eq_self_iff.mpr all
  have on : (!(Turn.requestQuery query receiver onResult).isStop) = true := rfl
  have command : (Turn.requestQuery query receiver onResult).command? =
      some (.query { query, receiver, onResult }) := rfl
  simp only [offered, whole, List.takeWhile_append_of_pos all, List.takeWhile_cons, on, if_true,
    List.filterMap_append, List.filterMap_cons, command]

/-- A request is answered once or was evicted. -/
theorem settled_scheduled {idle w : EventWriter R} {dbPath : String}
    (started : idle.start dbPath = (true, w)) {pre post : List Turn} (query : EventQuery)
    {receiver onResult : ℕ} (running : ∀ turn ∈ pre, turn.isStop = false)
    (once : Unasked receiver onResult (pre ++ post)) {final : EventWriter R}
    (reached : final = w.run (pre ++ .requestQuery query (some receiver) (some onResult) :: post))
    (lives : receiver ∉ final.destroyed) (settled : final.Settled) :
    final.scheduled receiver onResult = w.scheduled receiver onResult +
      (if (offered pre).length ∈ final.ledger.discarded then 0 else 1) := by
  have law := started_fifo started
    (pre ++ .requestQuery query (some receiver) (some onResult) :: post)
  have told := law.told
  have order := law.order
  have drained := law.drained
  have asked := law.asked
  rw [← reached] at order drained asked told
  have handled : final.record.handled = Fifo.without final.ledger.discarded
      (offered (pre ++ .requestQuery query (some receiver) (some onResult) :: post)) := by
    rcases settled with returned | ⟨inHand, waiting⟩
    · exact (drained (by simp [closed, returned])).1
    · rwa [inHand, waiting, List.append_nil, List.append_nil] at order
  have none_ {commands kept : List Command} (part : kept.Sublist commands)
      (others : ∀ command ∈ commands, requests receiver onResult command = false) :
      kept.countP (requests receiver onResult) = 0 := by
    apply List.countP_eq_zero.mpr
    intro command member
    simp [others command (part.subset member)]
  have before : Unasked receiver onResult pre :=
    fun other member => once other (List.mem_append_left _ member)
  have after : Unasked receiver onResult post :=
    fun other member => once other (List.mem_append_right _ member)
  have first : (Fifo.without final.ledger.discarded (offered pre)).countP
      (requests receiver onResult) = 0 :=
    none_ (Fifo.withoutFrom_sublist _ _ _) (unasked_offered before)
  have last : (Fifo.withoutFrom final.ledger.discarded ((offered pre).length + 1)
      (offered post)).countP (requests receiver onResult) = 0 :=
    none_ (Fifo.withoutFrom_sublist _ _ _) (unasked_offered after)
  rw [scheduled_eq told asked lives onResult, handled,
    offered_request running query (some receiver) (some onResult) post, Fifo.without_middle,
    List.countP_append, List.countP_append, first, last]
  split <;> simp [requests]

/-- Once the writer has settled, a request has been answered once, or as many commands as the queue
has room for came after it and pushed it out. -/
theorem query_answered {idle w : EventWriter R} {dbPath : String}
    (started : idle.start dbPath = (true, w)) (pre post : List Turn) (query : EventQuery)
    (receiver onResult : ℕ) (running : ∀ turn ∈ pre, turn.isStop = false)
    (once : Unasked receiver onResult (pre ++ post)) :
    let turns := pre ++ .requestQuery query (some receiver) (some onResult) :: post
    let final := w.run turns
    let position := (offered pre).length
    receiver ∉ final.destroyed → final.Settled →
      final.scheduled receiver onResult =
          w.scheduled receiver onResult + (if position ∈ final.ledger.discarded then 0 else 1) ∧
        (position ∈ final.ledger.discarded → position + w.capacity < (offered turns).length) := by
  intro turns final position lives settled
  obtain ⟨-, ledger, phase, -⟩ := start_fresh started
  constructor
  · exact settled_scheduled started query running once rfl lives settled
  · intro evicted
    have steady := start_steady started
    have overtaken := run_overtaken steady (by simp [Overtaken, ledger]) turns
    have accepted := run_accepted steady (start_serving started) turns
    rw [ledger, phase, if_pos rfl, List.nil_append] at accepted
    have late := overtaken position evicted
    rwa [run_capacity, accepted] at late

/- The thread comes to the end of its queue if nothing new arrives. -/

def left : WriterState → ℕ
  | .pop | .done => 0
  | .insert _ => 2
  | .prune _ _ | .query _ => 1

def work (w : EventWriter R) : ℕ := 3 * w.waiting.length + (w.thread.map left).getD 0

omit [IEventRepository R] in
theorem work_zero {w : EventWriter R} (nothing : w.work = 0) :
    w.inHand = [] ∧ w.waiting = [] := by
  unfold work at nothing
  refine ⟨?_, List.eq_nil_of_length_eq_zero (by omega)⟩
  cases here : w.thread with
  | none => simp [inHand, here]
  | some state => cases state <;> simp_all [inHand, left, WriterState.inHand]

theorem writer_works {first : R} {w : EventWriter R} (steady : w.Steady first) (now : ℤ) :
    (w.writerStep now).work ≤ w.work - 1 := by
  cases here : w.thread with
  | none =>
    have same : w.writerStep now = w := by simp [writerStep, here]
    have empty := steady.drained (by simp [ended, here])
    simp [same, work, empty, here]
  | some state =>
    cases state with
    | pop =>
      cases there : w.queue with
      | none =>
        have joined := steady.joined.mp (steady.held there)
        rw [here] at joined
        cases joined
      | some queue =>
        have spec := BoundedQueue.pop_spec queue.queue
        have next : w.writerStep now = w.popStep queue := by simp [writerStep, here, there]
        rw [next]
        unfold work waiting popStep BoundedQueue.Traced.pop
        generalize queue.queue.pop = result at spec ⊢
        cases spec with
        | waits opened content => simp [there, content, left]
        | drained shut content => simp [there, content, left]
        | item command rest content =>
          cases command <;> simp [there, here, content, handle, left] <;> omega
    | insert event => simp [writerStep, work, waiting, here, left]
    | prune event before => simp [writerStep, work, waiting, here, left]
    | query job =>
      have rest : (w.queryStep job).queue = w.queue ∧ (w.queryStep job).thread = some .pop := by
        unfold queryStep
        split <;> exact ⟨rfl, rfl⟩
      simp [writerStep, work, waiting, here, left, rest]
    | done =>
      have same : w.writerStep now = w := by simp [writerStep, here]
      have empty := steady.drained (by simp [ended, here])
      simp [same, work, empty, here, left]

theorem drains {first : R} {w : EventWriter R} (steady : w.Steady first) (now : ℤ) (n : ℕ)
    (enough : w.work ≤ n) :
    let final := w.run (List.replicate n (.writer now))
    (final.inHand = [] ∧ final.waiting = []) ∧ final.ledger.discarded = w.ledger.discarded ∧
      final.destroyed = w.destroyed := by
  induction n generalizing w with
  | zero => exact ⟨work_zero (Nat.le_zero.mp enough), rfl, rfl⟩
  | succ n ih =>
    have less := writer_works steady now
    have destroyed : (w.writerStep now).destroyed = w.destroyed := by
      obtain ⟨queue, -, after⟩ | ⟨_, _, _, _, _, _, after⟩ := writerStep_changes w now
      · rw [after]
        rfl
      · rw [after]
    obtain ⟨idle, discarded, gone⟩ := ih (writer_steady steady now) (by omega)
    exact ⟨idle, discarded.trans (writer_ledger w now).2, gone.trans destroyed⟩

theorem submits (w : EventWriter R) (turns : List Turn)
    (calls : ∀ turn ∈ turns, turn.command? ≠ none) :
    (w.run turns).thread = w.thread ∧ (w.run turns).record = w.record ∧
      (w.run turns).destroyed = w.destroyed := by
  induction turns generalizing w with
  | nil => exact ⟨rfl, rfl, rfl⟩
  | cons turn turns ih =>
    obtain ⟨thread, record, destroyed⟩ := ih (w.step turn)
      (fun other member => calls other (List.mem_cons_of_mem _ member))
    have call := calls turn List.mem_cons_self
    have here : (w.step turn).thread = w.thread ∧ (w.step turn).record = w.record ∧
        (w.step turn).destroyed = w.destroyed := by
      cases turn with
      | enqueue event =>
        obtain ⟨thread, record, destroyed, -⟩ := submit_rest w (.event event)
        exact ⟨thread, record, destroyed⟩
      | requestQuery query receiver onResult =>
        obtain ⟨thread, record, destroyed, -⟩ := submit_rest w (.query ⟨query, receiver, onResult⟩)
        exact ⟨thread, record, destroyed⟩
      | writer now => exact absurd rfl call
      | stop => exact absurd rfl call
      | destroy receiver => exact absurd rfl call
    exact ⟨thread.trans here.1, record.trans here.2.1, destroyed.trans here.2.2⟩

/-- As many events as the queue has room for push a request out, if the thread is not quick. -/
theorem overrun {idle w : EventWriter R} {dbPath : String}
    (started : idle.start dbPath = (true, w)) (query : EventQuery) {receiver : ℕ}
    (lives : receiver ∉ w.destroyed) (onResult : ℕ) (event : VisionEvent) (now : ℤ) :
    let final := w.run (.requestQuery query (some receiver) (some onResult) ::
      (List.replicate w.capacity (.enqueue event) ++ List.replicate (3 * w.capacity) (.writer now)))
    (final.inHand = [] ∧ final.waiting = []) ∧ receiver ∉ final.destroyed ∧
      final.scheduled receiver onResult = w.scheduled receiver onResult := by
  intro final
  let calls : List Turn := .requestQuery query (some receiver) (some onResult) ::
    List.replicate w.capacity (.enqueue event)
  obtain ⟨-, ledger, phase, -, pop, handled⟩ := start_fresh started
  have steady := run_steady (start_steady started) calls
  have onlyCalls : ∀ turn ∈ calls, turn.command? ≠ none := by
    intro turn member
    rcases List.mem_cons.mp member with rfl | filler
    · exact Option.some_ne_none _
    · rw [(List.mem_replicate.mp filler).2]
      exact Option.some_ne_none _
  obtain ⟨thread, record, destroyed⟩ := submits w calls onlyCalls
  have inHand : (w.run calls).inHand = [] := by
    rw [EventWriter.inHand, thread, pop]
    rfl
  have taken : (w.run calls).ledger.taken = [] := by
    rw [steady.taken, record, handled, inHand, List.append_nil]
  have accepted : (w.run calls).ledger.accepted =
      .query ⟨query, some receiver, some onResult⟩ :: List.replicate w.capacity (.event event) := by
    have given := run_accepted (start_steady started) (start_serving started) calls
    rw [ledger, phase, if_pos rfl, List.nil_append] at given
    rw [given]
    simp [calls, offered, Turn.isStop, Turn.command?, List.filterMap_replicate]
  have room : (w.run calls).waiting.length ≤ w.capacity := by
    cases there : (w.run calls).queue with
    | none => simp [waiting, there]
    | some queue =>
      have bound := queue.queue.size_le
      rw [steady.capacity queue there, run_capacity] at bound
      simpa [waiting, there] using bound
  have evicted : 0 ∈ (w.run calls).ledger.discarded := by
    have length := steady.holds.length
    have gone := steady.holds.gone
    simp only [accepted, taken, List.length_cons, List.length_replicate, List.length_nil] at length
    obtain ⟨k, next⟩ : ∃ k, (w.run calls).ledger.next = k + 1 := by
      refine ⟨(w.run calls).ledger.discarded.length - 1, ?_⟩
      rw [Fifo.Ledger.next, taken, List.length_nil]
      omega
    rw [taken, accepted, next, List.take_succ_cons, Fifo.without, Fifo.withoutFrom] at gone
    by_contra kept
    rw [if_neg kept] at gone
    cases gone
  have little : (w.run calls).work ≤ 3 * w.capacity := by
    simp only [work, thread, pop, Option.map_some, Option.getD_some, left]
    omega
  obtain ⟨idle_, discarded, still⟩ := drains steady now (3 * w.capacity) little
  have reached : final = (w.run calls).run (List.replicate (3 * w.capacity) (.writer now)) :=
    Machine.run_append step w calls _
  rw [← reached] at idle_ discarded still
  have lives_ : receiver ∉ final.destroyed := by rwa [still, destroyed]
  have once : Unasked receiver onResult ([] ++ (List.replicate w.capacity (.enqueue event) ++
      List.replicate (3 * w.capacity) (.writer now))) := by
    intro other member
    simp [List.mem_replicate] at member
  have running : ∀ turn ∈ ([] : List Turn), turn.isStop = false := by simp
  have answered : final.scheduled receiver onResult = _ :=
    settled_scheduled started query running once rfl lives_ (Or.inr idle_)
  have first : (offered []).length ∈ final.ledger.discarded := by
    rw [discarded]
    exact evicted
  exact ⟨idle_, lives_, by rw [answered, if_pos first, Nat.add_zero]⟩

theorem small_query_answered :
    ((small.start "events.sqlite").2.run smallTurns).scheduled 0 0 = 1 := by
  have answered := query_answered small_start (smallTurns.take 10) (smallTurns.drop 11) {} 0 0
    (by decide) (by simp [Unasked, smallTurns]) (by decide +kernel) (Or.inl (by decide +kernel))
  exact answered.1

/-- The first query of a session and the events of a busy first second. -/
theorem query_evicted :
    let w := ((EventWriter.new ({} : MemoryRepository)).start "events.sqlite").2
    let final := w.run (.requestQuery { limit := 500 } (some 0) (some 0) ::
      (List.replicate 1024 (.enqueue {}) ++ List.replicate 3072 (.writer 0)))
    final.Settled ∧ 0 ∉ final.destroyed ∧ final.scheduled 0 0 = 0 := by
  intro w final
  have started : (EventWriter.new ({} : MemoryRepository)).start "events.sqlite" = (true, w) := rfl
  have alive_ : 0 ∉ w.destroyed := List.not_mem_nil
  obtain ⟨drained, lives, unanswered⟩ := overrun started { limit := 500 } alive_ 0 {} 0
  exact ⟨Or.inr drained, lives, unanswered⟩

end EventWriter

end VisionLab
