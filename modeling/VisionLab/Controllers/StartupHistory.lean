import VisionLab.Models.EventModel
import VisionLab.Storage.FaithfulLog
import VisionLab.Storage.QueryAnswers

/-! What a new window shows of earlier sessions. The controller asks the writer for one page of the
database as soon as it is built, and the list of events takes the page as its history. -/
namespace VisionLab

open SqliteEventRepository

abbrev EventsDisk := String → Option EventsTable

/-- The life of a writer in an earlier session, which may end at any point of it. -/
abbrev WriterSession :=
  { turns : List EventWriter.Turn // ∀ event, EventWriter.Turn.enqueue event ∈ turns → event.Fits }

namespace StartupHistory

section Lives

variable [ids : Autoincrement]

def opened (path : String) (disk : EventsDisk) : EventWriter SqliteEventRepository :=
  ((EventWriter.new ({ disk := disk } : SqliteEventRepository)).start path).2

def session (path : String) (disk : EventsDisk) (s : WriterSession) : EventsDisk :=
  ((opened path disk).run s.1).repo.disk

def afterSessions (path : String) (sessions : List WriterSession) : EventsDisk :=
  sessions.foldl (session path) (fun _ => some .created)

def historyQuery : EventQuery := { limit := 500 }

/-- The application starts: the constructor asks before anything else happens. -/
def startUp (path : String) (disk : EventsDisk) (turns : List EventWriter.Turn) :
    EventWriter SqliteEventRepository :=
  (opened path disk).run (.requestQuery historyQuery (some 0) (some 0) :: turns)

/-- The rows that the callback of the constructor gives to `EventModel::ingest`. -/
def delivered (path : String) (disk : EventsDisk) (turns : List EventWriter.Turn) :
    List (List StoredEvent) :=
  ((startUp path disk turns).answers.filter (fun answer =>
    decide (answer.receiver = 0) && decide (answer.onResult = 0))).map Answer.rows

def surviving (path : String) (disk : EventsDisk) : List StoredEvent :=
  ((disk path).map (fun table => table.log.rows)).getD []

variable {path : String} {disk : EventsDisk} {table : EventsTable}

theorem open_there (named : path ≠ "") (there : disk path = some table) :
    IEventRepository.open_ (IEventRepository.close ({ disk := disk } : SqliteEventRepository)) path =
      (true, { disk := disk, m_db := some path, m_open := true }) := by
  simp [IEventRepository.open_, open_, IEventRepository.close, close, named, there]

theorem start_eq (named : path ≠ "") (there : disk path = some table) :
    (EventWriter.new ({ disk := disk } : SqliteEventRepository)).start path =
      (true, opened path disk) ∧
    (opened path disk).repo = { disk := disk, m_db := some path, m_open := true } ∧
    (opened path disk).answers = [] := by
  refine ⟨?_, ?_, ?_⟩ <;> simp only [opened, EventWriter.start, EventWriter.new, open_there named there]

def at_ (disk : EventsDisk) (there : disk path = some table) (written : table.Written) :
    OpenRepository where
  repo := { disk := disk, m_db := some path, m_open := true }
  table := table
  opened := rfl
  there := there
  written := written

omit ids in
theorem disk_eq {o : OpenRepository} (connected : o.repo.m_db = some path) :
    o.repo.disk path = some o.table := by
  have there := o.there
  rwa [table?, connected] at there

omit ids in
theorem write_path (repo : SqliteEventRepository) (table : EventsTable) :
    (repo.write table).m_db = repo.m_db := rfl

theorem insert_path (o : OpenRepository) (event : StorableEvent) (now : ℤ) :
    (o.insert event now).repo.m_db = o.repo.m_db := by
  have kept : (o.repo.insert event.1 now).2.m_db = o.repo.m_db := by
    unfold SqliteEventRepository.insert
    split
    · split
      · rfl
      · exact write_path _ _
    · rfl
  exact kept

omit ids in
theorem prune_path (o : OpenRepository) (maxRows : ℕ) :
    (o.prune maxRows).repo.m_db = o.repo.m_db := by
  have kept : (o.repo.prune maxRows).m_db = o.repo.m_db := by
    unfold SqliteEventRepository.prune
    split
    · dsimp only
      split
      · rfl
      · split
        · rfl
        · exact write_path _ _
    · rfl
  exact kept

def persist (o : OpenRepository) (write : StorableEvent × ℤ) : OpenRepository :=
  (o.insert write.1 write.2).prune 10000

def rawWrite (write : StorableEvent × ℤ) : VisionEvent × ℤ := (write.1.1, write.2)

theorem written_repo (o : OpenRepository) (persisted : List (StorableEvent × ℤ)) :
    EventWriter.written o.repo (persisted.map rawWrite) = (persisted.foldl persist o).repo ∧
      (persisted.foldl persist o).repo.m_db = o.repo.m_db := by
  induction persisted generalizing o with
  | nil => exact ⟨rfl, rfl⟩
  | cons write persisted ih =>
    obtain ⟨rest, path⟩ := ih (persist o write)
    have kept := (prune_path (o.insert write.1 write.2) 10000).trans (insert_path o write.1 write.2)
    exact ⟨rest, path.trans kept⟩

omit ids in
theorem storable (writes : List (VisionEvent × ℤ)) (fits : ∀ write ∈ writes, write.1.Fits) :
    ∃ persisted : List (StorableEvent × ℤ), writes = persisted.map rawWrite := by
  induction writes with
  | nil => exact ⟨[], rfl⟩
  | cons write writes ih =>
    obtain ⟨persisted, same⟩ := ih (fun other member => fits other (List.mem_cons_of_mem _ member))
    refine ⟨(⟨write.1, fits write List.mem_cons_self⟩, write.2) :: persisted, ?_⟩
    rw [List.map_cons, ← same]
    rfl

omit ids in
theorem offered_fits (s : WriterSession) {event : VisionEvent}
    (offers : .event event ∈ EventWriter.offered s.1) : event.Fits := by
  obtain ⟨turn, early, command⟩ := List.mem_filterMap.mp offers
  have member : turn ∈ s.1 := (List.takeWhile_sublist _).subset early
  cases turn with
  | enqueue given =>
    obtain rfl := Command.event.inj (Option.some.inj command)
    exact s.2 given member
  | requestQuery query receiver onResult => cases Option.some.inj command
  | writer now => cases command
  | stop => cases command
  | destroy receiver => cases command

theorem session_table (named : path ≠ "") (there : disk path = some table)
    (written : table.Written) (s : WriterSession) :
    ∃ next, session path disk s path = some next ∧ next.Written := by
  obtain ⟨started, first, -⟩ := start_eq named there
  have law := EventWriter.started_fifo started s.1
  have steady := EventWriter.run_steady (EventWriter.start_steady started) s.1
  have given : ∀ command ∈ ((opened path disk).run s.1).record.handled ++
      ((opened path disk).run s.1).inHand, command ∈ EventWriter.offered s.1 :=
    fun _ member => law.sublist.subset member
  have fits : ∀ write ∈ ((opened path disk).run s.1).record.writes, write.1.Fits := by
    intro write member
    have event := List.mem_map_of_mem (f := Prod.fst) member
    rw [steady.writes] at event
    obtain ⟨command, carried, is_event⟩ := List.mem_filterMap.mp event
    have offers := given command (List.mem_append_left _ carried)
    cases command with
    | event emitted =>
      obtain rfl := Option.some.inj is_event
      exact offered_fits s offers
    | query job => cases is_event
  obtain ⟨persisted, writes⟩ := storable _ fits
  obtain ⟨repo, connected⟩ := written_repo (at_ disk there written) persisted
  have same : EventWriter.written (opened path disk).repo ((opened path disk).run s.1).record.writes =
      (persisted.foldl persist (at_ disk there written)).repo := by
    rw [writes, first]
    exact repo
  let last := persisted.foldl persist (at_ disk there written)
  cases ended : ((opened path disk).run s.1).closed with
  | true =>
    have closed := congrArg SqliteEventRepository.disk (law.drained ended).2.1
    rw [same] at closed
    exact ⟨last.table, (congrFun closed path).trans (disk_eq connected), last.written⟩
  | false =>
    have database := congrArg SqliteEventRepository.disk (law.opened ended)
    unfold EventWriter.database at database
    split at database
    · rename_i event now inside
      have hand : .event event ∈ ((opened path disk).run s.1).inHand := by
        rw [EventWriter.inHand, inside]
        exact List.mem_singleton_self _
      have fine : event.Fits := offered_fits s (given _ (List.mem_append_right _ hand))
      have next := disk_eq ((insert_path last ⟨event, fine⟩ now).trans connected)
      rw [same] at database
      exact ⟨_, (congrFun database path).trans next, (last.insert ⟨event, fine⟩ now).written⟩
    · rw [same] at database
      exact ⟨last.table, (congrFun database path).trans (disk_eq connected), last.written⟩

omit ids in
theorem created_written : EventsTable.created.Written :=
  fun _ member => absurd member List.not_mem_nil

theorem afterSessions_table (named : path ≠ "") (sessions : List WriterSession) :
    ∃ table, afterSessions path sessions path = some table ∧ table.Written := by
  induction sessions using List.reverseRecOn with
  | nil => exact ⟨.created, rfl, created_written⟩
  | append_singleton sessions s ih =>
    obtain ⟨table, there, written⟩ := ih
    obtain ⟨next, left, byRepository⟩ := session_table named there written s
    refine ⟨next, ?_, byRepository⟩
    rw [afterSessions, List.foldl_concat]
    exact left

omit ids in
theorem page_front {rows : List StoredEvent} (positive : ∀ stored ∈ rows, 0 < stored.rowId)
    (limit : ℕ) :
    Paging.page StoredEvent.rowId (BoundedLog.wanted none) limit 0 rows = rows.take limit := by
  have all : rows.filter (fun stored =>
      decide (0 < stored.rowId) && BoundedLog.wanted none stored) = rows := by
    apply List.filter_eq_self.mpr
    intro stored member
    simp only [BoundedLog.wanted, positive stored member, decide_true, Bool.and_true]
  simp only [Paging.page, all]

omit ids in
theorem surviving_eq (there : disk path = some table) : surviving path disk = table.log.rows := by
  simp only [surviving, there, Option.map_some, Option.getD_some]

omit ids in
/-- The database that the start has opened answers with the front of the table. -/
theorem history_page (there : disk path = some table) (written : table.Written) :
    SqliteEventRepository.query { disk := disk, m_db := some path, m_open := true } historyQuery =
      (surviving path disk).take 500 := by
  have page := (at_ disk there written).query_page historyQuery (by decide)
  have first : qlonglong historyQuery.afterRowId = 0 := by decide
  have positive : ∀ stored ∈ table.log.rows, 0 < stored.rowId := by
    intro stored member
    obtain ⟨row, found, rfl⟩ := List.mem_map.mp member
    exact (table.known row found).1
  have log : (at_ disk there written).log = table.log := rfl
  have type : historyQuery.type = none := rfl
  have limit : historyQuery.limit = 500 := rfl
  simp only [first, log, type, limit, page_front positive] at page
  rw [surviving_eq there]
  exact page

omit ids in
theorem asked_first {turns : List EventWriter.Turn} (once : EventWriter.Unasked 0 0 turns)
    {handled before : List Command} {job : QueryJob}
    (sublist : handled.Sublist (EventWriter.offered
      (.requestQuery historyQuery (some 0) (some 0) :: turns)))
    (prefix_ : before ++ [.query job] <+: handled)
    (own : EventWriter.requests 0 0 (.query job) = true) : before = [] ∧ job.query = historyQuery := by
  have others := EventWriter.unasked_offered once
  have sub := prefix_.sublist.trans sublist
  have first : EventWriter.offered (.requestQuery historyQuery (some 0) (some 0) :: turns) =
      .query ⟨historyQuery, some 0, some 0⟩ :: EventWriter.offered turns := rfl
  rw [first] at sub
  cases before with
  | nil =>
    have member := sub.subset (List.mem_singleton_self _)
    rcases List.mem_cons.mp member with same | later
    · obtain rfl := Command.query.inj same
      exact ⟨rfl, rfl⟩
    · rw [others _ later] at own
      cases own
  | cons command before =>
    have later : Command.query job ∈ EventWriter.offered turns := by
      apply sub.tail.subset
      simp
    rw [others _ later] at own
    cases own

omit ids in
theorem take_eq_rtake {rows : List StoredEvent}
    (ascending : rows.Pairwise (fun a b => a.rowId < b.rowId)) (n : ℕ) (some_ : 0 < n) :
    rows.take n = rows.rtake n ↔ rows.length ≤ n := by
  constructor
  · intro same
    by_contra more
    have first := congrArg (fun found => found[0]?) same
    have inside : rows.length - n + 0 < rows.length := by omega
    have front : 0 < rows.length := by omega
    simp only [List.rtake, List.getElem?_take_of_lt some_, List.getElem?_drop,
      List.getElem?_eq_getElem inside, List.getElem?_eq_getElem front, Option.some.injEq] at first
    have below := List.pairwise_iff_getElem.mp ascending 0 (rows.length - n + 0) front inside
      (by omega)
    rw [first] at below
    exact Int.lt_irrefl _ below
  · intro few
    have nothing : rows.length - n = 0 := by omega
    rw [List.take_of_length_le few, List.rtake, nothing, List.drop_zero]

theorem delivered_eq (named : path ≠ "") (there : disk path = some table)
    (written : table.Written) (turns : List EventWriter.Turn)
    (once : EventWriter.Unasked 0 0 turns) :
    ∀ history ∈ delivered path disk turns, history = (surviving path disk).take 500 := by
  intro history member
  obtain ⟨answer, sent, rfl⟩ := List.mem_map.mp member
  obtain ⟨sent, own⟩ := List.mem_filter.mp sent
  simp only [Bool.and_eq_true, decide_eq_true_eq] at own
  obtain ⟨started, first, silent⟩ := start_eq named there
  have law := EventWriter.started_fifo started
    (.requestQuery historyQuery (some 0) (some 0) :: turns)
  rcases EventWriter.run_owed (opened path disk) _ answer sent with earlier | ⟨asked, carried, given⟩
  · rw [silent] at earlier
    cases earlier
  · obtain ⟨before, writes, repo⟩ := law.reads asked carried
    have handled := (List.sublist_append_left _ _).trans law.sublist
    cases named : asked.job.receiver with
    | none => simp [EventWriter.answer?, named] at given
    | some receiver =>
      cases told : asked.job.onResult with
      | none => simp [EventWriter.answer?, named, told] at given
      | some onResult =>
        simp only [EventWriter.answer?, named, told, Option.bind_some, Option.map_some,
          Option.some.injEq] at given
        subst given
        obtain ⟨rfl, rfl⟩ := own
        have request : EventWriter.requests 0 0 (.query asked.job) = true := by
          simp [EventWriter.requests, named, told]
        obtain ⟨none_, asks⟩ := asked_first once handled before request
        rw [none_, List.filterMap_nil, List.map_eq_nil_iff] at writes
        rw [writes, first] at repo
        have page := history_page there written
        simp only [asks, repo]
        exact page

structure Ready (o : OpenRepository) (w : EventWriter SqliteEventRepository) : Prop where
  repo : w.repo = o.repo
  running : w.running = true
  thread : w.thread = some .pop
  queue : ∃ queue, w.queue = some queue ∧ queue.queue.queue = [] ∧ queue.queue.closed = false ∧
    queue.queue.policy = .dropOldest

omit ids in
theorem push_pop {queue : BoundedQueue.Traced Command} (content : queue.queue.queue = [])
    (opened : queue.queue.closed = false) (policy : queue.queue.policy = .dropOldest)
    (command : Command) :
    (queue.push command).queue.pop.2 = .item command ∧
      (queue.push command).pop.queue.queue = [] := by
  have pushed : (queue.push command).queue.queue = [command] := by
    have spec := queue.queue.push_spec command
    unfold BoundedQueue.Traced.push
    generalize queue.queue.push command = result at spec ⊢
    cases spec with
    | waits blocking => cases policy.symm.trans blocking
    | closed shut => cases opened.symm.trans shut
    | full newest => cases policy.symm.trans newest
    | evicts front rest oldest opened some_ => cases content.symm.trans some_
    | appends => simp [content]
  have spec := (queue.push command).queue.pop_spec
  unfold BoundedQueue.Traced.pop
  generalize (queue.push command).queue.pop = result at spec ⊢
  cases spec with
  | waits opened empty => cases pushed.symm.trans empty
  | drained shut empty => cases pushed.symm.trans empty
  | item first rest some_ =>
    obtain ⟨rfl, rfl⟩ := List.cons.inj (pushed.symm.trans some_)
    exact ⟨rfl, rfl⟩

def persistTurns (write : StorableEvent × ℤ) : List EventWriter.Turn :=
  [.enqueue write.1.1, .writer 0, .writer write.2, .writer 0]

theorem ready_persist {o : OpenRepository} {w : EventWriter SqliteEventRepository} (h : Ready o w)
    (write : StorableEvent × ℤ) : Ready (persist o write) (w.run (persistTurns write)) := by
  obtain ⟨queue, there, content, opened, policy⟩ := h.queue
  obtain ⟨taken, empty⟩ := push_pop content opened policy (.event write.1.1)
  have frame := queue.queue.push_frame (.event write.1.1)
  have frame_ := (queue.push (.event write.1.1)).queue.pop_frame
  have offered : w.enqueue write.1.1 = { w with queue := some (queue.push (.event write.1.1)) } := by
    simp [EventWriter.enqueue, EventWriter.submit, h.running, there]
  obtain ⟨record, after⟩ : ∃ record, w.run (persistTurns write) =
      { w with
        repo := (persist o write).repo
        queue := some (queue.push (.event write.1.1)).pop
        thread := some .pop
        record := record } := by
    simp [persistTurns, EventWriter.run, EventWriter.step, offered, EventWriter.writerStep,
      EventWriter.popStep, h.thread, taken, EventWriter.handle, h.repo]
    rfl
  rw [after]
  refine ⟨rfl, h.running, rfl, _, rfl, empty, ?_, ?_⟩
  · exact frame_.2.2.1.trans (frame.2.2.trans opened)
  · exact frame_.2.1.trans (frame.2.1.trans policy)

theorem ready_persisted {o : OpenRepository} {w : EventWriter SqliteEventRepository} (h : Ready o w)
    (persisted : List (StorableEvent × ℤ)) :
    Ready (persisted.foldl persist o) (w.run (persisted.flatMap persistTurns)) := by
  induction persisted generalizing o w with
  | nil => exact h
  | cons write persisted ih =>
    rw [List.flatMap_cons, EventWriter.run, Machine.run_append]
    exact ih (ready_persist h write)

omit ids in
theorem persistTurns_fits (persisted : List (StorableEvent × ℤ)) :
    ∀ event, .enqueue event ∈ persisted.flatMap persistTurns → event.Fits := by
  intro event member
  obtain ⟨write, -, turn⟩ := List.mem_flatMap.mp member
  simp only [persistTurns, List.mem_cons, EventWriter.Turn.enqueue.injEq, reduceCtorEq,
    List.not_mem_nil, or_false] at turn
  exact turn ▸ write.1.2

/-- The session in which the thread keeps up with the events. -/
def serving (persisted : List (StorableEvent × ℤ)) : WriterSession :=
  ⟨persisted.flatMap persistTurns, persistTurns_fits persisted⟩

/-- Any list of events is what some session persists. -/
theorem serving_table (named : path ≠ "") (there : disk path = some table)
    (written : table.Written) (persisted : List (StorableEvent × ℤ)) :
    session path disk (serving persisted) path =
      some (persisted.foldl persist (at_ disk there written)).table := by
  obtain ⟨started, first, -⟩ := start_eq named there
  have begins : Ready (at_ disk there written) (opened path disk) := by
    unfold opened EventWriter.start
    simp only [EventWriter.new, open_there named there]
    exact ⟨rfl, rfl, rfl, _, rfl, rfl, rfl, rfl⟩
  have ready := ready_persisted begins persisted
  have connected := (written_repo (at_ disk there written) persisted).2
  have left := disk_eq connected
  rw [← ready.repo] at left
  exact left

def newDatabase (path : String) : OpenRepository :=
  @at_ path .created (fun _ => some .created) rfl created_written

theorem first_session (named : path ≠ "") (persisted : List (StorableEvent × ℤ)) :
    afterSessions path [serving persisted] path =
      some (persisted.foldl persist (newDatabase path)).table :=
  serving_table named rfl created_written persisted

theorem delivered_idle (named : path ≠ "") (there : disk path = some table)
    (written : table.Written) :
    delivered path disk [.writer 0, .writer 0] = [(surviving path disk).take 500] := by
  have page := history_page there written
  have answers : (startUp path disk [.writer 0, .writer 0]).answers =
      [⟨0, 0, query { disk := disk, m_db := some path, m_open := true } historyQuery⟩] := by
    simp only [startUp, opened, EventWriter.start, EventWriter.new, open_there named there]
    rfl
  rw [delivered, answers, page]
  rfl

/-- The history is the recent past exactly as long as one page holds all of it. -/
theorem history_newest_iff (path : String) (named : path ≠ "") (sessions : List WriterSession)
    (turns : List EventWriter.Turn) (once : EventWriter.Unasked 0 0 turns) :
    ∀ history ∈ delivered path (afterSessions path sessions) turns,
      (history = (surviving path (afterSessions path sessions)).rtake 500 ↔
        (surviving path (afterSessions path sessions)).length ≤ 500) := by
  intro history member
  obtain ⟨table, there, written⟩ := afterSessions_table named sessions
  rw [delivered_eq named there written turns once history member, surviving_eq there]
  exact take_eq_rtake table.log.ascending 500 (by decide)

end Lives

/-- SQLite's own choice. -/
local instance counting : Autoincrement where
  next id := id + 1
  above id := Int.lt_succ id

/-- Two sessions have written three events; the next start writes a fourth one while it asks. -/
theorem three_events_newest :
    [(⟨1, 0, plainEvent.1⟩ : StoredEvent), ⟨2, 5, doorEvent.1⟩, ⟨3, 9, plainEvent.1⟩] =
    (surviving "events.sqlite" (afterSessions "events.sqlite"
      [serving [(plainEvent, 0), (doorEvent, 5)], serving [(plainEvent, 9)]])).rtake 500 :=
  (history_newest_iff "events.sqlite" (by decide)
    [serving [(plainEvent, 0), (doorEvent, 5)], serving [(plainEvent, 9)]]
    [.writer 10, .enqueue doorEvent.1, .writer 10, .writer 10, .writer 10]
    (by simp [EventWriter.Unasked]) _ (by decide +kernel)).mpr (by decide +kernel)

theorem persist_room (o : OpenRepository) (write : StorableEvent × ℤ) (room : o.log.rows.length < 10000)
    (free : o.log.top + 1 < 2 ^ 63) :
    (persist o write).log.rows.length = o.log.rows.length + 1 ∧
      (persist o write).log.top = o.log.top + 1 := by
  have grown : (o.insert write.1 write.2).log =
      o.log.append ⟨o.log.top + 1, write.2, write.1.1.stored⟩ (Int.lt_succ _) := by
    have step : (o.insert write.1 write.2).log = o.log.record write.1 write.2 :=
      EventsTable.inserted_log o.table write.1 write.2
    rw [step]
    exact if_pos free
  have size : (o.insert write.1 write.2).log.rows.length = o.log.rows.length + 1 := by
    rw [grown, Paging.Store.append, List.length_append, List.length_singleton]
  have few : (o.insert write.1 write.2).table.rows.length ≤ 10000 := by
    have same : (o.insert write.1 write.2).log.rows.length =
        (o.insert write.1 write.2).table.rows.length := List.length_map _
    omega
  have kept : (persist o write).log = (o.insert write.1 write.2).log :=
    congrArg EventsTable.log (if_pos few)
  rw [kept]
  exact ⟨size, by rw [grown]; rfl⟩

theorem persist_many (write : StorableEvent × ℤ) (o : OpenRepository) (empty : o.log.rows.length = 0)
    (new : o.log.top = 0) (n : ℕ) (room : n ≤ 10000) :
    ((List.replicate n write).foldl persist o).log.rows.length = n ∧
      ((List.replicate n write).foldl persist o).log.top = n := by
  induction n with
  | zero => exact ⟨empty, new⟩
  | succ n ih =>
    obtain ⟨size, top⟩ := ih (by omega)
    obtain ⟨more, next⟩ := persist_room ((List.replicate n write).foldl persist o) write (by omega)
      (by omega)
    rw [List.replicate_succ', List.foldl_concat, more, next]
    omega

/-- The newest of 501 events is not shown. -/
theorem history_of_many :
    let disk := afterSessions "events.sqlite" [serving (List.replicate 501 (plainEvent, 0))]
    ∃ history ∈ delivered "events.sqlite" disk [.writer 0, .writer 0],
      history ≠ (surviving "events.sqlite" disk).rtake 500 := by
  intro disk
  have named : "events.sqlite" ≠ "" := by decide
  have there := first_session named (List.replicate 501 (plainEvent, 0))
  have many := (persist_many (plainEvent, 0) (newDatabase "events.sqlite") rfl rfl 501 (by omega)).1
  generalize (List.replicate 501 (plainEvent, (0 : ℤ))).foldl persist
    (newDatabase "events.sqlite") = last at there many
  refine ⟨_, (delivered_idle named there last.written).symm ▸ List.mem_singleton_self _, ?_⟩
  rw [surviving_eq there]
  intro same
  have few := (take_eq_rtake last.table.log.ascending 500 (by omega)).mp same
  have size : last.table.log.rows.length = 501 := many
  omega

end StartupHistory

end VisionLab
