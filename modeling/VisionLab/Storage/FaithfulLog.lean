import VisionLab.Storage.BoundedLog

/-! Runs of calls on an open repository, beside the log they stand for: when the two agree, and what
a reader sees who asks for page after page while rows come and go. -/
namespace VisionLab

open SqliteEventRepository

/-- A repository on a table that only the repository has written. -/
structure OpenRepository where
  repo : SqliteEventRepository
  table : EventsTable
  opened : repo.m_open = true
  there : repo.table? = some table
  written : table.Written

namespace OpenRepository

def log (o : OpenRepository) : BoundedLog := o.table.log

theorem write_table (o : OpenRepository) (table : EventsTable) :
    (o.repo.write table).m_open = true ∧ (o.repo.write table).table? = some table := by
  have there := o.there
  cases connected : o.repo.m_db with
  | none => simp [table?, connected] at there
  | some path => exact ⟨o.opened, by simp [table?, write, connected]⟩

theorem insert_table [Autoincrement] (o : OpenRepository) (event : VisionEvent) (now : ℤ) :
    (o.repo.insert event now).2.m_open = true ∧
      (o.repo.insert event now).2.table? = some (o.table.inserted event now) := by
  unfold SqliteEventRepository.insert EventsTable.inserted
  rw [if_pos o.opened, o.there, Option.bind_some]
  cases o.table.insert insertColumns (boundValues event now) with
  | none => exact ⟨o.opened, o.there⟩
  | some table => exact o.write_table table

theorem prune_table (o : OpenRepository) (maxRows : ℕ) :
    (o.repo.prune maxRows).m_open = true ∧
      (o.repo.prune maxRows).table? = some (o.table.pruned maxRows) := by
  have size : o.repo.count = o.table.rows.length := by
    unfold count
    rw [if_pos o.opened, o.there]
    rfl
  unfold SqliteEventRepository.prune EventsTable.pruned
  rw [if_pos o.opened, size, o.there]
  by_cases few : o.table.rows.length ≤ maxRows
  · simp only [if_pos few]
    exact ⟨o.opened, o.there⟩
  · simp only [if_neg few]
    exact o.write_table _

def insert [Autoincrement] (o : OpenRepository) (event : StorableEvent) (now : ℤ) :
    OpenRepository where
  repo := (o.repo.insert event.1 now).2
  table := o.table.inserted event.1 now
  opened := (o.insert_table event.1 now).1
  there := (o.insert_table event.1 now).2
  written := EventsTable.inserted_written o.written event now

def prune (o : OpenRepository) (maxRows : ℕ) : OpenRepository where
  repo := o.repo.prune maxRows
  table := o.table.pruned maxRows
  opened := (o.prune_table maxRows).1
  there := (o.prune_table maxRows).2
  written := fun row member => o.written row (o.table.pruned_subset maxRows member)

theorem condition_read {o : OpenRepository} {row : EventRow} (there : row ∈ o.table.rows) (after : ℤ)
    (type : Option EventType) :
    condition after type row =
      (decide (after < (read row).rowId) && BoundedLog.wanted type (read row)) := by
  obtain ⟨event, now, column, given⟩ := EventsTable.written_row o.written there
  unfold condition BoundedLog.wanted
  rw [column, given]
  cases type with
  | none => rfl
  | some type => simp [toInt_beq, VisionEvent.stored]

/-- A query with a limit that `int` can hold is a page of the log, behind the converted id. -/
theorem query_page (o : OpenRepository) (asked : EventQuery) (limit : asked.limit < 2 ^ 31) :
    o.repo.query asked = Paging.page StoredEvent.rowId (BoundedLog.wanted asked.type) asked.limit
      (qlonglong asked.afterRowId) o.log.rows := by
  have kept : Word.signed 32 asked.limit = asked.limit := Word.signed_of_fits (by omega) (by omega)
  have chosen (after : ℤ) : (o.table.rows.filter (condition after asked.type)).map read =
      o.log.rows.filter (fun stored =>
        decide (after < stored.rowId) && BoundedLog.wanted asked.type stored) := by
    simp only [log, EventsTable.log, List.filter_map]
    apply congrArg
    apply List.filter_congr
    intro row member
    exact condition_read member after asked.type
  unfold SqliteEventRepository.query Paging.page
  rw [if_pos o.opened, o.there]
  simp only [EventsTable.select_eq, EventsTable.limited, kept]
  rw [if_neg (by omega), Int.toNat_natCast, List.map_take, chosen]

/-- The id of the last row seen survives its conversion, or the log has nothing of the type. -/
def QueryExact (log : BoundedLog) (asked : EventQuery) : Prop :=
  asked.afterRowId < 2 ^ 63 ∨ ∀ stored ∈ log.rows, BoundedLog.wanted asked.type stored = false

theorem query_exact (o : OpenRepository) (asked : EventQuery) (after : asked.afterRowId < 2 ^ 64)
    (some_ : 0 < asked.limit) (limit : asked.limit < 2 ^ 31) :
    o.repo.query asked = o.log.answer asked ↔ QueryExact o.log asked := by
  rw [query_page o asked limit]
  unfold BoundedLog.answer
  by_cases fits : asked.afterRowId < 2 ^ 63
  · have same : qlonglong asked.afterRowId = asked.afterRowId :=
      Word.signed_of_fits (by omega) (by omega)
    rw [same]
    exact ⟨fun _ => Or.inl fits, fun _ => rfl⟩
  · have negative : qlonglong asked.afterRowId < 0 := Word.signed_of_wraps (by omega) (by omega)
    have positive : ∀ stored ∈ o.log.rows, qlonglong asked.afterRowId < stored.rowId := by
      intro stored member
      obtain ⟨row, there, rfl⟩ := List.mem_map.mp member
      have range := o.table.known row there
      rw [read_rowId]
      omega
    have beyond : Paging.page StoredEvent.rowId (BoundedLog.wanted asked.type) asked.limit
        asked.afterRowId o.log.rows = [] := by
      unfold Paging.page
      rw [List.filter_eq_nil_iff.mpr, List.take_nil]
      intro stored member
      have below := o.log.known stored member
      have bound : o.log.top < 2 ^ 63 := o.table.bounded
      simp only [Bool.and_eq_true, decide_eq_true_eq, not_and]
      omega
    rw [beyond]
    unfold Paging.page
    rw [List.take_eq_nil_iff, List.filter_eq_nil_iff]
    simp only [QueryExact, fits, false_or]
    constructor
    · rintro (none_ | nothing) stored member
      · omega
      · simpa [positive stored member] using nothing stored member
    · intro nothing
      exact Or.inr (fun stored member => by simp [nothing stored member])

end OpenRepository

inductive RepositoryWrite where
  | insert (event : StorableEvent) (now : ℤ)
  | prune (maxRows : ℕ)

/-- A query with a limit that `int` can hold. -/
abbrev BoundedQuery := { asked : EventQuery //
  asked.afterRowId < 2 ^ 64 ∧ 0 < asked.limit ∧ asked.limit < 2 ^ 31 }

inductive RepositoryCall where
  | write (change : RepositoryWrite)
  | query (asked : BoundedQuery)

section Calls

variable [ids : Autoincrement]

def OpenRepository.apply (o : OpenRepository) : RepositoryWrite → OpenRepository
  | .insert event now => o.insert event now
  | .prune maxRows => o.prune maxRows

def BoundedLog.apply (log : BoundedLog) : RepositoryWrite → BoundedLog
  | .insert event now => log.record event now
  | .prune maxRows => log.newest maxRows

/-- The repository beside the log it should hold, and each answer beside the one that was due. -/
structure LoggedRun where
  repo : OpenRepository
  due : BoundedLog
  answers : List (List StoredEvent × List StoredEvent) := []

namespace LoggedRun

def start (o : OpenRepository) : LoggedRun where
  repo := o
  due := o.log

def step (r : LoggedRun) : RepositoryCall → LoggedRun
  | .write change => { r with repo := r.repo.apply change, due := r.due.apply change }
  | .query asked =>
    { r with answers := r.answers ++ [(r.repo.repo.query asked.1, r.due.answer asked.1)] }

def Faithful (r : LoggedRun) : Prop :=
  r.repo.log.rows = r.due.rows ∧ ∀ pair ∈ r.answers, pair.1 = pair.2

/-- Where a signed conversion in the call does no harm. -/
def Exact (r : LoggedRun) : RepositoryCall → Prop
  | .write (.insert _ _) => True
  | .write (.prune maxRows) => EventsTable.PruneExact r.due.rows.length maxRows
  | .query asked => OpenRepository.QueryExact r.due asked.1

/-- As long as no conversion did harm, the table holds the log, ids included. -/
structure Agrees (r : LoggedRun) : Prop where
  log : r.repo.log = r.due
  answers : ∀ pair ∈ r.answers, pair.1 = pair.2

omit ids in
theorem Agrees.size {r : LoggedRun} (h : r.Agrees) :
    r.due.rows.length = r.repo.table.rows.length := by
  rw [← h.log]
  exact List.length_map _

theorem agrees_step {r : LoggedRun} (h : r.Agrees) (call : RepositoryCall) (exact_ : r.Exact call) :
    (r.step call).Agrees := by
  rcases call with (⟨event, now⟩ | maxRows) | asked
  · refine ⟨?_, h.answers⟩
    have same : r.repo.log = r.due := h.log
    simp only [step, OpenRepository.apply, BoundedLog.apply, ← same]
    exact EventsTable.inserted_log r.repo.table event now
  · refine ⟨?_, h.answers⟩
    have same : r.repo.log = r.due := h.log
    simp only [Exact, h.size] at exact_
    simp only [step, OpenRepository.apply, BoundedLog.apply, ← same]
    apply Paging.Store.ext
    · exact (EventsTable.pruned_exact r.repo.table maxRows).mpr exact_
    · exact r.repo.table.pruned_seq maxRows
  · refine ⟨h.log, ?_⟩
    intro pair member
    rcases List.mem_append.mp member with before | own
    · exact h.answers pair before
    · rw [List.mem_singleton.mp own, ← h.log]
      apply (r.repo.query_exact asked.1 asked.2.1 asked.2.2.1 asked.2.2.2).mpr
      rw [h.log]
      exact exact_

theorem inexact_step {r : LoggedRun} (h : r.Agrees) (call : RepositoryCall)
    (harm : ¬r.Exact call) : ¬(r.step call).Faithful := by
  rcases call with (⟨event, now⟩ | maxRows) | asked
  · exact absurd trivial harm
  · rintro ⟨rows, -⟩
    have same : r.repo.log = r.due := h.log
    apply harm
    simp only [Exact, h.size]
    apply (EventsTable.pruned_exact r.repo.table maxRows).mp
    simp only [step, OpenRepository.apply, BoundedLog.apply, ← same] at rows
    exact rows
  · rintro ⟨-, answers⟩
    have given := answers _ (List.mem_append_right r.answers (List.mem_singleton_self _))
    simp only [← h.log] at given
    apply harm
    have fine := (r.repo.query_exact asked.1 asked.2.1 asked.2.2.1 asked.2.2.2).mp given
    rw [h.log] at fine
    exact fine

end LoggedRun

namespace OpenRepository

theorem apply_evolves (o : OpenRepository) (change : RepositoryWrite) :
    Paging.Evolves o.log (o.apply change).log := by
  cases change with
  | insert event now =>
    have next : (o.insert event now).log = o.log.record event now :=
      EventsTable.inserted_log o.table event now
    have new := ids.above o.log.top
    simp only [apply, next, BoundedLog.record]
    split
    · refine ⟨Int.le_of_lt new, ?_⟩
      intro stored member
      rcases List.mem_append.mp member with before | own
      · exact Or.inl before
      · rw [List.mem_singleton.mp own]
        exact Or.inr new
    · exact ⟨Int.le_refl _, fun stored member => Or.inl member⟩
  | prune maxRows =>
    constructor
    · exact Int.le_of_eq (o.table.pruned_seq maxRows).symm
    · intro stored member
      obtain ⟨row, there, rfl⟩ := List.mem_map.mp member
      exact Or.inl (List.mem_map_of_mem (o.table.pruned_subset maxRows there))

def askAfter (type : Option EventType) (limit : ℕ) (o : OpenRepository) (rowId : ℤ) :
    List StoredEvent :=
  o.repo.query { type := type, afterRowId := Word.unsigned 64 rowId, limit := limit }

omit ids in
theorem askAfter_page (type : Option EventType) {limit : ℕ} (fits : limit < 2 ^ 31)
    (o : OpenRepository) (rowId : ℤ) (begun : 0 ≤ rowId) (reached : rowId = 0 ∨ rowId ≤ o.log.top) :
    o.askAfter type limit rowId =
      Paging.page StoredEvent.rowId (BoundedLog.wanted type) limit rowId o.log.rows := by
  have below : rowId < 2 ^ 63 := by
    have bound : o.log.top < 2 ^ 63 := o.table.bounded
    omega
  have whole : (Word.unsigned 64 rowId : ℤ) = rowId := by
    unfold Word.unsigned
    have rest : rowId % (2 ^ 64 : ℕ) = rowId := Int.emod_eq_of_lt begun (by omega)
    omega
  have same : qlonglong (Word.unsigned 64 rowId) = rowId := by
    unfold qlonglong
    rw [whole]
    exact Word.signed_of_fits (by omega) (by omega)
  unfold askAfter
  rw [query_page _ _ fits, same]

def browse (type : Option EventType) (limit : ℕ) :
    OpenRepository × Paging.Reader StoredEvent → List (Paging.Turn RepositoryWrite) →
      OpenRepository × Paging.Reader StoredEvent :=
  Machine.run (Paging.step StoredEvent.rowId apply (askAfter type limit))

theorem served (type : Option EventType) {limit : ℕ} (fits : limit < 2 ^ 31) :
    Paging.Served log apply (askAfter type limit) (BoundedLog.wanted type) limit 0 where
  grows := apply_evolves
  answers := askAfter_page type fits

/-- A run of calls keeps the log exactly when no call of it loses by a conversion, and paging is
sound whatever is written between the pages: no record comes twice, none is passed by, and as many
pages as there are records bring every one of them that is still there. -/
theorem log_kept (o : OpenRepository) :
    (∀ calls, (∀ pre, pre <+: calls → (Machine.run LoggedRun.step (.start o) pre).Faithful) ↔
      Machine.EveryStep LoggedRun.step LoggedRun.Exact (.start o) calls) ∧
    ∀ (type : Option EventType) (limit : ℕ), 0 < limit → limit < 2 ^ 31 →
      ∀ turns, let now := browse type limit (o, { after := 0 }) turns
      Paging.Reading (BoundedLog.wanted type) 0 now.1.log now.2 ∧
      ∀ more, now.1.log.rows.length ≤ more.countP Paging.Turn.isPage →
        let later := browse type limit now more
        ∀ stored ∈ now.1.log.rows, BoundedLog.wanted type stored = true →
          stored ∈ later.2.seen ∨ stored ∉ later.1.log.rows := by
  constructor
  · intro calls
    apply Machine.everyStep_iff (I := LoggedRun.Agrees)
    · intro r agrees
      exact ⟨congrArg Paging.Store.rows agrees.log, agrees.answers⟩
    · intro r call agrees fine
      exact LoggedRun.agrees_step agrees call fine
    · intro r call agrees harm
      exact LoggedRun.inexact_step agrees call harm
    · exact ⟨rfl, by simp [LoggedRun.start]⟩
  · intro type limit some_ fits turns now
    have reading := Paging.run_reading (served type fits) o turns
    refine ⟨reading, ?_⟩
    intro more enough later stored member asked
    have positive : 0 < stored.rowId := by
      obtain ⟨row, there, rfl⟩ := List.mem_map.mp member
      exact (now.1.table.known row there).1
    apply Paging.run_arrives (served type fits) some_ asked positive now reading member
    exact (List.length_filter_le _ _).trans enough

end OpenRepository

end Calls

/-- SQLite's own choice. -/
local instance countUp : Autoincrement where
  next id := id + 1
  above id := Int.lt_succ id

/-- A repository opened on a file that was not there. -/
def fresh : OpenRepository where
  repo := (SqliteEventRepository.open_ { disk := fun _ => some .created } "events.sqlite").2
  table := .created
  opened := rfl
  there := rfl
  written := fun _ member => absurd member List.not_mem_nil

def plainEvent : StorableEvent := ⟨{}, by constructor <;> decide⟩

def doorEvent : StorableEvent :=
  ⟨{ type := .lineCrossing, ruleId := "door", trackId := 4, direction := .forward, countIn := 1 },
    by constructor <;> decide⟩

def insertPlain : RepositoryCall := .write (.insert plainEvent 0)

def beyondIds : BoundedQuery := ⟨{ afterRowId := 2 ^ 63, limit := 1 }, by decide⟩

def queryAll : BoundedQuery := ⟨{}, by decide⟩

def queryDoors : BoundedQuery :=
  ⟨{ type := some .lineCrossing, afterRowId := 1, limit := 10 }, by decide⟩

/-- Two kinds of events, a query for one of them, a prune; and a reader whose pages come between
the writes. -/
theorem fresh_log_kept :
    (Machine.run LoggedRun.step (.start fresh) [insertPlain, .write (.insert doorEvent 5),
      .query queryDoors, .write (.prune 1), insertPlain, .query queryAll]).Faithful ∧
      let now := OpenRepository.browse none 1 (fresh, { after := 0 })
        [.write (.insert plainEvent 0), .page, .write (.insert doorEvent 5),
          .write (.insert plainEvent 7)]
      let later := OpenRepository.browse none 1 now [.page, .write (.prune 1), .page, .page]
      ⟨2, 5, doorEvent.1⟩ ∈ later.2.seen ∨ ⟨2, 5, doorEvent.1⟩ ∉ later.1.log.rows := by
  obtain ⟨calls, pages⟩ := fresh.log_kept
  refine ⟨?_, ?_⟩
  · have exact_ : Machine.EveryStep LoggedRun.step LoggedRun.Exact (.start fresh)
        [insertPlain, .write (.insert doorEvent 5), .query queryDoors, .write (.prune 1),
          insertPlain, .query queryAll] :=
      ⟨trivial, trivial, Or.inl (by decide), Or.inr (Or.inl (by decide +kernel)), trivial,
        Or.inl (by decide), trivial⟩
    exact (calls _).mpr exact_ _ (List.prefix_refl _)
  · intro now
    exact (pages none 1 (by decide) (by decide) [.write (.insert plainEvent 0), .page,
      .write (.insert doorEvent 5), .write (.insert plainEvent 7)]).2
      [.page, .write (.prune 1), .page, .page] (by decide +kernel) _ (by decide +kernel) rfl

theorem filled (n : ℕ) (fits : n < 2 ^ 63) :
    let r := Machine.run LoggedRun.step (.start fresh) (List.replicate n insertPlain)
    r.Agrees ∧ r.due.top = n ∧ r.due.rows.length = n := by
  induction n with
  | zero => exact ⟨⟨rfl, by simp [LoggedRun.start]⟩, rfl, rfl⟩
  | succ n ih =>
    obtain ⟨agrees, top, size⟩ := ih (by omega)
    simp only [List.replicate_succ', Machine.run_append, Machine.run_cons, Machine.run_nil]
    generalize Machine.run LoggedRun.step (.start fresh) (List.replicate n insertPlain) = r at *
    have room : countUp.next r.due.top < 2 ^ 63 := by
      have next : countUp.next r.due.top = r.due.top + 1 := rfl
      omega
    have grown : (r.step insertPlain).due =
        r.due.append ⟨countUp.next r.due.top, 0, plainEvent.1.stored⟩ (countUp.above _) :=
      if_pos room
    refine ⟨LoggedRun.agrees_step agrees insertPlain trivial, ?_, ?_⟩
    · have next : (r.step insertPlain).due.top = r.due.top + 1 := congrArg Paging.Store.top grown
      omega
    · have more : (r.step insertPlain).due.rows.length = _ :=
        congrArg (fun log => log.rows.length) grown
      simp only [Paging.Store.append, List.length_append, List.length_singleton, size] at more
      exact more

theorem conversions_lose :
    ¬(Machine.run LoggedRun.step (.start fresh) [insertPlain, .query beyondIds]).Faithful ∧
      ¬(Machine.run LoggedRun.step (.start fresh)
        (List.replicate (2 ^ 31 + 1) insertPlain ++ [.write (.prune 1)])).Faithful := by
  constructor
  · obtain ⟨agrees, -, size⟩ := filled 1 (by decide)
    apply LoggedRun.inexact_step agrees (.query beyondIds)
    rintro (near | nothing)
    · exact absurd near (by decide)
    · obtain ⟨stored, there⟩ := List.exists_mem_of_length_pos (Nat.lt_of_lt_of_eq Nat.one_pos size.symm)
      have found := nothing stored there
      simp [beyondIds, BoundedLog.wanted] at found
  · obtain ⟨agrees, -, size⟩ := filled (2 ^ 31 + 1) (by decide)
    rw [Machine.run_append]
    apply LoggedRun.inexact_step agrees (.write (.prune 1))
    simp only [LoggedRun.Exact, size, EventsTable.PruneExact]
    omega

end VisionLab
