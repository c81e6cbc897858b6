import Mathlib.Data.List.Sort
import VisionLab.Lib.Word
import VisionLab.Storage.EventWriter

/-! The events database: one SQLite table, written and read column by column through values bound by
position. Unsigned 64-bit fields pass through signed ones, and counts through `int`; these
conversions are kept. A text is bound and read back as it is. -/
namespace VisionLab

/-- The rowids that AUTOINCREMENT chooses: each lies above every rowid the table ever had. -/
class Autoincrement where
  next : ℤ → ℤ
  above : ∀ id, id < next id

namespace EventType

def toInt : EventType → ℤ
  | .roiIntrusion => 0
  | .lineCrossing => 1
  | .loitering => 2
  | .counting => 3

/- No other number is ever stored. -/
def ofInt (n : ℤ) : EventType :=
  if n = 0 then .roiIntrusion
  else if n = 1 then .lineCrossing
  else if n = 2 then .loitering
  else .counting

@[simp] theorem ofInt_toInt (type : EventType) : ofInt type.toInt = type := by cases type <;> rfl

end EventType

namespace CrossingDirection

def toInt : CrossingDirection → ℤ
  | .none => 0
  | .forward => 1
  | .reverse => 2

def ofInt (n : ℤ) : CrossingDirection :=
  if n = 0 then .none
  else if n = 1 then .forward
  else .reverse

@[simp] theorem ofInt_toInt (direction : CrossingDirection) : ofInt direction.toInt = direction := by
  cases direction <;> rfl

end CrossingDirection

inductive SqlValue where
  | null
  | integer (n : ℤ)
  | real (x : ℚ)
  | text (s : String)
  deriving DecidableEq, Repr

namespace SqlValue

/- A column is only ever read as what was bound to it, or as NULL. -/
def toLongLong : SqlValue → ℤ
  | .integer n => n
  | _ => 0

@[simp] theorem toLongLong_integer (n : ℤ) : (integer n).toLongLong = n := rfl

def toULongLong (v : SqlValue) : ℕ := Word.unsigned 64 v.toLongLong
def toInt (v : SqlValue) : ℤ := Word.signed 32 v.toLongLong

def toFloat : SqlValue → ℚ
  | .real x => x
  | _ => 0

def toText : SqlValue → String
  | .text s => s
  | _ => ""

end SqlValue

inductive EventColumn where
  | id | wallUtcMs | pipelineEventId | type | ruleId | sourceId | trackId | classId | label
  | confidence | boxX | boxY | boxW | boxH | frameId | message | snapshotRef | direction
  | countIn | countOut | occupancy
  deriving DecidableEq, Repr

structure EventRow where
  id : ℤ
  cells : List (EventColumn × SqlValue)
  deriving DecidableEq, Repr

/-- A column that the row was not given is NULL. -/
def EventRow.value (row : EventRow) : EventColumn → SqlValue
  | .id => .integer row.id
  | column => (row.cells.lookup column).getD .null

/-- The table with its rows in the order of their ids, and the largest id it ever had. -/
structure EventsTable where
  rows : List EventRow := []
  seq : ℤ := 0
  ascending : rows.Pairwise (fun a b => a.id < b.id)
  known : ∀ row ∈ rows, 0 < row.id ∧ row.id ≤ seq
  positive : 0 ≤ seq
  bounded : seq < 2 ^ 63

namespace EventsTable

theorem rowids_left : (0 : ℤ) < 2 ^ 63 := by decide

def created : EventsTable where
  ascending := List.Pairwise.nil
  known := fun _ member => absurd member List.not_mem_nil
  positive := Int.le_refl 0
  bounded := rowids_left

def notNull : List EventColumn := [.wallUtcMs, .pipelineEventId, .type]

theorem ascending_append {rows : List EventRow} {row : EventRow}
    (ascending : rows.Pairwise (fun a b => a.id < b.id)) (above : ∀ old ∈ rows, old.id < row.id) :
    (rows ++ [row]).Pairwise (fun a b => a.id < b.id) := by
  apply List.pairwise_append.mpr
  refine ⟨ascending, List.pairwise_singleton _ _, ?_⟩
  intro old member new same
  rw [List.mem_singleton.mp same]
  exact above old member

theorem known_append {rows : List EventRow} {row : EventRow} {seq : ℤ}
    (known : ∀ old ∈ rows, 0 < old.id ∧ old.id ≤ seq) (start : 0 ≤ seq) (above : seq < row.id) :
    ∀ old ∈ rows ++ [row], 0 < old.id ∧ old.id ≤ row.id := by
  intro old member
  rcases List.mem_append.mp member with before | own
  · have range := known old before
    omega
  · rw [List.mem_singleton.mp own]
    omega

/-- `INSERT INTO events (columns) VALUES (values)`; it fails on a NULL that the schema forbids and
when there is no id left. -/
def insert [ids : Autoincrement] (t : EventsTable) (columns : List EventColumn)
    (values : List SqlValue) : Option EventsTable :=
  let row : EventRow := ⟨ids.next t.seq, columns.zip values⟩
  if fits : row.id < 2 ^ 63 ∧ ∀ column ∈ notNull, row.value column ≠ .null then
    some {
      rows := t.rows ++ [row]
      seq := row.id
      ascending := ascending_append t.ascending (fun old member =>
        Int.lt_of_le_of_lt (t.known old member).2 (ids.above t.seq))
      known := known_append t.known t.positive (ids.above t.seq)
      positive := Int.le_of_lt (Int.lt_of_le_of_lt t.positive (ids.above t.seq))
      bounded := fits.1 }
  else none

def ordered (rows : List EventRow) : List EventRow := rows.insertionSort (fun a b => a.id ≤ b.id)

/-- `LIMIT`; a negative limit is none. -/
def limited (limit : ℤ) (rows : List EventRow) : List EventRow :=
  if limit < 0 then rows else rows.take limit.toNat

def select (t : EventsTable) (condition : EventRow → Bool) (limit : ℤ) : List EventRow :=
  limited limit (ordered (t.rows.filter condition))

theorem ordered_ascending {rows : List EventRow}
    (ascending : rows.Pairwise (fun a b => a.id < b.id)) : ordered rows = rows := by
  apply List.Pairwise.insertionSort_eq
  exact ascending.imp (fun {_ _} below => Int.le_of_lt below)

theorem select_eq (t : EventsTable) (condition : EventRow → Bool) (limit : ℤ) :
    t.select condition limit = limited limit (t.rows.filter condition) := by
  unfold select
  rw [ordered_ascending (t.ascending.filter _)]

theorem nodup_ids (t : EventsTable) : (t.rows.map EventRow.id).Nodup := by
  apply List.pairwise_map.mpr
  exact t.ascending.imp (fun {_ _} below => Int.ne_of_lt below)

def delete (t : EventsTable) (ids : List ℤ) : EventsTable where
  rows := t.rows.filter (fun row => decide (row.id ∉ ids))
  seq := t.seq
  ascending := t.ascending.filter _
  known := fun row member => t.known row (List.mem_of_mem_filter member)
  positive := t.positive
  bounded := t.bounded

theorem delete_first (t : EventsTable) (n : ℕ) :
    (t.delete ((t.rows.take n).map EventRow.id)).rows = t.rows.drop n := by
  have distinct := t.nodup_ids
  have whole : t.rows.take n ++ t.rows.drop n = t.rows := List.take_append_drop n t.rows
  rw [← whole, List.map_append] at distinct
  have apart := List.disjoint_of_nodup_append distinct
  let stays (row : EventRow) : Bool := decide (row.id ∉ (t.rows.take n).map EventRow.id)
  have gone : (t.rows.take n).filter stays = [] := by
    apply List.filter_eq_nil_iff.mpr
    intro row member
    simp only [stays, decide_eq_true_eq, not_not]
    exact List.mem_map_of_mem member
  have kept : (t.rows.drop n).filter stays = t.rows.drop n := by
    apply List.filter_eq_self.mpr
    intro row member
    exact decide_eq_true (fun listed => apart listed (List.mem_map_of_mem member))
  calc t.rows.filter stays
      = (t.rows.take n ++ t.rows.drop n).filter stays := by rw [whole]
    _ = t.rows.drop n := by rw [List.filter_append, gone, kept, List.nil_append]

end EventsTable

/-- The widths of the fields that a conversion depends on. -/
structure VisionEvent.Fits (event : VisionEvent) : Prop where
  eventId : event.eventId < 2 ^ 64
  trackId : event.trackId < 2 ^ 64
  countIn : event.countIn < 2 ^ 64
  countOut : event.countOut < 2 ^ 64
  occupancy : event.occupancy < 2 ^ 64
  classId : -2 ^ 31 ≤ event.classId ∧ event.classId < 2 ^ 31
  x : -2 ^ 31 ≤ event.box.x ∧ event.box.x < 2 ^ 31
  y : -2 ^ 31 ≤ event.box.y ∧ event.box.y < 2 ^ 31
  width : -2 ^ 31 ≤ event.box.width ∧ event.box.width < 2 ^ 31
  height : -2 ^ 31 ≤ event.box.height ∧ event.box.height < 2 ^ 31

/-- What the sources call an event, with the fields in the range of their types. -/
abbrev StorableEvent := { event : VisionEvent // event.Fits }

def VisionEvent.stored (event : VisionEvent) : VisionEvent := { event with timestamp := 0 }

/-- What SQLite finds under each path, `none` where it cannot open a database with the schema; the
path of the connection; and whether the repository is open. -/
structure SqliteEventRepository where
  disk : String → Option EventsTable
  m_db : Option String := none
  m_open : Bool := false

namespace SqliteEventRepository

open EventColumn

def insertColumns : List EventColumn :=
  [wallUtcMs, pipelineEventId, type, ruleId, sourceId, trackId, classId, label, confidence, boxX,
    boxY, boxW, boxH, frameId, message, snapshotRef, direction, countIn, countOut, occupancy]

def qlonglong (n : ℕ) : ℤ := Word.signed 64 n

def boundValues (event : VisionEvent) (wallUtcMs : ℤ) : List SqlValue :=
  [.integer wallUtcMs,
    .integer (qlonglong event.eventId),
    .integer event.type.toInt,
    .text event.ruleId,
    .text event.sourceId,
    .integer (qlonglong event.trackId),
    .integer event.classId,
    .text event.label,
    .real event.confidence,
    .integer event.box.x,
    .integer event.box.y,
    .integer event.box.width,
    .integer event.box.height,
    .integer event.frameId,
    .text event.message,
    .text event.snapshotRef,
    .integer event.direction.toInt,
    .integer (qlonglong event.countIn),
    .integer (qlonglong event.countOut),
    .integer (qlonglong event.occupancy)]

def selectColumns : List EventColumn :=
  [id, wallUtcMs, pipelineEventId, type, ruleId, sourceId, trackId, classId, label, confidence,
    boxX, boxY, boxW, boxH, frameId, message, snapshotRef, direction, countIn, countOut, occupancy]

/-- The steady clock's time is not stored. -/
def eventFromQuery (value : ℕ → SqlValue) : VisionEvent where
  eventId := (value 2).toULongLong
  type := EventType.ofInt (value 3).toInt
  ruleId := (value 4).toText
  sourceId := (value 5).toText
  trackId := (value 6).toULongLong
  classId := (value 7).toInt
  label := (value 8).toText
  confidence := (value 9).toFloat
  box := ⟨(value 10).toInt, (value 11).toInt, (value 12).toInt, (value 13).toInt⟩
  frameId := (value 14).toLongLong
  message := (value 15).toText
  snapshotRef := (value 16).toText
  direction := CrossingDirection.ofInt (value 17).toInt
  countIn := (value 18).toULongLong
  countOut := (value 19).toULongLong
  occupancy := (value 20).toULongLong

def storedFromQuery (value : ℕ → SqlValue) : StoredEvent where
  rowId := (value 0).toLongLong
  wallUtcMs := (value 1).toLongLong
  event := eventFromQuery value

/-- The record of a row, read by position. -/
def read (row : EventRow) : StoredEvent :=
  storedFromQuery (fun i => ((selectColumns.map row.value)[i]?).getD .null)

@[simp] theorem read_rowId (row : EventRow) : (read row).rowId = row.id := rfl

@[simp] theorem toULongLong_qlonglong {n : ℕ} (fits : n < 2 ^ 64) :
    (SqlValue.integer (qlonglong n)).toULongLong = n := by
  rw [SqlValue.toULongLong, SqlValue.toLongLong_integer, qlonglong]
  exact Word.unsigned_signed fits

@[simp] theorem toInt_integer {n : ℤ} (fits : -2 ^ 31 ≤ n ∧ n < 2 ^ 31) :
    (SqlValue.integer n).toInt = n := by
  rw [SqlValue.toInt, SqlValue.toLongLong_integer]
  exact Word.signed_of_fits (by omega) (by omega)

theorem toInt_type (type : EventType) : (SqlValue.integer type.toInt).toInt = type.toInt := by
  cases type <;> decide

theorem toInt_beq (a b : EventType) :
    (SqlValue.integer a.toInt == SqlValue.integer b.toInt) = (a == b) := by
  cases a <;> cases b <;> rfl

theorem toInt_direction (direction : CrossingDirection) :
    (SqlValue.integer direction.toInt).toInt = direction.toInt := by
  cases direction <;> decide

/-- The twenty columns come back from where they were put. -/
theorem read_inserted (rowId wallUtcMs : ℤ) {event : VisionEvent} (fits : event.Fits) :
    read ⟨rowId, insertColumns.zip (boundValues event wallUtcMs)⟩ =
      { rowId := rowId, wallUtcMs := wallUtcMs, event := event.stored } := by
  have unfolded : read ⟨rowId, insertColumns.zip (boundValues event wallUtcMs)⟩ =
      { rowId := rowId
        wallUtcMs := wallUtcMs
        event :=
          { eventId := (SqlValue.integer (qlonglong event.eventId)).toULongLong
            type := EventType.ofInt (SqlValue.integer event.type.toInt).toInt
            ruleId := event.ruleId
            sourceId := event.sourceId
            trackId := (SqlValue.integer (qlonglong event.trackId)).toULongLong
            classId := (SqlValue.integer event.classId).toInt
            label := event.label
            confidence := event.confidence
            box :=
              ⟨(SqlValue.integer event.box.x).toInt, (SqlValue.integer event.box.y).toInt,
                (SqlValue.integer event.box.width).toInt, (SqlValue.integer event.box.height).toInt⟩
            frameId := event.frameId
            message := event.message
            snapshotRef := event.snapshotRef
            direction := CrossingDirection.ofInt (SqlValue.integer event.direction.toInt).toInt
            countIn := (SqlValue.integer (qlonglong event.countIn)).toULongLong
            countOut := (SqlValue.integer (qlonglong event.countOut)).toULongLong
            occupancy := (SqlValue.integer (qlonglong event.occupancy)).toULongLong } } := rfl
  rw [unfolded, toULongLong_qlonglong fits.eventId, toULongLong_qlonglong fits.trackId,
    toULongLong_qlonglong fits.countIn, toULongLong_qlonglong fits.countOut,
    toULongLong_qlonglong fits.occupancy, toInt_integer fits.classId, toInt_integer fits.x,
    toInt_integer fits.y, toInt_integer fits.width, toInt_integer fits.height, toInt_type,
    toInt_direction, EventType.ofInt_toInt, CrossingDirection.ofInt_toInt]
  rfl

def table? (repo : SqliteEventRepository) : Option EventsTable := repo.m_db.bind repo.disk

def write (repo : SqliteEventRepository) (table : EventsTable) : SqliteEventRepository :=
  { repo with disk := fun path => if repo.m_db = some path then some table else repo.disk path }

def close (repo : SqliteEventRepository) : SqliteEventRepository :=
  { repo with m_db := none, m_open := false }

def open_ (repo : SqliteEventRepository) (dbPath : String) : Bool × SqliteEventRepository :=
  if dbPath = "" then (false, repo.close)
  else
    match repo.disk dbPath with
    | none => (false, repo.close)
    | some _ => (true, { repo.close with m_db := some dbPath, m_open := true })

def insert [Autoincrement] (repo : SqliteEventRepository) (event : VisionEvent) (wallUtcMs : ℤ) :
    Bool × SqliteEventRepository :=
  if repo.m_open then
    match repo.table?.bind (fun table => table.insert insertColumns (boundValues event wallUtcMs))
    with
    | none => (false, repo)
    | some table => (true, repo.write table)
  else (false, repo)

/-- `id > :after`, with `AND type = :type` when the query names a type. -/
def condition (after : ℤ) (type : Option EventType) (row : EventRow) : Bool :=
  decide (after < row.id) &&
    match type with
    | none => true
    | some type => row.value .type == .integer type.toInt

def query (repo : SqliteEventRepository) (query : EventQuery) : List StoredEvent :=
  if repo.m_open then
    match repo.table? with
    | none => []
    | some table =>
      (table.select (condition (qlonglong query.afterRowId) query.type)
        (Word.signed 32 query.limit)).map read
  else []

def count (repo : SqliteEventRepository) : ℕ :=
  if repo.m_open then (repo.table?.map (fun table => table.rows.length)).getD 0 else 0

def prune (repo : SqliteEventRepository) (maxRows : ℕ) : SqliteEventRepository :=
  if repo.m_open then
    let n := repo.count
    if n ≤ maxRows then repo
    else
      match repo.table? with
      | none => repo
      | some table =>
        let extra := Word.signed 32 (n - maxRows : ℕ)
        repo.write (table.delete ((table.select (fun _ => true) extra).map EventRow.id))
  else repo

instance [Autoincrement] : IEventRepository SqliteEventRepository where
  open_ := open_
  insert := insert
  query := query
  prune := prune
  close := close

end SqliteEventRepository

end VisionLab
