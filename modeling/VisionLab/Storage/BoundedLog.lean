import VisionLab.Lib.Paging
import VisionLab.Storage.SqliteEventRepository

/-! The repository as a log that forgets its oldest records. `BoundedLog` says what the database is
for; the table follows it step by step, except where a count or an id does not survive its signed
conversion. -/
namespace VisionLab

/-- The stored records in the order of their ids, which is the order of their insertion. -/
abbrev BoundedLog := Paging.Store StoredEvent StoredEvent.rowId

namespace BoundedLog

def record [ids : Autoincrement] (log : BoundedLog) (event : StorableEvent) (now : ℤ) :
    BoundedLog :=
  if ids.next log.top < 2 ^ 63 then
    log.append ⟨ids.next log.top, now, event.1.stored⟩ (ids.above log.top)
  else log

def wanted (type : Option EventType) (stored : StoredEvent) : Bool :=
  match type with
  | none => true
  | some type => stored.event.type == type

def answer (log : BoundedLog) (asked : EventQuery) : List StoredEvent :=
  Paging.page StoredEvent.rowId (wanted asked.type) asked.limit asked.afterRowId log.rows

end BoundedLog

namespace EventsTable

/-- Every row came from the repository's `INSERT`. -/
def Written (t : EventsTable) : Prop :=
  ∀ row ∈ t.rows, ∃ (event : StorableEvent) (now : ℤ), row.cells =
    SqliteEventRepository.insertColumns.zip (SqliteEventRepository.boundValues event.1 now)

def log (t : EventsTable) : BoundedLog where
  rows := t.rows.map SqliteEventRepository.read
  top := t.seq
  ascending := List.pairwise_map.mpr t.ascending
  known := by
    intro stored member
    obtain ⟨row, there, rfl⟩ := List.mem_map.mp member
    exact (t.known row there).2

open SqliteEventRepository

def inserted [Autoincrement] (t : EventsTable) (event : VisionEvent) (now : ℤ) : EventsTable :=
  (t.insert insertColumns (boundValues event now)).getD t

def pruned (t : EventsTable) (maxRows : ℕ) : EventsTable :=
  if t.rows.length ≤ maxRows then t
  else t.delete ((t.select (fun _ => true)
    (Word.signed 32 (t.rows.length - maxRows : ℕ))).map EventRow.id)

theorem written_row {t : EventsTable} (written : t.Written) {row : EventRow} (there : row ∈ t.rows) :
    ∃ (event : StorableEvent) (now : ℤ), row.value .type = .integer event.1.type.toInt ∧
      read row = ⟨row.id, now, event.1.stored⟩ := by
  obtain ⟨event, now, cells⟩ := written row there
  obtain ⟨id, _⟩ := row
  obtain rfl := cells
  exact ⟨event, now, rfl, read_inserted id now event.2⟩

section Insert

variable [ids : Autoincrement]

theorem insert_eq (t : EventsTable) (event : VisionEvent) (now : ℤ) :
    (t.insert insertColumns (boundValues event now) = none ∧ ¬ids.next t.seq < 2 ^ 63) ∨
      ∃ next, t.insert insertColumns (boundValues event now) = some next ∧
        ids.next t.seq < 2 ^ 63 ∧ next.seq = ids.next t.seq ∧
        next.rows = t.rows ++ [⟨ids.next t.seq, insertColumns.zip (boundValues event now)⟩] := by
  have given : ∀ column ∈ notNull, EventRow.value
      ⟨ids.next t.seq, insertColumns.zip (boundValues event now)⟩ column ≠ .null := by
    intro column member
    simp only [notNull, List.mem_cons, List.not_mem_nil, or_false] at member
    rcases member with rfl | rfl | rfl <;> exact SqlValue.noConfusion
  by_cases room : ids.next t.seq < 2 ^ 63
  · right
    exact ⟨_, dif_pos ⟨room, given⟩, room, rfl, rfl⟩
  · left
    exact ⟨dif_neg (fun fits => room fits.1), room⟩

theorem inserted_log (t : EventsTable) (event : StorableEvent) (now : ℤ) :
    (t.inserted event.1 now).log = t.log.record event now := by
  unfold inserted BoundedLog.record
  rcases insert_eq t event.1 now with ⟨full, room⟩ | ⟨next, done, room, seq, rows⟩
  · have shut : ¬ids.next t.log.top < 2 ^ 63 := room
    rw [full, if_neg shut, Option.getD_none]
  · have free : ids.next t.log.top < 2 ^ 63 := room
    rw [done, if_pos free, Option.getD_some]
    apply Paging.Store.ext
    · simp only [log, Paging.Store.append, rows, List.map_append, List.map_cons, List.map_nil,
        read_inserted _ now event.2]
    · exact seq

theorem inserted_written {t : EventsTable} (written : t.Written) (event : StorableEvent) (now : ℤ) :
    (t.inserted event.1 now).Written := by
  unfold inserted
  rcases insert_eq t event.1 now with ⟨full, -⟩ | ⟨next, done, -, -, rows⟩
  · simpa [full] using written
  · intro row member
    rw [done, Option.getD_some, rows] at member
    rcases List.mem_append.mp member with before | own
    · exact written row before
    · rw [List.mem_singleton.mp own]
      exact ⟨event, now, rfl⟩

end Insert

/-- The first rows go, as many as the converted count says; a negative one takes them all. -/
theorem pruned_rows (t : EventsTable) (maxRows : ℕ) (more : maxRows < t.rows.length) :
    let extra := Word.signed 32 (t.rows.length - maxRows : ℕ)
    (t.pruned maxRows).rows = if extra < 0 then [] else t.rows.drop extra.toNat := by
  intro extra
  have all : t.rows.filter (fun _ => true) = t.rows := List.filter_true t.rows
  unfold pruned
  rw [if_neg (Nat.not_le.mpr more), select_eq, all]
  unfold limited
  split
  · have whole := delete_first t t.rows.length
    rwa [List.take_length, List.drop_length] at whole
  · exact delete_first t _

theorem pruned_seq (t : EventsTable) (maxRows : ℕ) : (t.pruned maxRows).seq = t.seq := by
  unfold pruned
  split <;> rfl

theorem pruned_subset (t : EventsTable) (maxRows : ℕ) : (t.pruned maxRows).rows ⊆ t.rows := by
  unfold pruned
  split
  · exact List.Subset.refl _
  · intro row member
    exact List.mem_of_mem_filter member

/-- The count of rows to drop survives its conversion to `int`, or all rows are to go and the
conversion turns it negative. -/
def PruneExact (size maxRows : ℕ) : Prop :=
  size ≤ maxRows ∨ size - maxRows < 2 ^ 31 ∨ maxRows = 0 ∧ Word.signed 32 size < 0

theorem pruned_exact (t : EventsTable) (maxRows : ℕ) :
    (t.pruned maxRows).log.rows = t.log.rows.rtake maxRows ↔
      PruneExact t.rows.length maxRows := by
  have size : t.log.rows.length = t.rows.length := List.length_map _
  by_cases few : t.rows.length ≤ maxRows
  · have same : t.pruned maxRows = t := if_pos few
    rw [same, List.rtake.eq_1, size, Nat.sub_eq_zero_of_le few]
    simp [PruneExact, few]
  · have rows := pruned_rows t maxRows (Nat.not_le.mp few)
    simp only at rows
    by_cases fits : t.rows.length - maxRows < 2 ^ 31
    · have exact_ : Word.signed 32 (t.rows.length - maxRows : ℕ) = (t.rows.length - maxRows : ℕ) :=
        Word.signed_of_fits (by omega) (by omega)
      rw [exact_, if_neg (by omega), Int.toNat_natCast] at rows
      constructor
      · intro _
        exact Or.inr (Or.inl fits)
      · intro _
        simp only [log, rows, List.rtake.eq_1, List.length_map, List.map_drop]
    · have below : Word.signed 32 (t.rows.length - maxRows : ℕ) < (2 ^ 31 : ℕ) :=
        Word.signed_lt 31 _
      constructor
      · intro same
        have lengths := congrArg List.length same
        simp only [log, rows, List.rtake.eq_1, List.length_map, List.length_drop] at lengths
        split at lengths
        · rename_i negative
          simp only [List.length_nil] at lengths
          have none_ : maxRows = 0 := by omega
          subst none_
          exact Or.inr (Or.inr ⟨rfl, by simpa using negative⟩)
        · simp only [List.length_drop] at lengths
          omega
      · rintro (enough | small | ⟨rfl, negative⟩)
        · exact absurd enough few
        · exact absurd small fits
        · rw [Nat.sub_zero, if_pos negative] at rows
          simp [log, rows, List.rtake.eq_1]

end EventsTable

end VisionLab
