import VisionLab.Storage.SqliteEventRepository

/-! The list of the Events page: the rows of earlier sessions in front, then the events of this one,
appended as they come. The ids of a session begin at one; the model remembers the largest id it has
appended and takes only what lies above it. -/
namespace VisionLab

/-- The text of the local time is left out: it repeats `wallUtcMs`. -/
structure EventModelRow where
  sessionEventId : ℕ := 0
  rowId : ℤ := 0
  wallUtcMs : ℤ := 0
  type : ℤ := 0
  ruleId : String := ""
  trackId : ℕ := 0
  label : String := ""
  confidence : ℚ := 0
  message : String := ""
  direction : ℤ := 0
  countIn : ℕ := 0
  countOut : ℕ := 0
  occupancy : ℕ := 0
  frameId : ℤ := 0
  deriving DecidableEq, Repr

structure EventModel where
  rows : List EventModelRow := []
  maxSessionEventId : ℕ := 0
  historyLoaded : Bool := false
  deriving DecidableEq, Repr

namespace EventModel

def beginSession (m : EventModel) : EventModel := { m with maxSessionEventId := 0 }

def fromEvent (wallUtcMs rowId : ℤ) (event : VisionEvent) : EventModelRow where
  sessionEventId := event.eventId
  rowId := rowId
  wallUtcMs := wallUtcMs
  type := event.type.toInt
  ruleId := event.ruleId
  trackId := event.trackId
  label := event.label
  confidence := event.confidence
  message := event.message
  direction := event.direction.toInt
  countIn := event.countIn
  countOut := event.countOut
  occupancy := event.occupancy
  frameId := event.frameId

def appendRows (rows : List EventModelRow) (m : EventModel) : EventModel :=
  { m with rows := m.rows ++ rows }

def fromStored (stored : StoredEvent) : EventModelRow :=
  fromEvent stored.wallUtcMs stored.rowId stored.event

def loadHistory (history : List StoredEvent) (m : EventModel) : EventModel :=
  if m.historyLoaded = false ∧ history ≠ [] then
    { m.appendRows (history.map fromStored) with historyLoaded := true }
  else m

/-- One pass of the loop over the snapshot: the rows so far and the new largest id. -/
def ingestEvent (wall : ℤ) (old : ℕ) (found : List EventModelRow × ℕ) (event : VisionEvent) :
    List EventModelRow × ℕ :=
  if event.eventId ≤ old then found
  else
    (found.1 ++ [fromEvent wall 0 event],
      if found.2 < event.eventId then event.eventId else found.2)

/-- `wall` is the time that the call reads. -/
def ingest (wall : ℤ) (snapshot : List VisionEvent) (history : List StoredEvent) (m : EventModel) :
    EventModel :=
  let m := m.loadHistory history
  let found := snapshot.foldl (ingestEvent wall m.maxSessionEventId) ([], m.maxSessionEventId)
  { m.appendRows found.1 with maxSessionEventId := found.2 }

def beyond (mark : ℕ) (events : List VisionEvent) : List VisionEvent :=
  events.filter (fun event => decide (mark < event.eventId))

theorem foldl_ingestEvent (wall : ℤ) (old : ℕ) (snapshot : List VisionEvent)
    (rows : List EventModelRow) (mark : ℕ) :
    snapshot.foldl (ingestEvent wall old) (rows, mark) =
      (rows ++ (beyond old snapshot).map (fromEvent wall 0),
        ((beyond old snapshot).map VisionEvent.eventId).foldl max mark) := by
  induction snapshot generalizing rows mark with
  | nil => simp only [beyond, List.foldl_nil, List.filter_nil, List.map_nil, List.append_nil]
  | cons event snapshot ih =>
    simp only [List.foldl_cons, ingestEvent]
    by_cases seen : event.eventId ≤ old
    · have skipped : beyond old (event :: snapshot) = beyond old snapshot := by
        simp only [beyond, List.filter_cons, Nat.not_lt.mpr seen, decide_false, Bool.false_eq_true,
          if_false]
      rw [if_pos seen, ih, skipped]
    · have taken : beyond old (event :: snapshot) = event :: beyond old snapshot := by
        simp only [beyond, List.filter_cons, Nat.lt_of_not_le seen, decide_true, if_true]
      have higher : (if mark < event.eventId then event.eventId else mark) =
          max mark event.eventId := by
        split <;> omega
      rw [if_neg seen, ih, taken, higher]
      simp only [List.map_cons, List.foldl_cons, List.append_assoc, List.singleton_append]

theorem foldl_max_range' (mark start n : ℕ) :
    (List.range' (start + 1) n).foldl max mark = if n = 0 then mark else max mark (start + n) := by
  induction n generalizing mark start with
  | zero => rfl
  | succ n ih =>
    rw [List.range'_succ, List.foldl_cons, ih, if_neg (Nat.succ_ne_zero n)]
    split <;> omega

/-- Among consecutive numbers the mark cuts off the first ones, and it moves to the last. -/
theorem beyond_consecutive (mark start : ℕ) (events : List VisionEvent)
    (numbers : events.map VisionEvent.eventId = List.range' (start + 1) events.length) :
    beyond mark events = events.drop (mark - start) ∧
      ((beyond mark events).map VisionEvent.eventId).foldl max mark =
        if events.length = 0 then mark else max mark (start + events.length) := by
  have rest : beyond mark events = events.drop (mark - start) := by
    induction events generalizing start with
    | nil => simp only [beyond, List.filter_nil, List.drop_nil]
    | cons event events ih =>
      rw [List.map_cons, List.length_cons, List.range'_succ] at numbers
      obtain ⟨number, numbers⟩ := List.cons.inj numbers
      have tail := ih (start + 1) numbers
      simp only [beyond, List.filter_cons, number] at tail ⊢
      by_cases seen : start + 1 ≤ mark
      · have one : mark - start = mark - (start + 1) + 1 := by omega
        simp only [Nat.not_lt.mpr seen, decide_false, Bool.false_eq_true, if_false, tail, one,
          List.drop_succ_cons]
      · have none_ : mark - start = 0 ∧ mark - (start + 1) = 0 := by omega
        simp only [Nat.lt_of_not_le seen, decide_true, if_true, tail, none_, List.drop_zero]
  refine ⟨rest, ?_⟩
  have shift : start + 1 + (mark - start) * 1 = start + (mark - start) + 1 := by omega
  rw [rest, List.map_drop, numbers, List.drop_range', shift, foldl_max_range']
  split <;> split <;> omega

theorem ingest_live (wall : ℤ) (snapshot : List VisionEvent) (m : EventModel) :
    m.ingest wall snapshot [] =
      { m with
        rows := m.rows ++ (beyond m.maxSessionEventId snapshot).map (fromEvent wall 0)
        maxSessionEventId :=
          ((beyond m.maxSessionEventId snapshot).map VisionEvent.eventId).foldl max
            m.maxSessionEventId } := by
  have untouched : m.loadHistory [] = m := if_neg (fun given => given.2 rfl)
  simp only [ingest, untouched, foldl_ingestEvent, List.nil_append, appendRows]

end EventModel

end VisionLab
