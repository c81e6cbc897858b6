import VisionLab.Core.QueueHistory
import VisionLab.Core.Types
import VisionLab.Lib.Machine

/-! The writer of the event database: a queue of commands, the thread that carries them out, and the
calls of the GUI thread. A step of the thread is one access to the queue or to the database. -/
namespace VisionLab

structure EventQuery where
  type : Option EventType := none
  afterRowId : ℕ := 0
  limit : ℕ := 500
  deriving DecidableEq, Repr

structure StoredEvent where
  rowId : ℤ := 0
  wallUtcMs : ℤ := 0
  event : VisionEvent
  deriving DecidableEq, Repr

class IEventRepository (R : Type) where
  open_ : R → String → Bool × R
  insert : R → VisionEvent → ℤ → Bool × R
  query : R → EventQuery → List StoredEvent
  prune : R → ℕ → R
  close : R → R

/-- Receivers and callbacks by name; a query may come without either. -/
structure QueryJob where
  query : EventQuery := {}
  receiver : Option ℕ
  onResult : Option ℕ
  deriving DecidableEq, Repr

inductive Command where
  | event (event : VisionEvent)
  | query (job : QueryJob)
  deriving DecidableEq, Repr

namespace Command

def event? : Command → Option VisionEvent
  | .event emitted => some emitted
  | .query _ => none

def asked? : Command → Option QueryJob
  | .event _ => none
  | .query job => job.onResult.map (fun _ => job)

end Command

/-- Where the thread of the writer stands, with the command in its hands. -/
inductive WriterState where
  | pop
  | insert (event : VisionEvent)
  | prune (event : VisionEvent) (now : ℤ)
  | query (job : QueryJob)
  | done
  deriving DecidableEq, Repr

def WriterState.inHand : WriterState → List Command
  | .insert event | .prune event _ => [.event event]
  | .query job => [.query job]
  | .pop | .done => []

/-- The GUI thread in `stop`: each phase names the last thing it has done. -/
inductive WriterStop where
  | none | queueClosed | joined | queueDropped | repoClosed | returned
  deriving DecidableEq, Repr

structure Answer where
  receiver : ℕ
  onResult : ℕ
  rows : List StoredEvent
  deriving DecidableEq, Repr

/-- A query as the database saw it: the commands carried out before, the rows they wrote and the
database that was asked. -/
structure Asked (R : Type) where
  job : QueryJob
  before : List Command
  writes : List (VisionEvent × ℤ)
  repo : R

/-- What an observer of the writer has seen; the program keeps none of it. -/
structure WriterRecord (R : Type) where
  handled : List Command := []
  writes : List (VisionEvent × ℤ) := []
  asked : List (Asked R) := []
  ledger : Fifo.Ledger Command := {}

structure EventWriter (R : Type) where
  repo : R
  capacity : ℕ
  capacity_pos : 0 < capacity
  queue : Option (BoundedQueue.Traced Command) := none
  thread : Option WriterState := none
  running : Bool := false
  stopping : WriterStop := .none
  destroyed : List ℕ := []
  answers : List Answer := []
  record : WriterRecord R := {}

namespace EventWriter

variable {R : Type}

theorem positive_capacity (queueCapacity : ℕ) :
    0 < if queueCapacity = 0 then 1024 else queueCapacity := by
  split <;> omega

/-- The constructor; a capacity of 0 stands for 1024. -/
def new (repo : R) (queueCapacity : ℕ := 1024) : EventWriter R where
  repo := repo
  capacity := if queueCapacity = 0 then 1024 else queueCapacity
  capacity_pos := positive_capacity queueCapacity

def submit (w : EventWriter R) (command : Command) : EventWriter R :=
  if w.running then { w with queue := w.queue.map (fun queue => queue.push command) } else w

def enqueue (w : EventWriter R) (event : VisionEvent) : EventWriter R := w.submit (.event event)

def requestQuery (w : EventWriter R) (query : EventQuery) (receiver onResult : Option ℕ) :
    EventWriter R :=
  w.submit (.query { query := query, receiver := receiver, onResult := onResult })

/-- `handle`, up to the first thing that it does to the database. -/
def handle : Command → WriterState
  | .event event => .insert event
  | .query job => .query job

def popStep (queue : BoundedQueue.Traced Command) (w : EventWriter R) : EventWriter R :=
  { w with
    queue := some queue.pop
    thread := some (match queue.queue.pop.2 with
      | .waits => .pop
      | .drained => .done
      | .item command => handle command) }

variable [IEventRepository R]

/-- `start` of a writer whose thread is not running; that of another one waits for its `stop`. -/
def start (w : EventWriter R) (dbPath : String) : Bool × EventWriter R :=
  match IEventRepository.open_ (IEventRepository.close w.repo) dbPath with
  | (false, repo) => (false, { w with repo := repo, running := false })
  | (true, repo) =>
    (true,
      { w with
        repo := repo
        queue := some (.start w.capacity .dropOldest w.capacity_pos)
        thread := some .pop
        running := true
        stopping := .none
        record := {} })

def queryStep (job : QueryJob) (w : EventWriter R) : EventWriter R :=
  let handled : EventWriter R :=
    { w with
      thread := some .pop
      record := { w.record with handled := w.record.handled ++ [.query job] } }
  match job.onResult with
  | none => handled
  | some onResult =>
    { handled with
      answers :=
        match job.receiver.filter (fun receiver => receiver ∉ w.destroyed) with
        | none => w.answers
        | some receiver =>
          w.answers ++ [⟨receiver, onResult, IEventRepository.query w.repo job.query⟩]
      record :=
        { handled.record with
          asked := w.record.asked ++ [⟨job, w.record.handled, w.record.writes, w.repo⟩] } }

/-- A step of `runLoop`; `now` is the time that an insertion reads. -/
def writerStep (now : ℤ) (w : EventWriter R) : EventWriter R :=
  match w.thread with
  | none | some .done => w
  | some .pop =>
    match w.queue with
    | none => { w with thread := some .done }
    | some queue => w.popStep queue
  | some (.insert event) =>
    { w with
      repo := (IEventRepository.insert w.repo event now).2
      thread := some (.prune event now) }
  | some (.prune event now) =>
    { w with
      repo := IEventRepository.prune w.repo 10000
      thread := some .pop
      record :=
        { w.record with
          handled := w.record.handled ++ [.event event]
          writes := w.record.writes ++ [(event, now)] } }
  | some (.query job) => w.queryStep job

/-- The next thing that `stop` does; to join, it waits until the thread has ended. -/
def stopStep (w : EventWriter R) : EventWriter R :=
  match w.stopping with
  | .none => { w with queue := w.queue.map (fun queue => queue.close), stopping := .queueClosed }
  | .queueClosed =>
    match w.thread with
    | none | some .done => { w with thread := none, stopping := .joined }
    | some _ => w
  | .joined =>
    { w with
      queue := none
      stopping := .queueDropped
      record :=
        { w.record with
          ledger := (w.queue.map (fun queue => queue.history.ledger)).getD w.record.ledger } }
  | .queueDropped => { w with repo := IEventRepository.close w.repo, stopping := .repoClosed }
  | .repoClosed => { w with running := false, stopping := .returned }
  | .returned => w

/-- A call, a step of the thread, a step of `stop`, or the end of an object that waits for rows. -/
inductive Turn where
  | enqueue (event : VisionEvent)
  | requestQuery (query : EventQuery) (receiver onResult : Option ℕ)
  | writer (now : ℤ)
  | stop
  | destroy (receiver : ℕ)

def step (w : EventWriter R) : Turn → EventWriter R
  | .enqueue event => w.enqueue event
  | .requestQuery query receiver onResult => w.requestQuery query receiver onResult
  | .writer now => w.writerStep now
  | .stop => w.stopStep
  | .destroy receiver => { w with destroyed := receiver :: w.destroyed }

def run (w : EventWriter R) (turns : List Turn) : EventWriter R := Machine.run step w turns

end EventWriter

end VisionLab
