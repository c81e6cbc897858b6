import VisionLab.Core.Types

/-! The bounded mailbox of events between the inference thread and the readers. A full log drops
its oldest event. -/
namespace VisionLab

structure EventLog where
  capacity : ℕ
  events : List VisionEvent
  capacity_pos : 0 < capacity
  size_le : events.length ≤ capacity

namespace EventLog

/- The constructor turns a capacity of 0 into 1. -/
def new (capacity : ℕ := 256) : EventLog where
  capacity := if capacity = 0 then 1 else capacity
  events := []
  capacity_pos := by split <;> omega
  size_le := Nat.zero_le _

theorem room {capacity : ℕ} {events : List VisionEvent} (event : VisionEvent)
    (positive : 0 < capacity) (bound : events.length ≤ capacity) :
    ((if capacity ≤ events.length then events.tail else events) ++ [event]).length ≤ capacity := by
  split
  · simp only [List.length_append, List.length_tail, List.length_singleton]
    omega
  · simp only [List.length_append, List.length_singleton]
    omega

def pushOne (log : EventLog) (event : VisionEvent) : EventLog :=
  { log with
    events := (if log.capacity ≤ log.events.length then log.events.tail else log.events) ++ [event]
    size_le := room event log.capacity_pos log.size_le }

def push (log : EventLog) (events : List VisionEvent) : EventLog := events.foldl pushOne log

def snapshot (log : EventLog) : List VisionEvent := log.events
def reset (log : EventLog) : EventLog := { log with events := [], size_le := Nat.zero_le _ }

/-- The log shows the newest of the events emitted since the last reset. -/
def Shows (log : EventLog) (emitted : List VisionEvent) : Prop :=
  log.events = emitted.drop (emitted.length - log.capacity)

theorem reset_shows (log : EventLog) : log.reset.Shows [] := by
  simp only [Shows, reset, List.drop_nil]

theorem pushOne_shows {log : EventLog} {emitted : List VisionEvent} (h : log.Shows emitted)
    (event : VisionEvent) : (log.pushOne event).Shows (emitted ++ [event]) := by
  have positive := log.capacity_pos
  have size : log.events.length = emitted.length - (emitted.length - log.capacity) := by
    rw [h, List.length_drop]
  unfold Shows at h ⊢
  simp only [pushOne, List.length_append, List.length_singleton]
  by_cases full : log.capacity ≤ log.events.length
  · have next : emitted.length + 1 - log.capacity = emitted.length - log.capacity + 1 := by omega
    rw [if_pos full, next, List.drop_append_of_le_length (by omega), ← List.tail_drop, ← h]
  · have whole : emitted.length - log.capacity = 0 := by omega
    have more : emitted.length + 1 - log.capacity = 0 := by omega
    rw [if_neg full, more, h, whole, List.drop_zero, List.drop_zero]

@[simp] theorem push_capacity (log : EventLog) (events : List VisionEvent) :
    (log.push events).capacity = log.capacity := by
  induction events generalizing log with
  | nil => rfl
  | cons event events ih => exact ih (log.pushOne event)

theorem push_shows {log : EventLog} {emitted : List VisionEvent} (h : log.Shows emitted)
    (events : List VisionEvent) : (log.push events).Shows (emitted ++ events) := by
  induction events generalizing log emitted with
  | nil => simpa only [push, List.foldl_nil, List.append_nil] using h
  | cons event events ih =>
    have rest := ih (pushOne_shows h event)
    rwa [List.append_assoc] at rest

def offset (log : EventLog) (emitted : List VisionEvent) : ℕ := emitted.length - log.events.length

theorem Shows.offset_eq {log : EventLog} {emitted : List VisionEvent} (h : log.Shows emitted) :
    log.offset emitted = emitted.length - log.capacity := by
  unfold offset
  rw [h, List.length_drop]
  omega

end EventLog

end VisionLab
