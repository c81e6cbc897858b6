import Mathlib.Data.Finset.Sort
import VisionLab.Analytics.CountingRule
import VisionLab.Lib.Machine

/-! The books of the counting rule. Abstractly, tracks enter, exit or are removed, and a tally is
kept of it; every run of the rule is such a sequence of passages, with the tally as its counters. -/
namespace VisionLab

/-- What can happen to the IN set: a counted entry or exit, or a removal without an event. -/
inductive Passage where
  | entered (event : VisionEvent)
  | exited (event : VisionEvent)
  | removed (trackId : ℕ)
  deriving DecidableEq, Repr

namespace Passage

def trackId : Passage → ℕ
  | .entered event | .exited event => event.trackId
  | .removed id => id

def event? : Passage → Option VisionEvent
  | .entered event | .exited event => some event
  | .removed _ => none

def isEntry : Passage → Bool | .entered _ => true | _ => false
def isRemoval : Passage → Bool | .removed _ => true | _ => false

/-- Entries and exits take turns, beginning with an entry when `inside` is false, and a removal
comes only inside and leads outside. -/
def Alternates : Bool → List Passage → Prop
  | _, [] => True
  | inside, .entered _ :: rest => inside = false ∧ Alternates true rest
  | inside, .exited _ :: rest | inside, .removed _ :: rest => inside = true ∧ Alternates false rest

end Passage

structure Tally where
  countIn : ℕ := 0
  countOut : ℕ := 0
  inside : Finset ℕ := ∅

namespace Tally

def after (t : Tally) : Passage → Tally
  | .entered event =>
    { t with countIn := t.countIn + 1, inside := insert event.trackId t.inside }
  | .exited event =>
    { t with countOut := t.countOut + 1, inside := t.inside.erase event.trackId }
  | .removed id => { t with inside := t.inside.erase id }

structure Shows (t : Tally) (event : VisionEvent) : Prop where
  countIn : event.countIn = t.countIn
  countOut : event.countOut = t.countOut
  occupancy : event.occupancy = t.inside.card

/-- A passage that can happen: only a track outside enters, only one inside leaves, and the event
shows the tally after it. -/
def Allows (t : Tally) (passage : Passage) : Prop :=
  (passage.isEntry = true ↔ passage.trackId ∉ t.inside) ∧
    ∀ event, passage.event? = some event → (t.after passage).Shows event

def run (t : Tally) (passages : List Passage) : Tally := Machine.run after t passages

def Path (t : Tally) (passages : List Passage) : Prop := Machine.EveryStep after Allows t passages

@[simp] theorem path_nil (t : Tally) : t.Path [] := trivial

theorem path_append (t : Tally) (passages more : List Passage) :
    t.Path (passages ++ more) ↔ t.Path passages ∧ (t.run passages).Path more :=
  Machine.everyStep_append t passages more

@[simp] theorem run_nil (t : Tally) : t.run [] = t := rfl

@[simp] theorem run_cons (t : Tally) (passage : Passage) (passages : List Passage) :
    t.run (passage :: passages) = (t.after passage).run passages := rfl

theorem run_append (t : Tally) (passages more : List Passage) :
    t.run (passages ++ more) = (t.run passages).run more := Machine.run_append _ t passages more

theorem allows_removed {t : Tally} {id : ℕ} (inside : id ∈ t.inside) : t.Allows (.removed id) := by
  constructor
  · simp [Passage.isEntry, Passage.trackId, inside]
  · intro event emits
    cases emits

theorem allows_card {t : Tally} {passage : Passage} (allowed : t.Allows passage) :
    (t.after passage).inside.card + (t.after passage).countOut + t.countIn +
        (if passage.isRemoval then 1 else 0) =
      t.inside.card + t.countOut + (t.after passage).countIn := by
  obtain ⟨member, -⟩ := allowed
  cases passage with
  | entered event =>
    have outside : event.trackId ∉ t.inside := member.mp rfl
    simp [after, Passage.isRemoval, outside]
    omega
  | exited event =>
    have inside : event.trackId ∈ t.inside := by
      by_contra outside
      exact absurd (member.mpr outside) (by simp [Passage.isEntry])
    have size := Finset.card_erase_add_one inside
    simp [after, Passage.isRemoval]
    omega
  | removed id =>
    have inside : id ∈ t.inside := by
      by_contra outside
      exact absurd (member.mpr outside) (by simp [Passage.isEntry])
    have size := Finset.card_erase_add_one inside
    simp [after, Passage.isRemoval]
    omega

/-- Entries are exits, removals and those still inside. -/
theorem path_balance {t : Tally} {passages : List Passage} (path : t.Path passages) :
    (t.run passages).inside.card + (t.run passages).countOut + t.countIn +
        passages.countP Passage.isRemoval =
      t.inside.card + t.countOut + (t.run passages).countIn := by
  induction passages generalizing t with
  | nil => rfl
  | cons passage passages ih =>
    obtain ⟨allowed, rest⟩ := path
    have here := allows_card allowed
    have later := ih rest
    rw [run_cons, List.countP_cons]
    omega

theorem path_alternates {t : Tally} {passages : List Passage} (path : t.Path passages) (id : ℕ) :
    Passage.Alternates (decide (id ∈ t.inside))
      (passages.filter (fun passage => decide (passage.trackId = id))) := by
  induction passages generalizing t with
  | nil => trivial
  | cons passage passages ih =>
    obtain ⟨⟨member, -⟩, rest⟩ := path
    have later := ih rest
    by_cases own : passage.trackId = id
    · rw [List.filter_cons_of_pos (by simpa using own)]
      subst own
      cases passage <;>
        simp_all [Passage.Alternates, after, Passage.trackId, Passage.isEntry]
    · rw [List.filter_cons_of_neg (by simpa using own)]
      have apart : id ≠ passage.trackId := Ne.symm own
      have other : id ∈ (t.after passage).inside ↔ id ∈ t.inside := by
        cases passage <;> simp only [Passage.trackId] at apart <;> simp [after, apart]
      simpa only [other] using later

theorem path_shows {t : Tally} {pre post : List Passage} {passage : Passage}
    (path : t.Path (pre ++ passage :: post)) {event : VisionEvent}
    (emits : passage.event? = some event) : (t.run (pre ++ [passage])).Shows event := by
  obtain ⟨allowed, -⟩ := ((path_append t pre (passage :: post)).mp path).2
  rw [run_append]
  exact allowed.2 event emits

end Tally

namespace CountingRule

def tally (rule : CountingRule) : Tally := ⟨rule.countIn, rule.countOut, rule.inside⟩

def Stored (rule : CountingRule) : Prop := ∀ id ∈ rule.inside, (rule.lastFoot id).isSome

def passageOf (event : VisionEvent) : Passage :=
  if event.direction = .forward then .entered event else .exited event

def passages (rule : CountingRule) (context : RuleContext) (track : Track) : List Passage :=
  if !rule.acceptsClass track.classId then
    if track.trackId ∈ rule.inside then [.removed track.trackId] else []
  else (rule.count context track).1.map passageOf

def observeWatched (context : RuleContext) (rule : CountingRule) (track : Track) :
    List Passage × CountingRule :=
  (rule.passages context track, (rule.observe context track).2)

def dropped (seen : List ℕ) (rule : CountingRule) : Finset ℕ :=
  rule.inside.filter (fun id => id ∉ seen ∧ rule.lastFoot id ≠ none)

def framePassages (rule : CountingRule) (tracks : List Track) (context : RuleContext) :
    List Passage :=
  if rule.config.a = rule.config.b then []
  else
    let after := Mealy.run (observeWatched context) rule tracks
    after.1.flatten ++ ((after.2.dropped (tracks.map Track.trackId)).sort).map .removed

/- One track record. -/

theorem observe_accepts {context : RuleContext} {rule : CountingRule} {track : Track}
    (accepted : rule.acceptsClass track.classId = true) : rule.observe context track =
      ((rule.count context track).1,
        (rule.count context track).2.store track.trackId (footPoint track.box)) := by
  simp [observe, accepted]

theorem observe_rejects {context : RuleContext} {rule : CountingRule} {track : Track}
    (rejected : rule.acceptsClass track.classId = false) :
    rule.observe context track = ([], rule.reject track.trackId) := by
  simp [observe, rejected]

@[simp] theorem passageOf_event? (event : VisionEvent) : (passageOf event).event? = some event := by
  unfold passageOf
  split <;> rfl

theorem passages_events (rule : CountingRule) (context : RuleContext) (track : Track) :
    (rule.passages context track).filterMap Passage.event? = (rule.observe context track).1 := by
  cases accepted : rule.acceptsClass track.classId with
  | false =>
    rw [observe_rejects accepted]
    by_cases inside : track.trackId ∈ rule.inside <;>
      simp [passages, accepted, inside, Passage.event?]
  | true =>
    rw [observe_accepts accepted]
    simp [passages, accepted]

theorem count_path (rule : CountingRule) (context : RuleContext) (track : Track) :
    rule.tally.Path ((rule.count context track).1.map passageOf) ∧
      rule.tally.run ((rule.count context track).1.map passageOf) =
        (rule.count context track).2.tally := by
  unfold count
  split
  · rename_i comes
    obtain ⟨forward, outside⟩ := comes
    have entry : passageOf ((rule.enter track.trackId).makeEvent track context
        (rule.direction track) "IN") = .entered ((rule.enter track.trackId).makeEvent track context
        (rule.direction track) "IN") := if_pos forward
    simp only [List.map_cons, List.map_nil, entry]
    refine ⟨⟨⟨?_, ?_⟩, trivial⟩, rfl⟩
    · exact ⟨fun _ => outside, fun _ => rfl⟩
    · rintro event same
      cases same
      exact ⟨rfl, rfl, rfl⟩
  · split
    · rename_i goes
      obtain ⟨reverse, inside⟩ := goes
      have exit : passageOf ((rule.leave track.trackId).makeEvent track context
          (rule.direction track) "OUT") = .exited ((rule.leave track.trackId).makeEvent track
          context (rule.direction track) "OUT") := if_neg (by simp [makeEvent, reverse])
      simp only [List.map_cons, List.map_nil, exit]
      refine ⟨⟨⟨?_, ?_⟩, trivial⟩, rfl⟩
      · exact ⟨nofun, fun outside => absurd inside outside⟩
      · rintro event same
        cases same
        exact ⟨rfl, rfl, rfl⟩
    · exact ⟨trivial, rfl⟩

theorem passages_path (rule : CountingRule) (context : RuleContext) (track : Track) :
    rule.tally.Path (rule.passages context track) ∧
      rule.tally.run (rule.passages context track) = (rule.observe context track).2.tally := by
  cases accepted : rule.acceptsClass track.classId with
  | true =>
    rw [observe_accepts accepted]
    simp only [passages, accepted, Bool.not_true, Bool.false_eq_true, if_false]
    exact count_path rule context track
  | false =>
    rw [observe_rejects accepted]
    simp only [passages, accepted, Bool.not_false, if_true]
    by_cases inside : track.trackId ∈ rule.inside
    · rw [if_pos inside]
      exact ⟨⟨Tally.allows_removed inside, trivial⟩, rfl⟩
    · rw [if_neg inside]
      refine ⟨trivial, ?_⟩
      simp [tally, reject, inside]

theorem count_inside (rule : CountingRule) (context : RuleContext) (track : Track) :
    (rule.count context track).2.lastFoot = rule.lastFoot ∧
      ∀ id, id ∈ (rule.count context track).2.inside → id = track.trackId ∨ id ∈ rule.inside := by
  unfold count
  split
  · exact ⟨rfl, fun id member => Finset.mem_insert.mp member⟩
  · split
    · exact ⟨rfl, fun id member => Or.inr (Finset.mem_of_mem_erase member)⟩
    · exact ⟨rfl, fun id member => Or.inr member⟩

theorem observe_stored {rule : CountingRule} (stored : rule.Stored) (context : RuleContext)
    (track : Track) : (rule.observe context track).2.Stored := by
  cases accepted : rule.acceptsClass track.classId with
  | true =>
    obtain ⟨foot, members⟩ := count_inside rule context track
    rw [observe_accepts accepted]
    intro id member
    by_cases own : id = track.trackId
    · simp [store, own]
    · simpa [store, own, foot] using stored id ((members id member).resolve_left own)
  | false =>
    rw [observe_rejects accepted]
    intro id member
    obtain ⟨apart, before⟩ := Finset.mem_erase.mp member
    simpa [reject, apart] using stored id before

/- One frame. -/

theorem removed_path (t : Tally) (ids : List ℕ) (distinct : ids.Nodup)
    (members : ∀ id ∈ ids, id ∈ t.inside) :
    t.Path (ids.map .removed) ∧
      t.run (ids.map .removed) = { t with inside := t.inside \ ids.toFinset } := by
  induction ids generalizing t with
  | nil => simp
  | cons id ids ih =>
    obtain ⟨fresh, rest⟩ := List.nodup_cons.mp distinct
    have inside := members id List.mem_cons_self
    obtain ⟨path, last⟩ := ih (t.after (.removed id)) rest (by
      intro other member
      have apart : other ≠ id := fun same => fresh (same ▸ member)
      simp [Tally.after, apart, members other (List.mem_cons_of_mem id member)])
    refine ⟨⟨Tally.allows_removed inside, path⟩, ?_⟩
    rw [List.map_cons, Tally.run_cons, last]
    simp only [Tally.after, List.toFinset_cons, Finset.sdiff_insert, Finset.erase_sdiff_comm]

theorem purge_tally (rule : CountingRule) (seen : List ℕ) :
    rule.tally.Path ((rule.dropped seen).sort.map .removed) ∧
      rule.tally.run ((rule.dropped seen).sort.map .removed) = (rule.purge seen).tally := by
  obtain ⟨path, last⟩ := removed_path rule.tally (rule.dropped seen).sort
    (Finset.sort_nodup _ _) (by
      intro id member
      exact Finset.mem_of_mem_filter id ((Finset.mem_sort _).mp member))
  refine ⟨path, last.trans ?_⟩
  have left : rule.inside \ (rule.dropped seen) =
      rule.inside.filter (fun id => id ∈ seen ∨ rule.lastFoot id = none) := by
    ext id
    simp only [dropped, Finset.mem_sdiff, Finset.mem_filter]
    tauto
  simp [tally, purge, left]

theorem purge_stored {rule : CountingRule} (stored : rule.Stored) (seen : List ℕ) :
    (rule.purge seen).Stored := by
  intro id member
  obtain ⟨inside, kept⟩ := Finset.mem_filter.mp member
  have foot := stored id inside
  rcases kept with here | gone
  · simpa [purge, here] using foot
  · simp [gone] at foot

theorem loop_passages (rule : CountingRule) (context : RuleContext) (tracks : List Track) :
    (Mealy.run (observeWatched context) rule tracks).2 =
      (Mealy.run (observe context) rule tracks).2 ∧
    (Mealy.run (observeWatched context) rule tracks).1.flatten.filterMap Passage.event? =
      (Mealy.run (observe context) rule tracks).1.flatten ∧
    rule.tally.Path (Mealy.run (observeWatched context) rule tracks).1.flatten ∧
    rule.tally.run (Mealy.run (observeWatched context) rule tracks).1.flatten =
      (Mealy.run (observe context) rule tracks).2.tally := by
  induction tracks generalizing rule with
  | nil => exact ⟨rfl, rfl, trivial, rfl⟩
  | cons track tracks ih =>
    obtain ⟨state, events, path, last⟩ := ih (rule.observe context track).2
    obtain ⟨here, next⟩ := passages_path rule context track
    refine ⟨state, ?_, ?_, ?_⟩
    · simp only [Mealy.run_cons, List.flatten_cons, List.filterMap_append, observeWatched,
        passages_events, events]
    · simp only [Mealy.run_cons, List.flatten_cons]
      rw [Tally.path_append]
      refine ⟨here, ?_⟩
      rw [observeWatched, next]
      exact path
    · simp only [Mealy.run_cons, List.flatten_cons]
      rw [Tally.run_append]
      simp only [observeWatched]
      rw [next]
      exact last

theorem evaluate_passages (rule : CountingRule) (tracks : List Track) (context : RuleContext) :
    (rule.framePassages tracks context).filterMap Passage.event? =
      (rule.evaluate tracks context).1 ∧
    rule.tally.Path (rule.framePassages tracks context) ∧
    rule.tally.run (rule.framePassages tracks context) =
      (rule.evaluate tracks context).2.tally := by
  unfold framePassages evaluate
  by_cases degenerate : rule.config.a = rule.config.b
  · simp only [if_pos degenerate]
    exact ⟨rfl, trivial, rfl⟩
  · simp only [if_neg degenerate]
    obtain ⟨state, events, path, last⟩ := loop_passages rule context tracks
    obtain ⟨swept, final⟩ := purge_tally (Mealy.run (observe context) rule tracks).2
      (tracks.map Track.trackId)
    have silent : ∀ ids : List ℕ,
        (ids.map Passage.removed).filterMap Passage.event? = [] := by
      intro ids
      simp [List.filterMap_map, Passage.event?, Function.comp_def]
    rw [state]
    refine ⟨?_, ?_, ?_⟩
    · rw [List.filterMap_append, silent, List.append_nil, events]
    · rw [Tally.path_append, last]
      exact ⟨path, swept⟩
    · rw [Tally.run_append, last, final]

theorem evaluate_stored {rule : CountingRule} (stored : rule.Stored) (tracks : List Track)
    (context : RuleContext) : (rule.evaluate tracks context).2.Stored := by
  unfold evaluate
  split
  · exact stored
  · exact purge_stored
      (Mealy.run_invariant stored (fun rule track h => observe_stored h context track) tracks) _

/- Runs. -/

inductive Call where
  | evaluate (tracks : List Track) (context : RuleContext)
  | reset

/-- A rule with what has happened since its construction or the last reset: the events its calls
have returned, and the passages behind them. -/
structure Watched where
  rule : CountingRule
  events : List VisionEvent := []
  passages : List Passage := []

def watch (s : Watched) : Call → Watched
  | .evaluate tracks context =>
    { rule := (s.rule.evaluate tracks context).2
      events := s.events ++ (s.rule.evaluate tracks context).1
      passages := s.passages ++ s.rule.framePassages tracks context }
  | .reset => { rule := s.rule.reset }

structure Booked (s : Watched) : Prop where
  stored : s.rule.Stored
  path : ({} : Tally).Path s.passages
  tally : s.rule.tally = ({} : Tally).run s.passages
  events : s.passages.filterMap Passage.event? = s.events

theorem fresh_booked (config : CountConfig) : Booked { rule := { config := config } } :=
  ⟨nofun, trivial, rfl, rfl⟩

theorem watch_booked (s : Watched) (call : Call) (h : Booked s) : Booked (watch s call) := by
  cases call with
  | reset => exact fresh_booked _
  | evaluate tracks context =>
    obtain ⟨events, path, last⟩ := evaluate_passages s.rule tracks context
    refine ⟨evaluate_stored h.stored tracks context, ?_, ?_, ?_⟩
    · simp only [watch]
      rw [Tally.path_append, ← h.tally]
      exact ⟨h.path, path⟩
    · simp only [watch]
      rw [Tally.run_append, ← h.tally, last]
    · simp only [watch]
      rw [List.filterMap_append, h.events, events]

/-- The books of a counting rule, over what has happened since construction or the last reset. -/
structure Balances (s : Watched) : Prop where
  /-- Who came in has gone out, is inside or was removed without an event. -/
  balance : s.rule.countIn =
    s.rule.countOut + s.rule.occupancy + s.passages.countP Passage.isRemoval
  stored : ∀ id ∈ s.rule.inside, (s.rule.lastFoot id).isSome
  alternates : ∀ id, Passage.Alternates false
    (s.passages.filter (fun passage => decide (passage.trackId = id)))
  /-- The passages with an event are the events returned, in their order. -/
  events : s.passages.filterMap Passage.event? = s.events
  /-- The counters and the IN set are those of the tally of the passages. -/
  tally : s.rule.tally = ({} : Tally).run s.passages
  /-- Each event carries the tally that holds right after it. -/
  shows : ∀ pre passage post event, s.passages = pre ++ passage :: post →
    passage.event? = some event → (({} : Tally).run (pre ++ [passage])).Shows event

/-- The books balance after every run of `evaluate` and `reset` calls. -/
theorem counts_balance (config : CountConfig) (calls : List Call) :
    Balances (Machine.run watch { rule := { config := config } } calls) := by
  have booked := Machine.run_invariant (fresh_booked config) watch_booked calls
  generalize Machine.run watch { rule := { config := config } } calls = s at booked
  have counters := Tally.path_balance booked.path
  rw [← booked.tally] at counters
  have alternates := Tally.path_alternates booked.path
  refine ⟨?_, booked.stored, alternates, booked.events, booked.tally, ?_⟩
  · simp only [tally, occupancy] at counters ⊢
    simp at counters
    omega
  · intro pre passage post event split emits
    have path := booked.path
    rw [split] at path
    exact Tally.path_shows path emits

end CountingRule

end VisionLab
