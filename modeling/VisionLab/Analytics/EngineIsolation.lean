import Mathlib.Data.List.Forall2
import VisionLab.Analytics.RuleInjection
import VisionLab.Lib.Machine

/-! Rules that share an engine. The engine catches what a rule throws while it is evaluated, but
nothing of what it throws while it is reset: the reset ends there, with the later rules and the
numbers as they were. -/
namespace VisionLab

/-- What a rule throws when it is reset. `IRule.reset` is how the call leaves it, either way. -/
class ThrowingReset (ρ : Type) where
  thrown : ρ → Option CvException

namespace RuleEngine

variable {ρ : Type} [IRule ρ] [ThrowingReset ρ]

def resetEntries : List (Entry ρ) → Option CvException × List (Entry ρ)
  | [] => (none, [])
  | entry :: rest =>
    match ThrowingReset.thrown entry.rule with
    | some thrown => (some thrown, { entry with rule := IRule.reset entry.rule } :: rest)
    | none =>
      let after := resetEntries rest
      (after.1, { entry with rule := IRule.reset entry.rule } :: after.2)

def resetOrThrow (e : RuleEngine ρ) : Option CvException × RuleEngine ρ :=
  match resetEntries e.entries with
  | (some thrown, entries) => (some thrown, { e with entries := entries })
  | (none, entries) => (none, { entries := entries, nextEventId := 1, eventsEmitted := 0 })

/-- With rules whose reset never throws it is `reset`. -/
theorem resetOrThrow_of_quiet (quiet : ∀ rule : ρ, ThrowingReset.thrown rule = none)
    (e : RuleEngine ρ) : e.resetOrThrow = (none, e.reset) := by
  have all : ∀ entries : List (Entry ρ), resetEntries entries =
      (none, entries.map (fun entry => { entry with rule := IRule.reset entry.rule })) := by
    intro entries
    induction entries with
    | nil => rfl
    | cons entry rest ih => simp [resetEntries, quiet, ih]
  simp [resetOrThrow, all, reset]

end RuleEngine

/- A rule and what has been asked of it, which the program does not keep. -/

inductive RuleCall where
  | frame (tracks : List Track) (context : RuleContext)
  | reset

/-- The rule as it was registered and its calls since. -/
structure Journal (ρ : Type) where
  rule : ρ
  calls : List RuleCall := []

namespace Journal

variable {ρ : Type}

def add (journal : Journal ρ) (call : RuleCall) : Journal ρ :=
  { journal with calls := journal.calls ++ [call] }

variable [IRule ρ] [ThrowingReset ρ]

def soloStep (e : RuleEngine ρ) : RuleCall → RuleEngine ρ
  | .frame tracks context => (e.evaluate tracks context).1
  | .reset => e.resetOrThrow.2

/-- An engine with this rule alone, after the same calls. -/
def solo (journal : Journal ρ) : RuleEngine ρ :=
  Machine.run soloStep { entries := [{ rule := journal.rule }] } journal.calls

end Journal

def VisionEvent.unnumbered (event : VisionEvent) : VisionEvent := { event with eventId := 0 }

inductive EngineCall (ρ : Type) where
  | addRule (rule : ρ)
  | setEnabled (ruleId : String) (enabled : Bool)
  | evaluate (tracks : List Track) (context : RuleContext)
  | reset
  | clear

/-- An engine, a journal for each of its rules, and the events returned since the last `clear` and
the last `reset` that was not thrown out of. -/
structure EngineHistory (ρ : Type) where
  engine : RuleEngine ρ := {}
  journals : List (Journal ρ) := []
  returned : List VisionEvent := []

namespace EngineHistory

variable {ρ : Type} [IRule ρ] [ThrowingReset ρ]

/-- A reset reaches the rules up to the first one that throws. -/
def journalReset : List (RuleEngine.Entry ρ) → List (Journal ρ) → List (Journal ρ)
  | entry :: entries, journal :: journals =>
    match ThrowingReset.thrown entry.rule with
    | some _ => journal.add .reset :: journals
    | none => journal.add .reset :: journalReset entries journals
  | _, journals => journals

/-- A frame reaches the rules that are enabled. -/
def journalFrame (call : RuleCall) : List (RuleEngine.Entry ρ) → List (Journal ρ) → List (Journal ρ)
  | entry :: entries, journal :: journals =>
    (if entry.enabled then journal.add call else journal) :: journalFrame call entries journals
  | _, journals => journals

def step (h : EngineHistory ρ) : EngineCall ρ → EngineHistory ρ
  | .addRule rule =>
    { h with
      engine := (h.engine.addRule rule).2
      journals :=
        if (h.engine.addRule rule).1 then h.journals ++ [{ rule := rule }] else h.journals }
  | .setEnabled ruleId enabled => { h with engine := (h.engine.setEnabled ruleId enabled).2 }
  | .evaluate tracks context =>
    let after := h.engine.evaluate tracks context
    { engine := after.1
      journals := journalFrame (.frame tracks context) h.engine.entries h.journals
      returned := h.returned ++ after.2 }
  | .reset =>
    let after := h.engine.resetOrThrow
    { engine := after.2
      journals := journalReset h.engine.entries h.journals
      returned := if after.1.isSome then h.returned else [] }
  | .clear => { engine := h.engine.clear }

def run (h : EngineHistory ρ) (calls : List (EngineCall ρ)) : EngineHistory ρ :=
  Machine.run step h calls

end EngineHistory

/- What an evaluation does to the entries, and what they return. -/

namespace RuleEngine

variable {ρ : Type} [IRule ρ]

def part (rule : ρ) (tracks : List Track) (context : RuleContext) : List VisionEvent :=
  match (IRule.evaluate rule tracks context).1 with
  | .ok part => part
  | .error _ => []

def Entry.after (entry : Entry ρ) (tracks : List Track) (context : RuleContext) : Entry ρ :=
  if entry.enabled then { entry with rule := (IRule.evaluate entry.rule tracks context).2 }
  else entry

def Entry.returns (entry : Entry ρ) (tracks : List Track) (context : RuleContext) :
    List VisionEvent :=
  if entry.enabled then part entry.rule tracks context else []

theorem unnumbered_numbered (next : ℕ) (events : List VisionEvent) :
    (numbered next events).map VisionEvent.unnumbered = events.map VisionEvent.unnumbered := by
  apply List.ext_getElem
  · simp [numbered]
  · intro i _ _
    simp [numbered, VisionEvent.unnumbered]

theorem evaluateEntries_spec (tracks : List Track) (context : RuleContext)
    (entries : List (Entry ρ)) (next : ℕ) :
    (evaluateEntries tracks context entries next).1 =
        entries.map (fun entry => entry.after tracks context) ∧
      (evaluateEntries tracks context entries next).2.map VisionEvent.unnumbered =
        (entries.flatMap (fun entry => entry.returns tracks context)).map VisionEvent.unnumbered := by
  induction entries generalizing next with
  | nil => exact ⟨rfl, rfl⟩
  | cons entry rest ih =>
    unfold evaluateEntries
    cases enabled : entry.enabled with
    | false => simp [Entry.after, Entry.returns, enabled, ih]
    | true =>
      simp only [Bool.not_true, Bool.false_eq_true, if_false]
      split
      all_goals
        rename_i evaluated
        simp [Entry.after, Entry.returns, part, enabled, evaluated, ih, unnumbered_numbered]

theorem evaluate_spec (e : RuleEngine ρ) (tracks : List Track) (context : RuleContext) :
    (e.evaluate tracks context).1.entries =
        e.entries.map (fun entry => entry.after tracks context) ∧
      (e.evaluate tracks context).2.map VisionEvent.unnumbered =
        (e.entries.flatMap (fun entry => entry.returns tracks context)).map
          VisionEvent.unnumbered := by
  unfold evaluate
  split
  · rename_i empty
    simp [List.isEmpty_iff.mp empty]
  · exact evaluateEntries_spec tracks context e.entries e.nextEventId

theorem evaluate_emitted (e : RuleEngine ρ) (tracks : List Track) (context : RuleContext) :
    (e.evaluate tracks context).1.eventsEmitted =
      e.eventsEmitted + (e.evaluate tracks context).2.length := by
  unfold evaluate
  split <;> rfl

/- What each call does. -/

theorem addRule_spec (e : RuleEngine ρ) (rule : ρ) :
    ((e.addRule rule).1 = true ∧ IRule.id rule ≠ "" ∧ IRule.id rule ∉ e.ruleIds ∧
      (e.addRule rule).2 = { e with entries := e.entries ++ [{ rule := rule }] }) ∨
    ((e.addRule rule).1 = false ∧ (e.addRule rule).2 = e) := by
  unfold addRule
  by_cases empty : IRule.id rule = ""
  · simp [empty]
  · by_cases taken : (e.find (IRule.id rule)).isSome = true
    · simp [empty, taken]
    · have absent := (e.find_isSome (IRule.id rule)).not.mp taken
      rw [listing_ids] at absent
      simp [empty, taken, absent]

theorem setEnabled_spec (e : RuleEngine ρ) (ruleId : String) (enabled : Bool) :
    (e.setEnabled ruleId enabled).2 =
        { e with entries := (e.setEnabled ruleId enabled).2.entries } ∧
      (e.setEnabled ruleId enabled).2.entries.map Entry.rule = e.entries.map Entry.rule := by
  unfold setEnabled
  split
  · exact ⟨rfl, rfl⟩
  · exact ⟨rfl, setEnabledFirst_rules ruleId enabled e.entries⟩

variable [ThrowingReset ρ]

theorem resetEntries_ids [StableId ρ] (entries : List (Entry ρ)) :
    (resetEntries entries).2.map (fun entry => IRule.id entry.rule) =
      entries.map (fun entry => IRule.id entry.rule) := by
  induction entries with
  | nil => rfl
  | cons entry rest ih =>
    unfold resetEntries
    split <;> simp [StableId.reset, ih]

theorem resetOrThrow_entries (e : RuleEngine ρ) :
    e.resetOrThrow.2.entries = (resetEntries e.entries).2 := by
  unfold resetOrThrow
  split
  all_goals
    rename_i after
    rw [after]

end RuleEngine

namespace EngineHistory

variable {ρ : Type} [IRule ρ] [ThrowingReset ρ]

def Tells (entry : RuleEngine.Entry ρ) (journal : Journal ρ) : Prop :=
  journal.solo.entries = [{ rule := entry.rule }]

theorem tells_frame {entry : RuleEngine.Entry ρ} {journal : Journal ρ} (tells : Tells entry journal)
    (enabled : entry.enabled = true) (tracks : List Track) (context : RuleContext) :
    Tells (entry.after tracks context) (journal.add (.frame tracks context)) := by
  have alone := (journal.solo.evaluate_spec tracks context).1
  rw [tells] at alone
  simp only [Tells, Journal.solo, Journal.add, Machine.run_append]
  simpa [Machine.run, Journal.soloStep, Journal.solo, RuleEngine.Entry.after, enabled] using alone

theorem tells_reset {entry : RuleEngine.Entry ρ} {journal : Journal ρ}
    (tells : Tells entry journal) :
    Tells { entry with rule := IRule.reset entry.rule } (journal.add .reset) := by
  have alone := journal.solo.resetOrThrow_entries
  rw [tells] at alone
  have single : (RuleEngine.resetEntries [{ rule := entry.rule }]).2 =
      [{ rule := IRule.reset entry.rule }] := by
    unfold RuleEngine.resetEntries
    split <;> rfl
  simp only [Tells, Journal.solo, Journal.add, Machine.run_append]
  exact alone.trans single

theorem frame_tells (tracks : List Track) (context : RuleContext)
    {entries : List (RuleEngine.Entry ρ)} {journals : List (Journal ρ)}
    (tell : List.Forall₂ Tells entries journals) :
    List.Forall₂ Tells (entries.map (fun entry => entry.after tracks context))
      (journalFrame (.frame tracks context) entries journals) := by
  induction tell with
  | nil => exact .nil
  | @cons entry journal _ _ tells _ ih =>
    refine .cons ?_ ih
    by_cases enabled : entry.enabled = true
    · rw [if_pos enabled]
      exact tells_frame tells enabled tracks context
    · simpa [RuleEngine.Entry.after, enabled] using tells

theorem reset_tells {entries : List (RuleEngine.Entry ρ)} {journals : List (Journal ρ)}
    (tell : List.Forall₂ Tells entries journals) :
    List.Forall₂ Tells (RuleEngine.resetEntries entries).2 (journalReset entries journals) := by
  induction tell with
  | nil => exact .nil
  | cons tells rest ih =>
    unfold RuleEngine.resetEntries journalReset
    split
    · exact .cons (tells_reset tells) rest
    · exact .cons (tells_reset tells) ih

theorem setEnabled_tells {entries after : List (RuleEngine.Entry ρ)} {journals : List (Journal ρ)}
    (rules : after.map RuleEngine.Entry.rule = entries.map RuleEngine.Entry.rule)
    (tell : List.Forall₂ Tells entries journals) : List.Forall₂ Tells after journals := by
  induction tell generalizing after with
  | nil =>
    rw [List.map_nil, List.map_eq_nil_iff] at rules
    rw [rules]
    exact .nil
  | @cons entry journal _ _ tells _ ih =>
    obtain ⟨first, others, rfl, same, rest⟩ := List.map_eq_cons_iff.mp rules
    refine .cons ?_ (ih rest)
    unfold Tells at tells ⊢
    rw [same]
    exact tells

/-- The invariant of a history: what the numbers say about the events returned, and what the
journals say about the rules. -/
structure Kept (h : EngineHistory ρ) : Prop where
  distinct : h.engine.ruleIds.Nodup
  nonempty : "" ∉ h.engine.ruleIds
  numbered : h.returned.map VisionEvent.eventId = List.range' 1 h.returned.length
  next : h.engine.nextEventId = h.returned.length + 1
  counted : h.engine.eventsEmitted = h.returned.length
  tell : List.Forall₂ Tells h.engine.entries h.journals

variable [StableId ρ]

omit [StableId ρ] in
theorem addRule_kept {h : EngineHistory ρ} (kept : h.Kept) (rule : ρ) :
    (h.step (.addRule rule)).Kept := by
  rcases h.engine.addRule_spec rule with ⟨added, nonempty, absent, after⟩ | ⟨refused, after⟩
  · have ids : (h.step (.addRule rule)).engine.ruleIds = h.engine.ruleIds ++ [IRule.id rule] := by
      simp [step, after, RuleEngine.ruleIds]
    constructor
    · rw [ids, List.nodup_append_comm]
      simpa using ⟨absent, kept.distinct⟩
    · rw [ids, List.mem_append, List.mem_singleton, not_or]
      exact ⟨kept.nonempty, Ne.symm nonempty⟩
    · exact kept.numbered
    · simpa [step, after] using kept.next
    · simpa [step, after] using kept.counted
    · simp only [step, added, after, if_true]
      exact List.rel_append kept.tell (.cons rfl .nil)
  · have same : h.step (.addRule rule) = h := by simp [step, refused, after]
    rw [same]
    exact kept

omit [StableId ρ] in
theorem setEnabled_kept {h : EngineHistory ρ} (kept : h.Kept) (ruleId : String) (enabled : Bool) :
    (h.step (.setEnabled ruleId enabled)).Kept := by
  obtain ⟨frame, rules⟩ := h.engine.setEnabled_spec ruleId enabled
  have ids : (h.step (.setEnabled ruleId enabled)).engine.ruleIds = h.engine.ruleIds := by
    have same := congrArg (List.map IRule.id) rules
    simpa [step, RuleEngine.ruleIds, Function.comp_def] using same
  have next := congrArg RuleEngine.nextEventId frame
  have emitted := congrArg RuleEngine.eventsEmitted frame
  refine ⟨?_, ?_, kept.numbered, next.trans kept.next, emitted.trans kept.counted, ?_⟩
  · rw [ids]
    exact kept.distinct
  · rw [ids]
    exact kept.nonempty
  · exact setEnabled_tells rules kept.tell

theorem evaluate_kept {h : EngineHistory ρ} (kept : h.Kept) (tracks : List Track)
    (context : RuleContext) : (h.step (.evaluate tracks context)).Kept := by
  obtain ⟨ids, next⟩ := h.engine.evaluate_ids tracks context
  have entries := (h.engine.evaluate_spec tracks context).1
  have same : (h.step (.evaluate tracks context)).engine.ruleIds = h.engine.ruleIds := by
    have listed := h.engine.evaluate_listing tracks context
    rw [← RuleEngine.listing_ids, ← RuleEngine.listing_ids, step, listed]
  have emitted := h.engine.evaluate_emitted tracks context
  rw [kept.next] at ids next
  constructor
  · rw [same]
    exact kept.distinct
  · rw [same]
    exact kept.nonempty
  · simp only [step, List.map_append, kept.numbered, ids, List.length_append]
    rw [Nat.add_comm h.returned.length 1, List.range'_append_1]
  · simp only [step, List.length_append, next]
    omega
  · simp only [step, List.length_append, emitted, kept.counted]
  · simp only [step, entries]
    exact frame_tells tracks context kept.tell

theorem reset_kept {h : EngineHistory ρ} (kept : h.Kept) : (h.step .reset).Kept := by
  have entries := h.engine.resetOrThrow_entries
  have same : (h.step .reset).engine.ruleIds = h.engine.ruleIds := by
    simp [step, RuleEngine.ruleIds, entries, RuleEngine.resetEntries_ids]
  have tell : List.Forall₂ Tells (h.step .reset).engine.entries (h.step .reset).journals := by
    simp only [step, entries]
    exact reset_tells kept.tell
  have distinct := kept.distinct
  have nonempty := kept.nonempty
  rw [← same] at distinct nonempty
  cases ended : RuleEngine.resetEntries h.engine.entries with
  | mk thrown after =>
    cases thrown with
    | some thrown =>
      have reset : h.engine.resetOrThrow = (some thrown, { h.engine with entries := after }) := by
        simp [RuleEngine.resetOrThrow, ended]
      refine ⟨distinct, nonempty, ?_, ?_, ?_, tell⟩
      · simpa [step, reset] using kept.numbered
      · simpa [step, reset] using kept.next
      · simpa [step, reset] using kept.counted
    | none =>
      have reset : h.engine.resetOrThrow =
          (none, { entries := after, nextEventId := 1, eventsEmitted := 0 }) := by
        simp [RuleEngine.resetOrThrow, ended]
      refine ⟨distinct, nonempty, ?_, ?_, ?_, tell⟩ <;> simp [step, reset]

theorem step_kept (h : EngineHistory ρ) (call : EngineCall ρ) (kept : h.Kept) :
    (h.step call).Kept := by
  cases call with
  | addRule rule => exact addRule_kept kept rule
  | setEnabled ruleId enabled => exact setEnabled_kept kept ruleId enabled
  | evaluate tracks context => exact evaluate_kept kept tracks context
  | reset => exact reset_kept kept
  | clear => exact ⟨List.nodup_nil, List.not_mem_nil, rfl, rfl, rfl, .nil⟩

theorem run_kept (calls : List (EngineCall ρ)) : (run ({} : EngineHistory ρ) calls).Kept := by
  refine Machine.run_invariant (P := Kept) ?_ step_kept calls
  exact ⟨List.nodup_nil, List.not_mem_nil, rfl, rfl, rfl, .nil⟩

omit [StableId ρ] in
theorem Tells.returns {entry : RuleEngine.Entry ρ} {journal : Journal ρ}
    (tells : Tells entry journal) (enabled : entry.enabled = true) (tracks : List Track)
    (context : RuleContext) :
    (journal.solo.evaluate tracks context).2.map VisionEvent.unnumbered =
      (entry.returns tracks context).map VisionEvent.unnumbered := by
  have alone := (journal.solo.evaluate_spec tracks context).2
  rw [tells] at alone
  simpa [RuleEngine.Entry.returns, enabled] using alone

/-- What an engine would return if each of its enabled rules ran alone, on the frames at which it
has been enabled, the rules in the order of their registration. -/
def apart (h : EngineHistory ρ) (tracks : List Track) (context : RuleContext) : List VisionEvent :=
  (h.engine.entries.zip h.journals).flatMap (fun seat =>
    if seat.1.enabled then (seat.2.solo.evaluate tracks context).2 else [])

omit [StableId ρ] in
theorem evaluate_apart {h : EngineHistory ρ}
    (tell : List.Forall₂ Tells h.engine.entries h.journals) (tracks : List Track)
    (context : RuleContext) : (h.engine.evaluate tracks context).2.map VisionEvent.unnumbered =
      (h.apart tracks context).map VisionEvent.unnumbered := by
  rw [(h.engine.evaluate_spec tracks context).2, apart]
  generalize h.engine.entries = entries at tell
  generalize h.journals = journals at tell
  induction tell with
  | nil => rfl
  | @cons entry journal _ _ tells _ ih =>
    simp only [List.flatMap_cons, List.map_append, List.zip_cons_cons, ih]
    congr 1
    by_cases enabled : entry.enabled = true
    · rw [if_pos enabled, tells.returns enabled]
    · simp [RuleEngine.Entry.returns, enabled]

theorem solo_ids (journal : Journal ρ) : journal.solo.ruleIds = [IRule.id journal.rule] := by
  refine Machine.run_invariant
    (P := fun e : RuleEngine ρ => e.ruleIds = [IRule.id journal.rule]) rfl ?_ journal.calls
  intro e call same
  cases call with
  | frame tracks context =>
    rw [← same, ← RuleEngine.listing_ids, ← RuleEngine.listing_ids, Journal.soloStep,
      RuleEngine.evaluate_listing]
  | reset =>
    rw [← same]
    simp [Journal.soloStep, RuleEngine.ruleIds, RuleEngine.resetOrThrow_entries,
      RuleEngine.resetEntries_ids]

theorem tells_ids {entries : List (RuleEngine.Entry ρ)} {journals : List (Journal ρ)}
    (tell : List.Forall₂ Tells entries journals) :
    journals.map (fun journal => IRule.id journal.rule) =
      entries.map (fun entry => IRule.id entry.rule) := by
  induction tell with
  | nil => rfl
  | @cons entry journal _ _ tells _ ih =>
    have ids := solo_ids journal
    rw [RuleEngine.ruleIds, tells] at ids
    simp [ih, (List.cons.inj ids).1]

/-- The ids are non-empty and distinct, the events returned are numbered from 1 on without a gap,
those of a frame are what the rules return in the order of their registration, and each rule
contributes what it would alone. -/
structure Lawful (h : EngineHistory ρ) : Prop where
  distinct : h.engine.ruleIds.Nodup
  nonempty : "" ∉ h.engine.ruleIds
  numbered : h.returned.map VisionEvent.eventId = List.range' 1 h.returned.length
  counted : h.engine.eventsEmitted = h.returned.length
  registered : h.journals.map (fun journal => IRule.id journal.rule) = h.engine.ruleIds
  grouped : ∀ tracks context, (h.engine.evaluate tracks context).2.map VisionEvent.unnumbered =
    (h.engine.entries.flatMap (fun entry => entry.returns tracks context)).map
      VisionEvent.unnumbered
  isolated : ∀ tracks context, (h.engine.evaluate tracks context).2.map VisionEvent.unnumbered =
    (h.apart tracks context).map VisionEvent.unnumbered

/-- After every sequence of calls. -/
theorem rules_isolated (calls : List (EngineCall ρ)) :
    (run ({} : EngineHistory ρ) calls).Lawful := by
  have kept := run_kept calls
  refine ⟨kept.distinct, kept.nonempty, kept.numbered, kept.counted, tells_ids kept.tell, ?_,
    evaluate_apart kept.tell⟩
  exact fun tracks context => (RuleEngine.evaluate_spec _ tracks context).2

end EngineHistory

/-- A rule that reports every track, throws on every other frame and may throw when it is reset. -/
structure BrittleRule where
  id : String
  resetThrows : Bool := false
  frames : ℕ := 0

namespace BrittleRule

def evaluate (rule : BrittleRule) (tracks : List Track) :
    Except CvException (List VisionEvent) × BrittleRule :=
  (if rule.frames % 2 = 0 then .ok (tracks.map (fun track => { trackId := track.trackId }))
    else .error ⟨"odd frame"⟩,
    { rule with frames := rule.frames + 1 })

instance : IRule BrittleRule where
  id := id
  evaluate rule tracks _ := rule.evaluate tracks
  reset rule := { rule with frames := 0 }

instance : StableId BrittleRule := ⟨fun _ _ _ => rfl, fun _ => rfl⟩

instance : ThrowingReset BrittleRule where
  thrown rule := if rule.resetThrows then some ⟨"reset"⟩ else none

end BrittleRule

theorem brittle_rules_isolated : (EngineHistory.run ({} : EngineHistory BrittleRule)
    [.addRule { id := "a" }, .evaluate [{ trackId := 7 }] {}, .addRule { id := "b" },
      .evaluate [{ trackId := 7 }] {}, .setEnabled "a" false,
      .evaluate [{ trackId := 7 }] {}]).Lawful :=
  EngineHistory.rules_isolated _

structure RenamedRule where
  id : String
  becomes : String

instance : IRule RenamedRule where
  id rule := rule.id
  evaluate rule _ _ := (.ok [], { rule with id := rule.becomes })
  reset rule := rule

/-- A reset that a rule throws out of restarts no number, and the ids of two rules may come to
agree. -/
theorem reset_thrown_and_id_taken :
    ¬ (((EngineHistory.run ({} : EngineHistory BrittleRule)
        [.addRule { id := "a", resetThrows := true }, .evaluate [{ trackId := 7 }] {},
          .reset]).engine.evaluate [{ trackId := 7 }] {}).2.map VisionEvent.eventId = [1]) ∧
      ¬ (((({} : RuleEngine RenamedRule).addRule ⟨"a", "b"⟩).2.addRule ⟨"b", "b"⟩).2.evaluate
        [] {}).1.ruleIds.Nodup := by
  decide +kernel

end VisionLab
