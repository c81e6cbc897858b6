import Mathlib.Data.List.Basic
import VisionLab.Core.Types

/-! The rule engine. It runs the enabled rules in order, drops the events of a rule that throws
and numbers the others. -/
namespace VisionLab

/-- The extension point of the rules. An evaluation that throws may have changed the rule. -/
class IRule (ρ : Type) where
  id : ρ → String
  evaluate : ρ → List Track → RuleContext → Except CvException (List VisionEvent) × ρ
  reset : ρ → ρ

/-- The id of a rule never changes. -/
class StableId (ρ : Type) [IRule ρ] : Prop where
  evaluate : ∀ (rule : ρ) tracks context,
    IRule.id (IRule.evaluate rule tracks context).2 = IRule.id rule
  reset : ∀ rule : ρ, IRule.id (IRule.reset rule) = IRule.id rule

def classAllowed (classIds : List ℤ) (classId : ℤ) : Bool :=
  classIds.isEmpty || classIds.contains classId

structure RuleEngine.Entry (ρ : Type) where
  rule : ρ
  enabled : Bool := true

structure RuleEngine (ρ : Type) where
  entries : List (RuleEngine.Entry ρ) := []
  nextEventId : ℕ := 1
  eventsEmitted : ℕ := 0

namespace RuleEngine

variable {ρ : Type} [IRule ρ]

def find (e : RuleEngine ρ) (ruleId : String) : Option (Entry ρ) :=
  e.entries.find? (fun entry => IRule.id entry.rule = ruleId)

/- A null pointer is turned away as well; a rule of the model is never null. -/
def addRule (e : RuleEngine ρ) (rule : ρ) : Bool × RuleEngine ρ :=
  if IRule.id rule = "" then (false, e)
  else if (e.find (IRule.id rule)).isSome then (false, e)
  else (true, { e with entries := e.entries ++ [{ rule := rule }] })

def setEnabledFirst (ruleId : String) (enabled : Bool) : List (Entry ρ) → List (Entry ρ)
  | [] => []
  | entry :: rest =>
    if IRule.id entry.rule = ruleId then { entry with enabled := enabled } :: rest
    else entry :: setEnabledFirst ruleId enabled rest

def setEnabled (e : RuleEngine ρ) (ruleId : String) (enabled : Bool) : Bool × RuleEngine ρ :=
  match e.find ruleId with
  | none => (false, e)
  | some _ => (true, { e with entries := setEnabledFirst ruleId enabled e.entries })

def isEnabled (e : RuleEngine ρ) (ruleId : String) : Bool :=
  ((e.find ruleId).map Entry.enabled).getD false

def size (e : RuleEngine ρ) : ℕ := e.entries.length

def numbered (next : ℕ) (part : List VisionEvent) : List VisionEvent :=
  part.mapIdx (fun i event => { event with eventId := next + i })

/-- The loop over the entries, with the next free event number. -/
def evaluateEntries (tracks : List Track) (context : RuleContext) :
    List (Entry ρ) → ℕ → List (Entry ρ) × List VisionEvent
  | [], _ => ([], [])
  | entry :: rest, next =>
    if !entry.enabled then
      let after := evaluateEntries tracks context rest next
      (entry :: after.1, after.2)
    else
      match IRule.evaluate entry.rule tracks context with
      | (.ok part, rule) =>
        let after := evaluateEntries tracks context rest (next + part.length)
        ({ entry with rule := rule } :: after.1, numbered next part ++ after.2)
      | (.error _, rule) =>
        let after := evaluateEntries tracks context rest next
        ({ entry with rule := rule } :: after.1, after.2)

def evaluate (e : RuleEngine ρ) (tracks : List Track) (context : RuleContext) :
    RuleEngine ρ × List VisionEvent :=
  if e.entries.isEmpty then (e, [])
  else
    let after := evaluateEntries tracks context e.entries e.nextEventId
    ({ entries := after.1
       nextEventId := e.nextEventId + after.2.length
       eventsEmitted := e.eventsEmitted + after.2.length }, after.2)

def reset (e : RuleEngine ρ) : RuleEngine ρ where
  entries := e.entries.map (fun entry => { entry with rule := IRule.reset entry.rule })
  nextEventId := 1
  eventsEmitted := 0

def clear (_e : RuleEngine ρ) : RuleEngine ρ := {}

def ruleIds (e : RuleEngine ρ) : List String := e.entries.map (fun entry => IRule.id entry.rule)

def stats (e : RuleEngine ρ) : RuleEngineStats where
  ruleCount := e.entries.length
  enabledRules := e.entries.countP (fun entry => entry.enabled)
  eventsEmitted := e.eventsEmitted

/- Numbering. -/

theorem numbered_ids (next : ℕ) (part : List VisionEvent) :
    (numbered next part).map VisionEvent.eventId = List.range' next part.length := by
  apply List.ext_getElem
  · simp [numbered]
  · intro i _ _
    simp [numbered]

theorem evaluateEntries_ids (tracks : List Track) (context : RuleContext)
    (entries : List (Entry ρ)) (next : ℕ) :
    (evaluateEntries tracks context entries next).2.map VisionEvent.eventId =
      List.range' next (evaluateEntries tracks context entries next).2.length := by
  induction entries generalizing next with
  | nil => rfl
  | cons entry rest ih =>
    unfold evaluateEntries
    split
    · exact ih next
    · split
      · rename_i part rule _
        have length : (numbered next part).length = part.length := List.length_mapIdx
        rw [List.map_append, numbered_ids, ih, List.length_append, length,
          ← List.range'_append_1]
      · exact ih next

theorem evaluate_ids (e : RuleEngine ρ) (tracks : List Track) (context : RuleContext) :
    (e.evaluate tracks context).2.map VisionEvent.eventId =
      List.range' e.nextEventId (e.evaluate tracks context).2.length ∧
    (e.evaluate tracks context).1.nextEventId =
      e.nextEventId + (e.evaluate tracks context).2.length := by
  unfold evaluate
  split
  · exact ⟨rfl, rfl⟩
  · exact ⟨evaluateEntries_ids tracks context e.entries e.nextEventId, rfl⟩

end RuleEngine

end VisionLab
