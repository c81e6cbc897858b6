import Mathlib.Order.Basic

/-! Programs that ask a world outside for things, where the world may answer in several ways, and
what holds of that world at every moment of their runs, also where a run breaks off. -/
namespace Crash

universe u v w x

/-- A program over a type of requests, each of which has answers of its own. -/
inductive Program (R : Type u) (Answer : R → Type v) (α : Type w) where
  | done (a : α)
  | ask (r : R) (next : Answer r → Program R Answer α)

namespace Program

variable {R : Type u} {Answer : R → Type v} {α β : Type w}

def bind : Program R Answer α → (α → Program R Answer β) → Program R Answer β
  | .done a, f => f a
  | .ask r next, f => .ask r (fun answer => (next answer).bind f)

instance : Monad (Program R Answer) where
  pure := .done
  bind := bind

def request (r : R) : Program R Answer (Answer r) := .ask r .done

end Program

section World

variable {R : Type u} {Answer : R → Type v} {W : Type x} {α β : Type w}
variable {E : W → (r : R) → Answer r → W → Prop}
variable {I : W → Prop} {Q Q' : α → W → Prop} {p : Program R Answer α} {w w' : W}

/-- A run in the world `E`, which comes to its end with a result or breaks off without one. -/
inductive Run (E : W → (r : R) → Answer r → W → Prop) :
    Program R Answer α → W → Option α → W → Prop
  | broken (p : Program R Answer α) (w : W) : Run E p w none w
  | done (a : α) (w : W) : Run E (.done a) w (some a) w
  | ask {r : R} {next : Answer r → Program R Answer α} {w between after : W} {answer : Answer r}
      {result : Option α} (answered : E w r answer between)
      (rest : Run E (next answer) between result after) : Run E (.ask r next) w result after

/-- `I` holds at every moment of every run, and `Q` where a run has come to its end. -/
def Always (E : W → (r : R) → Answer r → W → Prop) (I : W → Prop) (Q : α → W → Prop) :
    Program R Answer α → W → Prop
  | .done a, w => I w ∧ Q a w
  | .ask r next, w => I w ∧ ∀ answer between, E w r answer between → Always E I Q (next answer) between

theorem Always.now (holds : Always E I Q p w) : I w := by
  cases p with
  | done a => exact holds.1
  | ask r next => exact holds.1

/-- The rules decide what every run does. -/
theorem Always.run (holds : Always E I Q p w) {result : Option α} (run : Run E p w result w') :
    I w' ∧ ∀ a, result = some a → Q a w' := by
  induction run with
  | broken p w =>
    refine ⟨holds.now, ?_⟩
    intro a ended
    cases ended
  | done a w =>
    refine ⟨holds.1, ?_⟩
    rintro _ ⟨⟩
    exact holds.2
  | ask answered rest ih => exact ih (holds.2 _ _ answered)

theorem always_bind {f : α → Program R Answer β} {Q : β → W → Prop} :
    Always E I Q (p.bind f) w ↔ Always E I (fun a w => Always E I Q (f a) w) p w := by
  induction p generalizing w with
  | done a =>
    constructor
    · intro holds
      exact ⟨holds.now, holds⟩
    · intro holds
      exact holds.2
  | ask r next ih =>
    constructor
    · intro holds
      exact ⟨holds.1, fun answer between answered => (ih answer).mp (holds.2 _ _ answered)⟩
    · intro holds
      exact ⟨holds.1, fun answer between answered => (ih answer).mpr (holds.2 _ _ answered)⟩

theorem Always.mono {I' : W → Prop} (holds : Always E I Q p w) (inv : ∀ w, I w → I' w)
    (weaker : ∀ a w, I w → Q a w → Q' a w) : Always E I' Q' p w := by
  induction p generalizing w with
  | done a => exact ⟨inv w holds.1, weaker a w holds.1 holds.2⟩
  | ask r next ih =>
    exact ⟨inv w holds.1, fun answer between answered => ih answer (holds.2 _ _ answered)⟩

/-- A run may come to make the request. -/
inductive Reaches (E : W → (r : R) → Answer r → W → Prop) : Program R Answer α → W → R → Prop
  | now {r : R} (next : Answer r → Program R Answer α) (w : W) : Reaches E (.ask r next) w r
  | later {r asked : R} {next : Answer r → Program R Answer α} {w between : W} {answer : Answer r}
      (answered : E w r answer between) (rest : Reaches E (next answer) between asked) :
      Reaches E (.ask r next) w asked

/-- Every request of every run is one of `ok`, and `Q` holds where a run has come to its end. -/
def Asks (E : W → (r : R) → Answer r → W → Prop) (ok : R → Prop) (Q : α → W → Prop) :
    Program R Answer α → W → Prop
  | .done a, w => Q a w
  | .ask r next, w =>
    ok r ∧ ∀ answer between, E w r answer between → Asks E ok Q (next answer) between

variable {ok : R → Prop}

theorem asks_bind {f : α → Program R Answer β} {Q : β → W → Prop}
    (holds : Asks E ok (fun a w => Asks E ok Q (f a) w) p w) : Asks E ok Q (p.bind f) w := by
  induction p generalizing w with
  | done a => exact holds
  | ask r next ih =>
    exact ⟨holds.1, fun answer between answered => ih answer (holds.2 _ _ answered)⟩

theorem Asks.reaches (holds : Asks E ok Q p w) {r : R} (reached : Reaches E p w r) : ok r := by
  induction reached with
  | now next w => exact holds.1
  | later answered rest ih => exact ih (holds.2 _ _ answered)

theorem Asks.always (holds : Asks E ok Q p w)
    (still : ∀ w r answer between, ok r → E w r answer between → between = w) :
    Always E (fun w' => w' = w) Q p w := by
  induction p with
  | done a => exact ⟨rfl, holds⟩
  | ask r next ih =>
    refine ⟨rfl, ?_⟩
    intro answer between answered
    obtain rfl := still w r answer between holds.1 answered
    exact ih answer (holds.2 _ _ answered)

theorem Asks.ends (holds : Asks E ok Q p w)
    (answers : ∀ w r, ok r → ∃ answer between, E w r answer between) :
    ∃ a w', Run E p w (some a) w' ∧ Q a w' := by
  induction p generalizing w with
  | done a => exact ⟨a, w, .done a w, holds⟩
  | ask r next ih =>
    obtain ⟨answer, between, answered⟩ := answers w r holds.1
    obtain ⟨a, after, rest, ended⟩ := ih answer (holds.2 _ _ answered)
    exact ⟨a, after, .ask answered rest, ended⟩

end World

end Crash
