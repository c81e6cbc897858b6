import Mathlib.Data.List.Forall2

/-! Runs of a machine that answers every input: the outputs in order, the state at the end, and
two machines run side by side. -/
namespace Mealy

variable {S T I J O P : Type*}

def run (step : S → I → O × S) : S → List I → List O × S
  | s, [] => ([], s)
  | s, i :: is => ((step s i).1 :: (run step (step s i).2 is).1, (run step (step s i).2 is).2)

variable {step : S → I → O × S}

@[simp] theorem run_nil (s : S) : run step s [] = ([], s) := rfl

@[simp] theorem run_cons (s : S) (i : I) (is : List I) : run step s (i :: is) =
    ((step s i).1 :: (run step (step s i).2 is).1, (run step (step s i).2 is).2) := rfl

theorem run_append (s : S) (is js : List I) : run step s (is ++ js) =
    ((run step s is).1 ++ (run step (run step s is).2 js).1,
      (run step (run step s is).2 js).2) := by
  induction is generalizing s with
  | nil => simp
  | cons i is ih => simp [ih]

@[simp] theorem run_length (s : S) (is : List I) : (run step s is).1.length = is.length := by
  induction is generalizing s with
  | nil => rfl
  | cons i is ih => simp [ih]

theorem run_take (s : S) (is : List I) (n : ℕ) :
    (run step s (is.take n)).1 = (run step s is).1.take n := by
  induction is generalizing s n with
  | nil => simp
  | cons i is ih =>
    cases n with
    | zero => rfl
    | succ n => simp [ih]

theorem run_getElem?_congr (s : S) {is js : List I} {n : ℕ}
    (same : is.take (n + 1) = js.take (n + 1)) : (run step s is).1[n]? = (run step s js).1[n]? := by
  have taken := congrArg (fun l => l[n]?) (congrArg (fun l => (run step s l).1) same)
  simpa [run_take] using taken

theorem run_drop (s : S) (is : List I) (n : ℕ) :
    (run step s is).1.drop n = (run step (run step s (is.take n)).2 (is.drop n)).1 := by
  induction is generalizing s n with
  | nil => simp
  | cons i is ih =>
    cases n with
    | zero => rfl
    | succ n => simp [ih]

theorem run_invariant {R : S → Prop} {s : S} (base : R s) (keeps : ∀ s i, R s → R (step s i).2)
    (is : List I) : R (run step s is).2 := by
  induction is generalizing s with
  | nil => exact base
  | cons i is ih => exact ih (keeps s i base)

theorem foldl_run {step : S → I → List O × S} {body : S × List O → I → S × List O}
    (turn : ∀ s os i, body (s, os) i = ((step s i).2, os ++ (step s i).1)) (s : S) (os : List O)
    (is : List I) :
    is.foldl body (s, os) = ((run step s is).2, os ++ (run step s is).1.flatten) := by
  induction is generalizing s os with
  | nil => simp
  | cons i is ih => simp [turn, ih]

theorem run_brief {step : S → I → List O × S} (brief : ∀ s i, (step s i).1.length ≤ 1) (s : S)
    (is : List I) : (run step s is).1.flatten.length ≤ is.length := by
  induction is generalizing s with
  | nil => exact Nat.le_refl _
  | cons i is ih =>
    have here := brief s i
    have rest := ih (step s i).2
    simp only [run_cons, List.flatten_cons, List.length_append, List.length_cons]
    omega

theorem run_at (s : S) {is : List I} {n : ℕ} {i : I} (there : is[n]? = some i) :
    (run step s is).1[n]? = some (step (run step s (is.take n)).2 i).1 ∧
      (run step s (is.take (n + 1))).2 = (step (run step s (is.take n)).2 i).2 := by
  induction is generalizing s n with
  | nil => simp at there
  | cons j is ih =>
    cases n with
    | zero =>
      obtain rfl := Option.some.inj there
      exact ⟨rfl, rfl⟩
    | succ n => exact ih (step s j).2 there

/-- A machine with a part that never changes, which steps, seen through maps of states, inputs and
answers, as the machine for that part does, answers as that machine does. -/
theorem run_seen {C : Type*} {other : C → T → J → P × T} (part : S → C) (state : S → T) (see : I → J)
    (answer : O → P) {Fine : I → Prop} (kept : ∀ s i, part (step s i).2 = part s)
    (steps : ∀ s i, Fine i →
      (answer (step s i).1, state (step s i).2) = other (part s) (state s) (see i))
    (s : S) {is : List I} (fine : ∀ i ∈ is, Fine i) :
    (run step s is).1.map answer = (run (other (part s)) (state s) (is.map see)).1 := by
  induction is generalizing s with
  | nil => rfl
  | cons i is ih =>
    have here := steps s i (fine i List.mem_cons_self)
    have rest := ih (step s i).2 (fun j hj => fine j (List.mem_cons_of_mem i hj))
    rw [kept] at rest
    simp only [run_cons, List.map_cons, ← here, rest]

/-- Two machines whose states stay related answer the same inputs with related outputs. -/
theorem run_simulates {other : T → I → P × T} {R : S → T → Prop} {Q : O → P → Prop}
    (keeps : ∀ s t i, R s t → Q (step s i).1 (other t i).1 ∧ R (step s i).2 (other t i).2)
    {s : S} {t : T} (base : R s t) (is : List I) :
    List.Forall₂ Q (run step s is).1 (run other t is).1 ∧
      R (run step s is).2 (run other t is).2 := by
  induction is generalizing s t with
  | nil => exact ⟨.nil, base⟩
  | cons i is ih =>
    obtain ⟨here, next⟩ := keeps s t i base
    obtain ⟨later, last⟩ := ih next
    exact ⟨.cons here later, last⟩

theorem related_at {Q : O → P → Prop} {os : List O} {ps : List P} (related : List.Forall₂ Q os ps)
    {n : ℕ} {o : O} {p : P} (there : os[n]? = some o) (here : ps[n]? = some p) : Q o p := by
  induction related generalizing n with
  | nil => simp at there
  | cons head _ ih =>
    cases n with
    | zero =>
      obtain rfl := Option.some.inj there
      obtain rfl := Option.some.inj here
      exact head
    | succ n => exact ih there here

end Mealy
