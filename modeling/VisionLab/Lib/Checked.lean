import Mathlib.Data.List.Basic
import Mathlib.Data.List.Forall2

/-! Reads that know where a buffer ends, and loops of steps that may fail. -/
namespace Checked

universe u

variable {ε : Type*} {α β : Type u}

inductive Fault where
  | outside (index : ℕ)
  | nothing
  deriving DecidableEq, Repr

def get (data : List α) (i : ℕ) : Except Fault α :=
  match data[i]? with
  | some x => .ok x
  | none => .error (.outside i)

def segment (data : List α) (start count : ℕ) : Except Fault (List α) :=
  if count = 0 then .error .nothing
  else if start + count ≤ data.length then .ok ((data.drop start).take count)
  else .error (.outside data.length)

theorem get_eq_ok {data : List α} {i : ℕ} {x : α} : get data i = .ok x ↔ data[i]? = some x := by
  unfold get
  cases data[i]? <;> simp

theorem get_of_lt {data : List α} {i : ℕ} (inside : i < data.length) :
    get data i = .ok data[i] :=
  get_eq_ok.mpr (List.getElem?_eq_getElem inside)

theorem lt_of_get {data : List α} {i : ℕ} {x : α} (read : get data i = .ok x) : i < data.length :=
  (List.getElem?_eq_some_iff.mp (get_eq_ok.mp read)).1

theorem segment_eq_ok {data : List α} {start count : ℕ} {xs : List α} :
    segment data start count = .ok xs ↔
      0 < count ∧ start + count ≤ data.length ∧ xs = (data.drop start).take count := by
  unfold segment
  by_cases none_ : count = 0
  · simp [none_]
  · by_cases inside : start + count ≤ data.length
    · simp [none_, inside, Nat.pos_iff_ne_zero, eq_comm]
    · simp [none_, inside]

theorem segment_length {data : List α} {start count : ℕ} {xs : List α}
    (read : segment data start count = .ok xs) : xs.length = count ∧ xs ≠ [] := by
  obtain ⟨some_, inside, rfl⟩ := segment_eq_ok.mp read
  have size : ((data.drop start).take count).length = count := by
    rw [List.length_take, List.length_drop]
    omega
  refine ⟨size, ?_⟩
  intro empty
  rw [empty, List.length_nil] at size
  omega

theorem bind_eq_ok {x : Except ε α} {f : α → Except ε β} {b : β} :
    (x >>= f) = .ok b ↔ ∃ a, x = .ok a ∧ f a = .ok b := by
  cases x with
  | error e => simp [bind, Except.bind]
  | ok a => simp [bind, Except.bind]

theorem mapM_eq_ok {f : α → Except ε β} {xs : List α} {ys : List β} :
    xs.mapM f = .ok ys ↔ List.Forall₂ (fun x y => f x = .ok y) xs ys := by
  induction xs generalizing ys with
  | nil =>
    simp only [List.mapM_nil, List.forall₂_nil_left_iff]
    constructor
    · intro done
      exact (Except.ok.inj done).symm
    · rintro rfl
      rfl
  | cons x xs ih =>
    simp only [List.mapM_cons, bind_eq_ok, ih]
    constructor
    · rintro ⟨y, first, rest, others, done⟩
      obtain rfl := Except.ok.inj done
      exact List.Forall₂.cons first others
    · intro all
      cases all with
      | cons first others => exact ⟨_, first, _, others, rfl⟩

/-- A loop fails at the first step that fails, and nowhere else. -/
theorem exists_mapM {f : α → Except ε β} {xs : List α} :
    (∃ ys, xs.mapM f = .ok ys) ↔ ∀ x ∈ xs, ∃ y, f x = .ok y := by
  simp only [mapM_eq_ok]
  induction xs with
  | nil => simp
  | cons x xs ih =>
    constructor
    · rintro ⟨ys, all⟩ other member
      cases all with
      | cons first others =>
        rcases List.mem_cons.mp member with rfl | later
        · exact ⟨_, first⟩
        · exact ih.mp ⟨_, others⟩ other later
    · intro each
      obtain ⟨y, first⟩ := each x List.mem_cons_self
      obtain ⟨ys, others⟩ := ih.mpr (fun other member => each other (List.mem_cons_of_mem x member))
      exact ⟨y :: ys, List.Forall₂.cons first others⟩

theorem mem_mapM {f : α → Except ε β} {xs : List α} {ys : List β} (done : xs.mapM f = .ok ys)
    {y : β} (member : y ∈ ys) : ∃ x ∈ xs, f x = .ok y := by
  have all := mapM_eq_ok.mp done
  clear done
  induction all with
  | nil => cases member
  | cons first others ih =>
    rcases List.mem_cons.mp member with rfl | later
    · exact ⟨_, List.mem_cons_self, first⟩
    · obtain ⟨x, there, step⟩ := ih later
      exact ⟨x, List.mem_cons_of_mem _ there, step⟩

theorem eq_map_of_mapM {f : α → Except ε β} {g : α → β} {xs : List α} {ys : List β}
    (done : xs.mapM f = .ok ys) (value : ∀ x y, f x = .ok y → y = g x) : ys = xs.map g := by
  have all := mapM_eq_ok.mp done
  clear done
  induction all with
  | nil => rfl
  | cons first others ih => rw [List.map_cons, value _ _ first, ih]

/-- Whatever error there is lies in `P`. -/
def FailsIn (P : ε → Prop) (x : Except ε α) : Prop := ∀ e, x = .error e → P e

variable {P : ε → Prop}

theorem FailsIn.ok (a : α) : FailsIn P (.ok a : Except ε α) := nofun

theorem FailsIn.error {e : ε} (inside : P e) : FailsIn P (.error e : Except ε α) := by
  rintro _ ⟨⟩
  exact inside

theorem FailsIn.bind {x : Except ε α} {f : α → Except ε β} (first : FailsIn P x)
    (rest : ∀ a, x = .ok a → FailsIn P (f a)) : FailsIn P (x >>= f) := by
  cases x with
  | error e => exact FailsIn.error (first e rfl)
  | ok a => exact rest a rfl

theorem FailsIn.ite {c : Prop} [Decidable c] {x y : Except ε α} (yes : c → FailsIn P x)
    (no : ¬ c → FailsIn P y) : FailsIn P (if c then x else y) := by
  split
  · exact yes ‹_›
  · exact no ‹_›

theorem FailsIn.map {x : Except ε α} (f : α → β) (fails : FailsIn P x) : FailsIn P (x.map f) := by
  cases x with
  | error e => exact FailsIn.error (fails e rfl)
  | ok a => exact FailsIn.ok _

theorem FailsIn.foldlM {f : β → α → Except ε β} (each : ∀ b a, FailsIn P (f b a)) (xs : List α)
    (b : β) : FailsIn P (xs.foldlM f b) := by
  induction xs generalizing b with
  | nil => exact FailsIn.ok b
  | cons x xs ih => exact (each b x).bind (fun b _ => ih b)

theorem FailsIn.mapM {f : α → Except ε β} (each : ∀ a, FailsIn P (f a)) (xs : List α) :
    FailsIn P (xs.mapM f) := by
  induction xs with
  | nil => exact FailsIn.ok []
  | cons x xs ih =>
    rw [List.mapM_cons]
    exact (each x).bind (fun _ _ => ih.bind (fun _ _ => FailsIn.ok _))

theorem FailsIn.forM {f : α → Except ε PUnit} (each : ∀ a, FailsIn P (f a)) (xs : List α) :
    FailsIn P (xs.forM f) := by
  induction xs with
  | nil => exact FailsIn.ok _
  | cons x xs ih => exact (each x).bind (fun _ _ => ih)

end Checked
