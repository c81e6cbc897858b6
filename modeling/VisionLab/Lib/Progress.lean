import VisionLab.Lib.Machine

/-! Progress of a machine under bounded fairness. The events of a run come in rounds; what has to
come in every round is up to the machine, and anything else may come between. -/
namespace Machine

variable {S E : Type*} {step : S → E → S} {fair : List E → Prop} {P Q R I : S → Prop}

/-- From a state of `P`, `n` fair rounds and any that follow them end in `Q`. -/
def Within (step : S → E → S) (fair : List E → Prop) (n : ℕ) (P Q : S → Prop) : Prop :=
  ∀ s, P s → ∀ rounds : List (List E), (∀ round ∈ rounds, fair round) → n ≤ rounds.length →
    Q (run step s rounds.flatten)

theorem Within.mono {n m : ℕ} (h : Within step fair n P Q) (longer : n ≤ m)
    (weaker : ∀ s, Q s → R s) : Within step fair m P R :=
  fun s base rounds each long => weaker _ (h s base rounds each (longer.trans long))

theorem Within.trans {n m : ℕ} (first : Within step fair n P Q) (next : Within step fair m Q R) :
    Within step fair (n + m) P R := by
  intro s base rounds each long
  have reached : Q (run step s (rounds.take n).flatten) := by
    refine first s base _ (fun round taken => each round (List.mem_of_mem_take taken)) ?_
    rw [List.length_take]
    omega
  rw [← List.take_append_drop n rounds, List.flatten_append, run_append]
  refine next _ reached _ (fun round dropped => each round (List.mem_of_mem_drop dropped)) ?_
  rw [List.length_drop]
  omega

theorem Within.and {n m : ℕ} (left : Within step fair n P Q) (right : Within step fair m P R) :
    Within step fair (max n m) P (fun s => Q s ∧ R s) :=
  fun s base rounds each long =>
    ⟨left s base rounds each (by omega), right s base rounds each (by omega)⟩

variable {rank : S → ℕ} {mine : E → Bool}

theorem run_rank_le (keeps : ∀ s event, I s → I (step s event))
    (never : ∀ s event, I s → rank (step s event) ≤ rank s) {s : S} (base : I s)
    (events : List E) : rank (run step s events) ≤ rank s := by
  induction events generalizing s with
  | nil => exact le_refl _
  | cons event events ih => exact (ih (keeps s event base)).trans (never s event base)

theorem run_rank_drops (keeps : ∀ s event, I s → I (step s event))
    (never : ∀ s event, I s → rank (step s event) ≤ rank s)
    (drops : ∀ s event, I s → mine event = true → rank (step s event) ≤ rank s - 1) {s : S}
    (base : I s) {events : List E} (moves : events.any mine = true) :
    rank (run step s events) ≤ rank s - 1 := by
  induction events generalizing s with
  | nil => contradiction
  | cons event events ih =>
    have kept := keeps s event base
    by_cases own : mine event = true
    · exact (run_rank_le keeps never kept events).trans (drops s event base own)
    · have later : events.any mine = true := by simpa [own] using moves
      have first := never s event base
      have rest := ih kept later
      simp only [run_cons]
      omega

/-- The ranking rule: a rank that its owner lowers and nobody raises is used up in as many rounds,
if the owner moves in each of them. -/
theorem Within.of_rank (step : S → E → S) (fair : List E → Prop) (rank : S → ℕ) (mine : E → Bool)
    (keeps : ∀ s event, I s → I (step s event))
    (never : ∀ s event, I s → rank (step s event) ≤ rank s)
    (drops : ∀ s event, I s → mine event = true → rank (step s event) ≤ rank s - 1)
    (moves : ∀ round, fair round → round.any mine = true) {n : ℕ}
    (bound : ∀ s, I s → rank s ≤ n) : Within step fair n I (fun s => I s ∧ rank s = 0) := by
  intro s base rounds each long
  have after : I (run step s rounds.flatten) ∧
      rank (run step s rounds.flatten) ≤ rank s - rounds.length := by
    clear long
    induction rounds generalizing s with
    | nil => exact ⟨base, le_refl _⟩
    | cons round rounds ih =>
      simp only [List.forall_mem_cons] at each
      have kept : I (run step s round) := run_invariant base keeps round
      have first := run_rank_drops keeps never drops base (moves round each.1)
      obtain ⟨held, rest⟩ := ih _ kept each.2
      rw [List.flatten_cons, run_append, List.length_cons]
      exact ⟨held, by omega⟩
  have enough := bound s base
  exact ⟨after.1, by omega⟩

end Machine
