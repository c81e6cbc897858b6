import Mathlib.Algebra.Order.Ring.Int
import Mathlib.Data.List.DropRight
import Mathlib.Data.List.Perm.Subperm
import VisionLab.Lib.Machine

/-! Reading a log page by page while it changes. The rows stand in the order of their keys; a writer
may drop any of them and add rows above every key it has used, and a reader asks each time for the
first rows behind the last one it was given. -/
namespace Paging

variable {α : Type*} {key : α → ℤ}

/-- The rows of a log, in the order of their keys, and a bound on every key used so far. -/
@[ext]
structure Store (α : Type*) (key : α → ℤ) where
  rows : List α
  top : ℤ
  ascending : rows.Pairwise (fun a b => key a < key b)
  known : ∀ row ∈ rows, key row ≤ top

theorem Store.nodup (s : Store α key) : s.rows.Nodup :=
  s.ascending.imp (fun {_ _} below same => by rw [same] at below; omega)

def Store.append (s : Store α key) (row : α) (above : s.top < key row) : Store α key where
  rows := s.rows ++ [row]
  top := key row
  ascending := List.pairwise_append.mpr ⟨s.ascending, List.pairwise_singleton _ _,
    fun old member _ same => List.mem_singleton.mp same ▸
      Int.lt_of_le_of_lt (s.known old member) above⟩
  known := fun old member => (List.mem_append.mp member).elim
    (fun before => Int.le_of_lt (Int.lt_of_le_of_lt (s.known old before) above))
    (fun own => List.mem_singleton.mp own ▸ Int.le_refl _)

def Store.newest (s : Store α key) (n : ℕ) : Store α key where
  rows := s.rows.rtake n
  top := s.top
  ascending := s.ascending.sublist (List.drop_sublist _ _)
  known := fun row member => s.known row (List.mem_of_mem_drop member)

/-- All that a writer may do between two pages. -/
def Evolves (s t : Store α key) : Prop :=
  s.top ≤ t.top ∧ ∀ row ∈ t.rows, row ∈ s.rows ∨ s.top < key row

def page (key : α → ℤ) (wanted : α → Bool) (limit : ℕ) (after : ℤ) (rows : List α) : List α :=
  (rows.filter (fun row => decide (after < key row) && wanted row)).take limit

structure Reader (α : Type*) where
  after : ℤ
  seen : List α := []

/-- The reader goes on behind the last row of the page. -/
def Reader.receive (key : α → ℤ) (r : Reader α) (found : List α) : Reader α where
  after := (found.getLast?.map key).getD r.after
  seen := r.seen ++ found

/-- What holds of a reader that began behind `start`, whatever was written in between. -/
structure Reading (wanted : α → Bool) (start : ℤ) (s : Store α key) (r : Reader α) : Prop where
  ascending : r.seen.Pairwise (fun a b => key a < key b)
  passed : ∀ row ∈ r.seen, wanted row = true ∧ start < key row ∧ key row ≤ r.after
  reached : start ≤ r.after ∧ (r.after = start ∨ r.after ≤ s.top)
  complete : ∀ row ∈ s.rows, wanted row = true → start < key row → key row ≤ r.after → row ∈ r.seen

/-- The wanted rows that the reader has yet to pass on its way to `row`. -/
def ahead (wanted : α → Bool) (s : Store α key) (after : ℤ) (row : α) : List α :=
  s.rows.filter (fun other => decide (after < key other) && wanted other &&
    decide (key other ≤ key row))

variable {wanted : α → Bool} {start : ℤ} {s t : Store α key} {r : Reader α} {limit : ℕ}

theorem reading_begins (wanted : α → Bool) (start : ℤ) (s : Store α key) :
    Reading wanted start s { after := start } := by
  constructor
  · exact List.Pairwise.nil
  · intro row seen
    cases seen
  · exact ⟨le_refl start, Or.inl rfl⟩
  · intro row _ _ behind before
    exact absurd before (Int.not_le.mpr behind)

theorem Reading.evolves (h : Reading wanted start s r) (change : Evolves s t) :
    Reading wanted start t r := by
  obtain ⟨grown, rows⟩ := change
  obtain ⟨begun, place⟩ := h.reached
  refine ⟨h.ascending, h.passed, ⟨begun, ?_⟩, ?_⟩
  · omega
  · intro row stored asked behind before
    rcases rows row stored with old | new
    · exact h.complete row old asked behind before
    · omega

/-- The page ends with its largest key, and what it leaves out lies behind that key, unless the
page has everything. -/
theorem page_split (wanted : α → Bool) (limit : ℕ) (after : ℤ) (s : Store α key) :
    let found := page key wanted limit after s.rows
    found.Pairwise (fun a b => key a < key b) ∧
      (∀ row ∈ found, row ∈ s.rows ∧ wanted row = true ∧ after < key row) ∧
      (∀ row ∈ s.rows, wanted row = true → after < key row → row ∈ found ∨
        limit ≤ found.length ∧ ∀ other ∈ found, key other < key row) := by
  intro found
  let open_ := s.rows.filter (fun row => decide (after < key row) && wanted row)
  have whole : found ++ open_.drop limit = open_ := List.take_append_drop limit open_
  have sorted : open_.Pairwise (fun a b => key a < key b) := s.ascending.filter _
  rw [← whole] at sorted
  obtain ⟨first, _, across⟩ := List.pairwise_append.mp sorted
  refine ⟨first, ?_, ?_⟩
  · intro row given
    have member : row ∈ open_ := List.mem_of_mem_take given
    simpa [open_, and_comm] using member
  · intro row stored asked behind
    have member : row ∈ open_ := by simp [open_, stored, asked, behind]
    rw [← whole] at member
    rcases List.mem_append.mp member with given | left
    · exact Or.inl given
    · right
      refine ⟨?_, fun other given => across other given row left⟩
      have rest : 0 < (open_.drop limit).length := List.length_pos_of_mem left
      have size : found.length = min limit open_.length := List.length_take
      simp only [List.length_drop] at rest
      omega

theorem receive_after (r : Reader α) (found : List α)
    (ascending : found.Pairwise (fun a b => key a < key b)) :
    (∀ row ∈ found, key row ≤ (r.receive key found).after) ∧
      (found = [] ∧ (r.receive key found).after = r.after ∨
        ∃ row ∈ found, (r.receive key found).after = key row) := by
  rcases List.eq_nil_or_concat found with rfl | ⟨first, last, rfl⟩
  · simp [Reader.receive]
  · rw [List.concat_eq_append] at ascending ⊢
    have final : (r.receive key (first ++ [last])).after = key last := by simp [Reader.receive]
    rw [final]
    refine ⟨?_, Or.inr ⟨last, by simp, rfl⟩⟩
    intro row given
    rcases List.mem_append.mp given with earlier | own
    · exact Int.le_of_lt ((List.pairwise_append.mp ascending).2.2 row earlier last (by simp))
    · rw [List.mem_singleton.mp own]

theorem Reading.receive (h : Reading wanted start s r) :
    Reading wanted start s (r.receive key (page key wanted limit r.after s.rows)) := by
  obtain ⟨ascending, given, left⟩ := page_split wanted limit r.after s
  obtain ⟨begun, place⟩ := h.reached
  generalize page key wanted limit r.after s.rows = found at ascending given left ⊢
  obtain ⟨reach, stop⟩ := receive_after r found ascending
  have forward : r.after ≤ (r.receive key found).after := by
    rcases stop with ⟨-, same⟩ | ⟨row, member, final⟩
    · omega
    · have behind := (given row member).2.2
      omega
  constructor
  · refine List.pairwise_append.mpr ⟨h.ascending, ascending, ?_⟩
    intro old before new member
    have passed := (h.passed old before).2.2
    have behind := (given new member).2.2
    omega
  · intro row member
    rcases List.mem_append.mp member with before | new
    · obtain ⟨asked, behind, passed⟩ := h.passed row before
      exact ⟨asked, behind, passed.trans forward⟩
    · obtain ⟨-, asked, behind⟩ := given row new
      exact ⟨asked, by omega, reach row new⟩
  · refine ⟨begun.trans forward, ?_⟩
    rcases stop with ⟨-, same⟩ | ⟨row, member, final⟩
    · omega
    · have below := s.known row (given row member).1
      omega
  · intro row stored asked behind before
    by_cases passed : key row ≤ r.after
    · exact List.mem_append_left found (h.complete row stored asked behind passed)
    · apply List.mem_append_right
      rcases left row stored asked (by omega) with member | ⟨-, above⟩
      · exact member
      · rcases stop with ⟨-, same⟩ | ⟨other, member, final⟩
        · omega
        · have larger := above other member
          omega

theorem mem_ahead {after : ℤ} {row other : α} :
    other ∈ ahead wanted s after row ↔
      other ∈ s.rows ∧ wanted other = true ∧ after < key other ∧ key other ≤ key row := by
  simp only [ahead, List.mem_filter, Bool.and_eq_true, decide_eq_true_eq]
  tauto

/-- Writing puts nothing between the reader and a row that is already there. -/
theorem ahead_evolves (change : Evolves s t) (after : ℤ) {row : α} (stored : row ∈ s.rows) :
    (ahead wanted t after row).length ≤ (ahead wanted s after row).length := by
  apply List.Subperm.length_le
  apply List.Nodup.subperm
  · exact t.nodup.filter _
  · intro other member
    obtain ⟨here, asked, behind, before⟩ := mem_ahead.mp member
    have below := s.known row stored
    rcases change.2 other here with old | new
    · exact mem_ahead.mpr ⟨old, asked, behind, before⟩
    · omega

theorem ahead_receive (some_ : 0 < limit) {row : α} (stored : row ∈ s.rows)
    (asked : wanted row = true) (behind : r.after < key row) :
    let next := r.receive key (page key wanted limit r.after s.rows)
    row ∈ next.seen ∨
      (ahead wanted s next.after row).length < (ahead wanted s r.after row).length := by
  obtain ⟨ascending, given, left⟩ := page_split wanted limit r.after s
  intro next
  rcases left row stored asked behind with member | ⟨full, above⟩
  · exact Or.inl (List.mem_append_right _ member)
  · right
    obtain ⟨reach, stop⟩ := receive_after r _ ascending
    rcases stop with ⟨nothing, -⟩ | ⟨other, member, final⟩
    · rw [nothing, List.length_nil] at full
      omega
    · obtain ⟨here, wish, beyond⟩ := given other member
      have moved : next.after = key other := final
      have below := above other member
      -- the last row of the page was ahead of the reader, and is so no longer
      have counted : other ∈ ahead wanted s r.after row :=
        mem_ahead.mpr ⟨here, wish, beyond, by omega⟩
      have fresh : other ∉ ahead wanted s next.after row := by
        intro still
        obtain ⟨-, -, later, -⟩ := mem_ahead.mp still
        omega
      have inside : other :: ahead wanted s next.after row ⊆ ahead wanted s r.after row := by
        intro one listed
        rcases List.mem_cons.mp listed with rfl | later
        · exact counted
        · obtain ⟨there, likewise, farther, before⟩ := mem_ahead.mp later
          exact mem_ahead.mpr ⟨there, likewise, by omega, before⟩
      have distinct : (other :: ahead wanted s next.after row).Nodup :=
        List.nodup_cons.mpr ⟨fresh, s.nodup.filter _⟩
      exact (distinct.subperm inside).length_le

/-! ### Runs of writes and pages -/

inductive Turn (W : Type*) where
  | write (change : W)
  | page

def Turn.isPage {W : Type*} : Turn W → Bool
  | .write _ => false
  | .page => true

section Runs

variable {S W : Type*} {view : S → Store α key} {write : S → W → S} {ask : S → ℤ → List α}

def step (key : α → ℤ) (write : S → W → S) (ask : S → ℤ → List α) :
    S × Reader α → Turn W → S × Reader α
  | (s, r), .write change => (write s change, r)
  | (s, r), .page => (s, r.receive key (ask s r.after))

/-- What a log has to offer to be read page by page. -/
structure Served (view : S → Store α key) (write : S → W → S) (ask : S → ℤ → List α)
    (wanted : α → Bool) (limit : ℕ) (start : ℤ) : Prop where
  grows : ∀ s change, Evolves (view s) (view (write s change))
  answers : ∀ s after, start ≤ after → (after = start ∨ after ≤ (view s).top) →
    ask s after = page key wanted limit after (view s).rows

theorem step_reading (served : Served view write ask wanted limit start) (sr : S × Reader α)
    (h : Reading wanted start (view sr.1) sr.2) (turn : Turn W) :
    Reading wanted start (view (step key write ask sr turn).1) (step key write ask sr turn).2 := by
  obtain ⟨s, r⟩ := sr
  cases turn with
  | write change => exact h.evolves (served.grows s change)
  | page =>
    simp only [step, served.answers s r.after h.reached.1 h.reached.2]
    exact h.receive

theorem run_reading (served : Served view write ask wanted limit start) (s : S)
    (turns : List (Turn W)) :
    let final := Machine.run (step key write ask) (s, { after := start }) turns
    Reading wanted start (view final.1) final.2 :=
  Machine.run_invariant (P := fun sr => Reading wanted start (view sr.1) sr.2)
    (reading_begins wanted start (view s)) (fun sr turn h => step_reading served sr h turn) turns

theorem step_seen (sr : S × Reader α) (turn : Turn W) :
    sr.2.seen <+: (step key write ask sr turn).2.seen := by
  cases turn with
  | write change => exact List.prefix_refl _
  | page => exact List.prefix_append _ _

theorem run_seen (sr : S × Reader α) (turns : List (Turn W)) :
    sr.2.seen <+: (Machine.run (step key write ask) sr turns).2.seen := by
  apply Machine.run_invariant (P := fun now : S × Reader α => sr.2.seen <+: now.2.seen)
  · exact List.prefix_refl _
  · intro now turn before
    exact before.trans (step_seen now turn)

theorem run_gone (served : Served view write ask wanted limit start) {row : α} (sr : S × Reader α)
    (known : key row ≤ (view sr.1).top) (gone : row ∉ (view sr.1).rows) (turns : List (Turn W)) :
    row ∉ (view (Machine.run (step key write ask) sr turns).1).rows := by
  refine (Machine.run_invariant
    (P := fun now : S × Reader α => key row ≤ (view now.1).top ∧ row ∉ (view now.1).rows)
    ⟨known, gone⟩ ?_ turns).2
  rintro ⟨s, r⟩ turn ⟨below, out⟩
  cases turn with
  | page => exact ⟨below, out⟩
  | write change =>
    obtain ⟨grown, rows⟩ := served.grows s change
    refine ⟨below.trans grown, ?_⟩
    intro back
    rcases rows row back with old | new
    · exact out old
    · exact absurd below (Int.not_le.mpr new)

/-- Enough pages bring the reader to every wanted row that is still there by then, whatever is
written in between. -/
theorem run_arrives (served : Served view write ask wanted limit start) (some_ : 0 < limit)
    {row : α} (asked : wanted row = true) (behind : start < key row) (sr : S × Reader α)
    (h : Reading wanted start (view sr.1) sr.2) (stored : row ∈ (view sr.1).rows)
    (turns : List (Turn W))
    (enough : (ahead wanted (view sr.1) sr.2.after row).length ≤ turns.countP Turn.isPage) :
    let final := Machine.run (step key write ask) sr turns
    row ∈ final.2.seen ∨ row ∉ (view final.1).rows := by
  induction turns generalizing sr with
  | nil =>
    left
    by_cases passed : key row ≤ sr.2.after
    · exact h.complete row stored asked behind passed
    · have counted : row ∈ ahead wanted (view sr.1) sr.2.after row :=
        mem_ahead.mpr ⟨stored, asked, by omega, Int.le_refl _⟩
      have nonempty := List.length_pos_of_mem counted
      simp only [List.countP_nil] at enough
      omega
  | cons turn turns ih =>
    have next := step_reading served sr h turn
    obtain ⟨s, r⟩ := sr
    cases turn with
    | write change =>
      have change_ := served.grows s change
      by_cases still : row ∈ (view (write s change)).rows
      · have closer : (ahead wanted (view (write s change)) r.after row).length ≤
            (ahead wanted (view s) r.after row).length :=
          ahead_evolves change_ r.after stored
        refine ih (write s change, r) next still ?_
        simp only [List.countP_cons, Turn.isPage] at enough
        exact closer.trans (by simpa using enough)
      · have below := ((view s).known row stored).trans change_.1
        exact Or.inr (run_gone served (write s change, r) below still turns)
    | page =>
      have answer := served.answers s r.after h.reached.1 h.reached.2
      have told : ∀ {moved : Reader α}, row ∈ moved.seen → row ∈
          (Machine.run (step key write ask) (s, moved) turns).2.seen :=
        fun {moved} seen => (run_seen (s, moved) turns).subset seen
      by_cases passed : key row ≤ r.after
      · have before : row ∈ r.seen := h.complete row stored asked behind passed
        exact Or.inl (told (List.mem_append_left _ before))
      · have arrives := ahead_receive some_ stored asked (Int.not_le.mp passed)
        rw [← answer] at arrives
        rcases arrives with seen | closer
        · exact Or.inl (told seen)
        · refine ih (s, r.receive key (ask s r.after)) next stored ?_
          simp only [List.countP_cons, Turn.isPage] at enough
          simp only [if_true] at enough
          exact Nat.le_of_lt_succ (Nat.lt_of_lt_of_le closer enough)

end Runs

end Paging
