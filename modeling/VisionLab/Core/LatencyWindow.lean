import VisionLab.Lib.Checked
import VisionLab.Lib.Machine
import VisionLab.Lib.Samples
import Mathlib.Data.List.GetD
import Mathlib.Data.List.Sort
import Mathlib.Data.Rat.Floor

/-! The window of the last latencies, from which the statistics take their mean and their
percentiles. Milliseconds are exact rationals. -/
namespace VisionLab

open Checked (Fault)

/-- A ring of samples. It fills from the front, and from then on `next` is its oldest slot. -/
structure LatencyWindow where
  capacity : ℕ
  samples : List ℚ := []
  next : ℕ := 0
  bounded : samples.length ≤ capacity
  inside : next < capacity
  filling : samples.length < capacity → next = 0

namespace LatencyWindow

/-- The constructor refuses a capacity of zero. -/
def create (capacity : ℕ := 256) : Except String LatencyWindow :=
  if empty : capacity = 0 then .error "LatencyWindow capacity must be >= 1"
  else .ok
    { capacity := capacity
      bounded := Nat.zero_le _
      inside := Nat.pos_of_ne_zero empty
      filling := fun _ => rfl }

def record (milliseconds : ℚ) (w : LatencyWindow) : LatencyWindow :=
  if room : w.samples.length < w.capacity then
    { w with
      samples := w.samples ++ [milliseconds]
      bounded := (List.length_append ..).le.trans room
      filling := fun _ => w.filling room }
  else
    { w with
      samples := w.samples.set w.next milliseconds
      next := (w.next + 1) % w.capacity
      bounded := (List.length_set ..).le.trans w.bounded
      inside := Nat.mod_lt _ (Nat.zero_lt_of_lt w.inside)
      filling := fun short => absurd ((List.length_set ..).symm.trans_lt short) room }

def reset (w : LatencyWindow) : LatencyWindow :=
  { w with samples := [], next := 0, bounded := Nat.zero_le _, filling := fun _ => rfl,
           inside := Nat.zero_lt_of_lt w.inside }

def mean (w : LatencyWindow) : ℚ :=
  if w.samples = [] then 0
  else w.samples.foldl (fun sum sample => sum + sample) 0 / w.samples.length

/-- Linear interpolation in the sorted samples; an error stands for a read outside of them. -/
def percentile (percent : ℚ) (w : LatencyWindow) : Except Fault ℚ :=
  if w.samples = [] then .ok 0
  else do
    let sorted := w.samples.insertionSort (· ≤ ·)
    let clamped := max 0 (min percent 100)
    let rank := clamped / 100 * (sorted.length - 1 : ℕ)
    let lo := ⌊rank⌋₊
    let hi := ⌈rank⌉₊
    if lo = hi then Checked.get sorted lo
    else
      let frac := rank - lo
      let low ← Checked.get sorted lo
      let high ← Checked.get sorted hi
      .ok (low + frac * (high - low))

inductive Call where
  | record (milliseconds : ℚ)
  | reset
  deriving DecidableEq, Repr

def step (w : LatencyWindow) : Call → LatencyWindow
  | .record milliseconds => w.record milliseconds
  | .reset => w.reset

def sinceReset (calls : List Call) : List ℚ :=
  calls.foldl (fun records call =>
    match call with
    | .record milliseconds => records ++ [milliseconds]
    | .reset => []) []

def fromOldest (w : LatencyWindow) : List ℚ := w.samples.rotate w.next

/-- The window shows `recent`: it stores these values and its statistics are theirs. -/
structure Shows (w : LatencyWindow) (recent : List ℚ) : Prop where
  stored : w.fromOldest = recent
  mean_eq : w.mean = if recent = [] then 0 else recent.sum / recent.length
  safe : ∀ percent, ∃ value, w.percentile percent = .ok value
  multiset : ∀ other : LatencyWindow, other.samples.Perm recent →
    ∀ percent, other.percentile percent = w.percentile percent
  between : ∀ percent value, w.percentile percent = .ok value →
    ∀ least greatest, IsLeast {x | x ∈ recent} least → IsGreatest {x | x ∈ recent} greatest →
      least ≤ value ∧ value ≤ greatest
  at_bottom : ∀ percent least, percent ≤ 0 → IsLeast {x | x ∈ recent} least →
    w.percentile percent = .ok least
  at_top : ∀ percent greatest, 100 ≤ percent → IsGreatest {x | x ∈ recent} greatest →
    w.percentile percent = .ok greatest
  increasing : ∀ percent higher low high, percent ≤ higher → w.percentile percent = .ok low →
    w.percentile higher = .ok high → low ≤ high

theorem create_ok {capacity : ℕ} (positive : 1 ≤ capacity) :
    ∃ w, create capacity = .ok w ∧ w.capacity = capacity ∧ w.samples = [] := by
  have some_ : capacity ≠ 0 := by omega
  simp only [create, dif_neg some_]
  exact ⟨_, rfl, rfl, rfl⟩

theorem capacity_step (w : LatencyWindow) (call : Call) : (step w call).capacity = w.capacity := by
  cases call with
  | record milliseconds =>
    simp only [step, record]
    split <;> rfl
  | reset => rfl

theorem capacity_run (w : LatencyWindow) (calls : List Call) :
    (Machine.run step w calls).capacity = w.capacity := by
  induction calls generalizing w with
  | nil => rfl
  | cons call calls ih =>
    simp only [Machine.run_cons, ih, capacity_step]

@[simp] theorem sinceReset_record (calls : List Call) (milliseconds : ℚ) :
    sinceReset (calls ++ [.record milliseconds]) = sinceReset calls ++ [milliseconds] := by
  simp only [sinceReset, List.foldl_append, List.foldl_cons, List.foldl_nil]

@[simp] theorem sinceReset_reset (calls : List Call) : sinceReset (calls ++ [.reset]) = [] := by
  simp only [sinceReset, List.foldl_append, List.foldl_cons, List.foldl_nil]

theorem length_fromOldest (w : LatencyWindow) : w.fromOldest.length = w.samples.length :=
  List.length_rotate _ _

/-- A record joins the window, in a full one at the cost of the oldest. -/
theorem fromOldest_record {w : LatencyWindow} {records : List ℚ}
    (shown : w.fromOldest = records.rtake w.capacity) (milliseconds : ℚ) :
    (w.record milliseconds).fromOldest = (records ++ [milliseconds]).rtake w.capacity := by
  have stored : w.samples.length = min records.length w.capacity := by
    have same := congrArg List.length shown
    simpa only [length_fromOldest, Samples.length_rtake] using same
  unfold record
  split
  · rename_i room
    have front : w.next = 0 := w.filling room
    have short : records.length < w.capacity := by omega
    simp only [fromOldest, front, List.rotate_zero] at shown ⊢
    simp only [Samples.rtake_concat_short short, shown]
  · rename_i full
    have size : w.samples.length = w.capacity := Nat.le_antisymm w.bounded (Nat.le_of_not_lt full)
    have long : w.capacity ≤ records.length := by omega
    have inside : w.next < w.samples.length := size.symm ▸ w.inside
    have turned := Samples.rotate_overwrite inside milliseconds
    rw [size] at turned
    simp only [fromOldest] at shown ⊢
    rw [turned, Samples.rtake_concat_long (Nat.zero_lt_of_lt w.inside) long, shown]

theorem fromOldest_run {w : LatencyWindow} (empty : w.samples = []) (calls : List Call) :
    (Machine.run step w calls).fromOldest = (sinceReset calls).rtake w.capacity := by
  induction calls using List.reverseRecOn with
  | nil => simp only [Machine.run_nil, fromOldest, empty, List.rotate_nil, sinceReset,
      List.foldl_nil, List.rtake_nil]
  | append_singleton calls call ih =>
    have kept := capacity_run w calls
    rw [Machine.run_append]
    cases call with
    | record milliseconds =>
      rw [← kept] at ih ⊢
      rw [sinceReset_record]
      exact fromOldest_record ih milliseconds
    | reset =>
      simp only [sinceReset_reset, List.rtake_nil]
      rfl

section Percentile

/-- The position among `count` sorted samples that a percentage asks for. -/
def rank (percent : ℚ) (count : ℕ) : ℚ := max 0 (min percent 100) / 100 * (count - 1 : ℕ)

def ordered (w : LatencyWindow) (i : ℕ) : ℚ := (w.samples.insertionSort (· ≤ ·)).getD i 0

theorem rank_nonneg (percent : ℚ) (count : ℕ) : 0 ≤ rank percent count :=
  mul_nonneg (div_nonneg (le_max_left _ _) (by decide)) (Nat.cast_nonneg _)

theorem rank_le (percent : ℚ) (count : ℕ) : rank percent count ≤ (count - 1 : ℕ) := by
  have part : max 0 (min percent 100) / 100 ≤ 1 := by
    have top : max 0 (min percent 100) ≤ 100 := max_le (by decide) (min_le_right _ _)
    linarith
  exact mul_le_of_le_one_left (Nat.cast_nonneg _) part

theorem rank_mono {percent higher : ℚ} (below : percent ≤ higher) (count : ℕ) :
    rank percent count ≤ rank higher count := by
  have clamped : max 0 (min percent 100) ≤ max 0 (min higher 100) :=
    max_le_max (le_refl 0) (min_le_min below (le_refl 100))
  unfold rank
  gcongr

theorem rank_bottom {percent : ℚ} (low : percent ≤ 0) (count : ℕ) : rank percent count = 0 := by
  have clamped : max 0 (min percent 100) = 0 := max_eq_left (le_trans (min_le_left _ _) low)
  simp only [rank, clamped, zero_div, zero_mul]

theorem rank_top {percent : ℚ} (high : 100 ≤ percent) (count : ℕ) :
    rank percent count = (count - 1 : ℕ) := by
  have clamped : max 0 (min percent 100) = 100 := by
    rw [min_eq_right high]
    decide
  simp only [rank, clamped, div_self (by decide : (100 : ℚ) ≠ 0), one_mul]

variable {w : LatencyWindow}

theorem ordered_eq {i : ℕ} (within : i < (w.samples.insertionSort (· ≤ ·)).length) :
    w.ordered i = (w.samples.insertionSort (· ≤ ·))[i] :=
  List.getD_eq_getElem _ _ within

theorem get_sorted {i : ℕ} (inside : i < w.samples.length) :
    Checked.get (w.samples.insertionSort (· ≤ ·)) i = .ok (w.ordered i) := by
  have within : i < (w.samples.insertionSort (· ≤ ·)).length := by
    simpa only [List.length_insertionSort] using inside
  simp only [Checked.get_of_lt within, ordered_eq within]

theorem ordered_mono {i j : ℕ} (below : i ≤ j) (inside : j < w.samples.length) :
    w.ordered i ≤ w.ordered j := by
  have within : j < (w.samples.insertionSort (· ≤ ·)).length := by
    simpa only [List.length_insertionSort] using inside
  have sorted := List.pairwise_insertionSort (· ≤ ·) w.samples
  simp only [ordered_eq within, ordered_eq (Nat.lt_of_le_of_lt below within)]
  exact List.sortedLE_iff_getElem_le_getElem_of_le.mp (List.sortedLE_iff_pairwise.mpr sorted) below

theorem ordered_monotone (some_ : w.samples ≠ []) :
    MonotoneOn w.ordered (Set.Iic (w.samples.length - 1)) := by
  have positive := List.length_pos_iff.mpr some_
  intro i _ j last below
  have := Set.mem_Iic.mp last
  exact ordered_mono below (by omega)

theorem ordered_mem {i : ℕ} (inside : i < w.samples.length) : w.ordered i ∈ w.samples := by
  have within : i < (w.samples.insertionSort (· ≤ ·)).length := by
    simpa only [List.length_insertionSort] using inside
  rw [ordered_eq within]
  exact (List.mem_insertionSort (r := (· ≤ ·))).mp (List.getElem_mem within)

theorem mem_ordered {x : ℚ} (member : x ∈ w.samples) :
    ∃ i, i < w.samples.length ∧ w.ordered i = x := by
  obtain ⟨i, inside, found⟩ := List.getElem_of_mem
    ((List.mem_insertionSort (r := (· ≤ ·))).mpr member)
  refine ⟨i, by simpa only [List.length_insertionSort] using inside, ?_⟩
  rw [ordered_eq inside, found]

theorem ordered_first {least : ℚ} (low : IsLeast {x | x ∈ w.samples} least) :
    w.ordered 0 = least := by
  obtain ⟨i, inside, found⟩ := mem_ordered low.1
  apply le_antisymm
  · exact found ▸ ordered_mono (Nat.zero_le i) inside
  · exact low.2 (ordered_mem (Nat.zero_lt_of_lt inside))

theorem ordered_last {greatest : ℚ} (high : IsGreatest {x | x ∈ w.samples} greatest) :
    w.ordered (w.samples.length - 1) = greatest := by
  obtain ⟨i, inside, found⟩ := mem_ordered high.1
  apply le_antisymm
  · exact high.2 (ordered_mem (by omega))
  · exact found ▸ ordered_mono (Nat.le_sub_one_of_lt inside) (by omega)

theorem percentile_eq (some_ : w.samples ≠ []) (percent : ℚ) :
    w.percentile percent =
      .ok (Samples.interpolate w.ordered (rank percent w.samples.length)) := by
  have positive := List.length_pos_iff.mpr some_
  have top := rank_le percent w.samples.length
  have ceil : ⌈rank percent w.samples.length⌉₊ < w.samples.length := by
    have := Nat.ceil_le.mpr top
    omega
  have floor : ⌊rank percent w.samples.length⌋₊ < w.samples.length :=
    Nat.lt_of_le_of_lt (Nat.floor_le_ceil _) ceil
  have low := get_sorted floor
  have high := get_sorted ceil
  by_cases whole : ⌊rank percent w.samples.length⌋₊ = ⌈rank percent w.samples.length⌉₊
  · simp only [Samples.interpolate, if_pos whole]
    simp only [rank] at whole low ⊢
    simp only [percentile, if_neg some_, List.length_insertionSort, if_pos whole, low]
  · simp only [Samples.interpolate, if_neg whole]
    simp only [rank] at whole low high ⊢
    simp only [percentile, if_neg some_, List.length_insertionSort, if_neg whole, low, high]
    rfl

theorem percentile_empty (none_ : w.samples = []) (percent : ℚ) : w.percentile percent = .ok 0 := by
  simp only [percentile, if_pos none_]

theorem percentile_perm {other : LatencyWindow} (same : other.samples.Perm w.samples)
    (percent : ℚ) : other.percentile percent = w.percentile percent := by
  have sorted : other.samples.insertionSort (· ≤ ·) = w.samples.insertionSort (· ≤ ·) :=
    ((List.perm_insertionSort (· ≤ ·) _).trans
      (same.trans (List.perm_insertionSort (· ≤ ·) _).symm)).eq_of_pairwise'
      (List.pairwise_insertionSort (· ≤ ·) _) (List.pairwise_insertionSort (· ≤ ·) _)
  have nothing : other.samples = [] ↔ w.samples = [] :=
    ⟨fun h => List.perm_nil.mp (h ▸ same.symm), fun h => List.perm_nil.mp (h ▸ same)⟩
  simp only [percentile, nothing, sorted]

theorem mean_eq_of_perm {recent : List ℚ} (same : w.samples.Perm recent) :
    w.mean = if recent = [] then 0 else recent.sum / recent.length := by
  have nothing : w.samples = [] ↔ recent = [] :=
    ⟨fun h => List.perm_nil.mp (h ▸ same.symm), fun h => List.perm_nil.mp (h ▸ same)⟩
  have total : w.samples.foldl (fun sum sample => sum + sample) 0 = recent.sum := by
    rw [← same.sum_eq, List.sum_eq_foldl]
  simp only [mean, nothing, total, same.length_eq]

end Percentile

theorem shows_of_stored {w : LatencyWindow} {recent : List ℚ} (stored : w.fromOldest = recent) :
    w.Shows recent := by
  have same : w.samples.Perm recent := stored ▸ (List.rotate_perm _ _).symm
  have least_eq : ∀ least, IsLeast {x | x ∈ recent} least → IsLeast {x | x ∈ w.samples} least := by
    intro least low
    simpa only [same.mem_iff] using low
  have greatest_eq : ∀ greatest, IsGreatest {x | x ∈ recent} greatest →
      IsGreatest {x | x ∈ w.samples} greatest := by
    intro greatest high
    simpa only [same.mem_iff] using high
  constructor
  case stored => exact stored
  case mean_eq => exact mean_eq_of_perm same
  case safe =>
    intro percent
    cases eq_or_ne w.samples [] with
    | inl none_ => exact ⟨_, percentile_empty none_ percent⟩
    | inr some_ => exact ⟨_, percentile_eq some_ percent⟩
  case multiset =>
    intro other alike percent
    exact percentile_perm (alike.trans same.symm) percent
  case between =>
    intro percent value asked least greatest low high
    have some_ : w.samples ≠ [] := List.ne_nil_of_mem (least_eq least low).1
    rw [percentile_eq some_] at asked
    cases asked
    have within := Samples.interpolate_between (ordered_monotone some_)
      (rank_nonneg percent w.samples.length) (rank_le percent w.samples.length)
    rwa [ordered_first (least_eq least low), ordered_last (greatest_eq greatest high)] at within
  case at_bottom =>
    intro percent least below low
    have some_ : w.samples ≠ [] := List.ne_nil_of_mem (least_eq least low).1
    have first := Samples.interpolate_natCast (K := ℚ) (f := w.ordered) 0
    rw [Nat.cast_zero] at first
    rw [percentile_eq some_, rank_bottom below, first, ordered_first (least_eq least low)]
  case at_top =>
    intro percent greatest above high
    have some_ : w.samples ≠ [] := List.ne_nil_of_mem (greatest_eq greatest high).1
    rw [percentile_eq some_, rank_top above, Samples.interpolate_natCast,
      ordered_last (greatest_eq greatest high)]
  case increasing =>
    intro percent higher low high below asked asked'
    cases eq_or_ne w.samples [] with
    | inl none_ =>
      rw [percentile_empty none_] at asked asked'
      cases asked
      cases asked'
      exact le_refl 0
    | inr some_ =>
      rw [percentile_eq some_] at asked asked'
      cases asked
      cases asked'
      exact Samples.interpolate_mono (ordered_monotone some_) (rank_nonneg percent _)
        (rank_mono below _) (rank_le higher _)

/-- After any calls the window shows the last records since the last reset, as many as fit. -/
theorem create_shows_recent (capacity : ℕ) (positive : 1 ≤ capacity) (calls : List Call) :
    ∃ w, create capacity = .ok w ∧
      (Machine.run step w calls).Shows ((sinceReset calls).rtake capacity) := by
  obtain ⟨w, made, rfl, empty⟩ := create_ok positive
  exact ⟨w, made, shows_of_stored (fromOldest_run empty calls)⟩

theorem create_shows_three : 1 ≤ 3 ∧ ∃ w, create 3 = .ok w ∧
    (Machine.run step w [.record 1, .record 2, .record 3, .record 4]).Shows [2, 3, 4] :=
  ⟨by decide, create_shows_recent 3 (by decide) [.record 1, .record 2, .record 3, .record 4]⟩

end LatencyWindow

end VisionLab
