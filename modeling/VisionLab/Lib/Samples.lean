import Mathlib.Algebra.Order.Field.Basic
import Mathlib.Algebra.Order.Floor.Semiring
import Mathlib.Data.List.Rotate
import Mathlib.Data.List.DropRight
import Mathlib.Tactic.Linarith

/-! Order statistics of a window: the last values of a history, kept in a ring, and the linear
interpolation between the entries of an ascending sequence. -/
namespace Samples

section Window

variable {α : Type*}

/-- In a full ring the new cell takes the place of the oldest, and the next one is the oldest now. -/
theorem rotate_overwrite {cells : List α} {next : ℕ} (inside : next < cells.length) (x : α) :
    (cells.set next x).rotate ((next + 1) % cells.length) = (cells.rotate next).tail ++ [x] := by
  have turned : ((next + 1) % cells.length) = (next + 1) % (cells.set next x).length := by
    simp only [List.length_set]
  have within : next + 1 ≤ (cells.set next x).length := by
    simp only [List.length_set]
    omega
  rw [turned, List.rotate_mod, List.rotate_eq_drop_append_take within,
    List.rotate_eq_drop_append_take (Nat.le_of_lt inside), List.drop_set_of_lt (by omega),
    List.drop_eq_getElem_cons inside, List.take_succ_eq_append_getElem (by simpa using inside),
    List.take_set_of_le (Nat.le_refl _)]
  simp only [List.getElem_set_self, List.cons_append, List.tail_cons, List.append_assoc]

theorem rtake_concat_short {n : ℕ} {history : List α} (short : history.length < n) (x : α) :
    (history ++ [x]).rtake n = history.rtake n ++ [x] := by
  have all : history.length - n = 0 := by omega
  have more : (history ++ [x]).length - n = 0 := by
    simp only [List.length_append, List.length_singleton]
    omega
  simp only [List.rtake, all, more, List.drop_zero]

theorem rtake_concat_long {n : ℕ} {history : List α} (positive : 0 < n)
    (long : n ≤ history.length) (x : α) :
    (history ++ [x]).rtake n = (history.rtake n).tail ++ [x] := by
  have start : (history ++ [x]).length - n = history.length - n + 1 := by
    simp only [List.length_append, List.length_singleton]
    omega
  simp only [List.rtake, start, List.tail_drop]
  exact List.drop_append_of_le_length (by omega)

theorem length_rtake (n : ℕ) (history : List α) :
    (history.rtake n).length = min history.length n := by
  simp only [List.rtake, List.length_drop]
  omega

end Window

section Sequence

variable {K : Type*} [Field K] [LinearOrder K] [IsStrictOrderedRing K] [FloorSemiring K]

/-- The sequence at a fractional position, on the line between its two neighbours. -/
def interpolate (f : ℕ → K) (r : K) : K :=
  if ⌊r⌋₊ = ⌈r⌉₊ then f ⌊r⌋₊ else f ⌊r⌋₊ + (r - ⌊r⌋₊) * (f ⌈r⌉₊ - f ⌊r⌋₊)

variable {f : ℕ → K} {n : ℕ}

theorem neighbours_rise (ascending : MonotoneOn f (Set.Iic n)) {r : K} (top : r ≤ n) :
    f ⌊r⌋₊ ≤ f ⌈r⌉₊ := by
  have inside : ⌈r⌉₊ ≤ n := Nat.ceil_le.mpr top
  have close := Nat.floor_le_ceil r
  exact ascending (Set.mem_Iic.mpr (le_trans close inside)) (Set.mem_Iic.mpr inside) close

theorem way_bounds {r : K} (positive : 0 ≤ r) : 0 ≤ r - ⌊r⌋₊ ∧ r - ⌊r⌋₊ ≤ 1 := by
  have below := Nat.floor_le positive
  have above := Nat.lt_floor_add_one r
  constructor <;> linarith

theorem interpolate_ge_floor (ascending : MonotoneOn f (Set.Iic n)) {r : K} (positive : 0 ≤ r)
    (top : r ≤ n) : f ⌊r⌋₊ ≤ interpolate f r := by
  unfold interpolate
  split
  · exact le_refl _
  · have rise := neighbours_rise ascending top
    have part := mul_nonneg (way_bounds positive).1 (sub_nonneg.mpr rise)
    linarith

theorem interpolate_le_ceil (ascending : MonotoneOn f (Set.Iic n)) {r : K} (positive : 0 ≤ r)
    (top : r ≤ n) : interpolate f r ≤ f ⌈r⌉₊ := by
  unfold interpolate
  split
  · rename_i whole
    exact le_of_eq (congrArg f whole)
  · have rise := neighbours_rise ascending top
    have part := mul_le_of_le_one_left (sub_nonneg.mpr rise) (way_bounds positive).2
    linarith

/-- Two positions either have an entry between them or lie between the same two neighbours. -/
theorem separated_or_together {r s : K} (below : r ≤ s) :
    ⌈r⌉₊ ≤ ⌊s⌋₊ ∨ ⌊r⌋₊ = ⌊s⌋₊ ∧ ⌈r⌉₊ = ⌈s⌉₊ := by
  have floors := Nat.floor_mono below
  have ceils := Nat.ceil_mono below
  have first := Nat.ceil_le_floor_add_one r
  have second := Nat.ceil_le_floor_add_one s
  omega

theorem interpolate_mono (ascending : MonotoneOn f (Set.Iic n)) {r s : K} (positive : 0 ≤ r)
    (below : r ≤ s) (top : s ≤ n) : interpolate f r ≤ interpolate f s := by
  have positive' := le_trans positive below
  have top' := le_trans below top
  cases separated_or_together below with
  | inl apart =>
    have inside : ⌊s⌋₊ ≤ n := le_trans (Nat.floor_le_ceil s) (Nat.ceil_le.mpr top)
    calc interpolate f r ≤ f ⌈r⌉₊ := interpolate_le_ceil ascending positive top'
      _ ≤ f ⌊s⌋₊ := ascending (Set.mem_Iic.mpr (le_trans apart inside))
          (Set.mem_Iic.mpr inside) apart
      _ ≤ interpolate f s := interpolate_ge_floor ascending positive' top
  | inr together =>
    unfold interpolate
    simp only [together.1, together.2]
    split
    · exact le_refl _
    · have rise := neighbours_rise ascending top
      have further : (r - ⌊s⌋₊) * (f ⌈s⌉₊ - f ⌊s⌋₊) ≤ (s - ⌊s⌋₊) * (f ⌈s⌉₊ - f ⌊s⌋₊) :=
        mul_le_mul_of_nonneg_right (sub_le_sub_right below _) (sub_nonneg.mpr rise)
      linarith

theorem interpolate_natCast (k : ℕ) : interpolate f (k : K) = f k := by
  simp only [interpolate, Nat.floor_natCast, Nat.ceil_natCast, if_true]

theorem interpolate_between (ascending : MonotoneOn f (Set.Iic n)) {r : K} (positive : 0 ≤ r)
    (top : r ≤ n) : f 0 ≤ interpolate f r ∧ interpolate f r ≤ f n := by
  have first := interpolate_mono ascending (le_refl 0) positive top
  have last := interpolate_mono ascending positive top (le_refl _)
  rw [interpolate_natCast] at last
  have zero := interpolate_natCast (f := f) 0
  simp only [Nat.cast_zero] at zero
  exact ⟨zero ▸ first, last⟩

end Sequence

end Samples
