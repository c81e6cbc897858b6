import VisionLab.Analytics.RuleGeometry
import VisionLab.Lib.Segments

/-! The intersection test against the geometry it stands for. On the grid of half pixels the
tolerance never decides, and the test is the exact one. -/
namespace VisionLab

theorem segmentsIntersect_iff (p1 p2 q1 q2 : Point2f) : segmentsIntersect p1 p2 q1 q2 = true ↔
    samePoint p1 p2 = false ∧ samePoint q1 q2 = false ∧
      ((orientation p1 p2 q1 ≠ orientation p1 p2 q2 ∧ orientation q1 q2 p1 ≠ orientation q1 q2 p2) ∨
        (orientation p1 p2 q1 = 0 ∧ onSegment p1 q1 p2 = true) ∨
        (orientation p1 p2 q2 = 0 ∧ onSegment p1 q2 p2 = true) ∨
        (orientation q1 q2 p1 = 0 ∧ onSegment q1 p1 q2 = true) ∨
        (orientation q1 q2 p2 = 0 ∧ onSegment q1 p2 q2 = true)) := by
  unfold segmentsIntersect
  cases samePoint p1 p2 <;> cases samePoint q1 q2 <;>
    simp only [Bool.or_self, Bool.or_true, Bool.or_false, if_true, if_false,
      Bool.false_eq_true, Bool.true_eq_false, false_and, and_false, true_and]
  split
  · simp_all
  · split
    · simp_all
    · split
      · simp_all
      · split
        · simp_all
        · split <;> simp_all

/-- Both coordinates are multiples of 1/2. -/
def OnGrid (p : Point2f) : Prop := ∃ k l : ℤ, p = ⟨(k : ℚ) / 2, (l : ℚ) / 2⟩

theorem HalfIntegral.onGrid {p : Point2f} (half : HalfIntegral p) : OnGrid p := by
  obtain ⟨k, l, rfl⟩ := half
  refine ⟨k, 2 * l, ?_⟩
  push_cast
  congr 1
  ring

def Point2f.pair (p : Point2f) : ℚ × ℚ := (p.x, p.y)

theorem pair_inj {p q : Point2f} : p.pair = q.pair ↔ p = q := by
  cases p
  cases q
  simp [Point2f.pair]

/-- The tolerance does not tell multiples of 1/4 apart from the exact sign. -/
theorem signOf_quarter (n : ℤ) : signOf ((n : ℚ) / 4) = (SignType.sign ((n : ℚ) / 4) : ℤ) := by
  rcases lt_trichotomy n 0 with neg | rfl | pos
  · have below : (n : ℚ) ≤ -1 := by exact_mod_cast (by omega : n ≤ -1)
    have small : (n : ℚ) / 4 ≤ -kEps := by norm_num [kEps]; linarith
    have sign : (n : ℚ) / 4 < 0 := by linarith
    rw [signOf_eq_neg_one.mpr small, sign_neg sign]
    rfl
  · norm_num [signOf, nearlyZero, kEps]
  · have above : (1 : ℚ) ≤ n := by exact_mod_cast pos
    have large : kEps ≤ (n : ℚ) / 4 := by norm_num [kEps]; linarith
    have sign : 0 < (n : ℚ) / 4 := by linarith
    rw [signOf_eq_one.mpr large, sign_pos sign]
    rfl

theorem orientation_eq {p q r : Point2f} (hp : OnGrid p) (hq : OnGrid q) (hr : OnGrid r) :
    orientation p q r = (Segments.side p.pair q.pair r.pair : ℤ) := by
  obtain ⟨a, b, rfl⟩ := hp
  obtain ⟨c, d, rfl⟩ := hq
  obtain ⟨i, j, rfl⟩ := hr
  have quarter : ((c : ℚ) / 2 - a / 2) * ((j : ℚ) / 2 - b / 2) -
      ((d : ℚ) / 2 - b / 2) * ((i : ℚ) / 2 - a / 2) =
      (((c - a) * (j - b) - (d - b) * (i - a) : ℤ) : ℚ) / 4 := by
    push_cast
    ring
  simp only [orientation, cross2, Point2f.sub, Segments.side, Segments.cross, Point2f.pair,
    Prod.fst_sub, Prod.snd_sub, quarter, signOf_quarter]

theorem orientation_eq_zero {p q r : Point2f} (hp : OnGrid p) (hq : OnGrid q) (hr : OnGrid r) :
    orientation p q r = 0 ↔ Segments.side p.pair q.pair r.pair = 0 := by
  rw [orientation_eq hp hq hr]
  cases Segments.side p.pair q.pair r.pair <;> decide

theorem orientation_ne {p q r s : Point2f} (hp : OnGrid p) (hq : OnGrid q) (hr : OnGrid r)
    (hs : OnGrid s) : orientation p q r ≠ orientation p q s ↔
      Segments.Separated p.pair q.pair r.pair s.pair := by
  rw [orientation_eq hp hq hr, orientation_eq hp hq hs]
  unfold Segments.Separated
  cases Segments.side p.pair q.pair r.pair <;> cases Segments.side p.pair q.pair s.pair <;> decide

theorem half_le_add (i j : ℤ) : (i : ℚ) / 2 ≤ (j : ℚ) / 2 + kEps ↔ (i : ℚ) / 2 ≤ (j : ℚ) / 2 := by
  have positive : 0 < kEps := by norm_num [kEps]
  constructor
  · intro near
    have close : (i : ℚ) < j + 1 := by norm_num [kEps] at near; linarith
    have ordered : i ≤ j := by
      have : i < j + 1 := by exact_mod_cast close
      omega
    have : (i : ℚ) ≤ j := by exact_mod_cast ordered
    linarith
  · intro ordered
    linarith

theorem half_le_max (i j k : ℤ) : (i : ℚ) / 2 ≤ max ((j : ℚ) / 2) ((k : ℚ) / 2) + kEps ↔
    (i : ℚ) / 2 ≤ max ((j : ℚ) / 2) ((k : ℚ) / 2) := by
  rcases le_total ((j : ℚ) / 2) ((k : ℚ) / 2) with rising | falling
  · rw [max_eq_right rising]
    exact half_le_add i k
  · rw [max_eq_left falling]
    exact half_le_add i j

theorem half_min_le (i j k : ℤ) : min ((j : ℚ) / 2) ((k : ℚ) / 2) - kEps ≤ (i : ℚ) / 2 ↔
    min ((j : ℚ) / 2) ((k : ℚ) / 2) ≤ (i : ℚ) / 2 := by
  rw [sub_le_iff_le_add]
  rcases le_total ((j : ℚ) / 2) ((k : ℚ) / 2) with rising | falling
  · rw [min_eq_left rising]
    exact half_le_add j i
  · rw [min_eq_right falling]
    exact half_le_add k i

theorem onSegment_iff {p q r : Point2f} (hp : OnGrid p) (hq : OnGrid q) (hr : OnGrid r) :
    onSegment p q r = true ↔ Segments.InBox p.pair q.pair r.pair := by
  obtain ⟨a, b, rfl⟩ := hp
  obtain ⟨c, d, rfl⟩ := hq
  obtain ⟨i, j, rfl⟩ := hr
  simp only [onSegment, Bool.and_eq_true, decide_eq_true_eq, Segments.InBox, Point2f.pair,
    half_le_max, half_min_le, and_assoc]

theorem nearlyZero_half (i j : ℤ) :
    nearlyZero ((i : ℚ) / 2 - (j : ℚ) / 2) = true ↔ (i : ℚ) / 2 = (j : ℚ) / 2 := by
  have positive : 0 < kEps := by norm_num [kEps]
  simp only [nearlyZero, decide_eq_true_eq]
  constructor
  · intro small
    obtain ⟨left, right⟩ := abs_lt.mp small
    exact le_antisymm ((half_le_add i j).mp (by linarith)) ((half_le_add j i).mp (by linarith))
  · intro same
    rw [same, sub_self, abs_zero]
    exact positive

theorem samePoint_iff {p q : Point2f} (hp : OnGrid p) (hq : OnGrid q) :
    samePoint p q = false ↔ p ≠ q := by
  obtain ⟨a, b, rfl⟩ := hp
  obtain ⟨c, d, rfl⟩ := hq
  rw [← Bool.not_eq_true]
  simp only [samePoint, Bool.and_eq_true, nearlyZero_half, ne_eq, Point2f.mk.injEq]

def Share (p1 p2 q1 q2 : Point2f) : Prop :=
  ∃ s t, 0 ≤ s ∧ s ≤ 1 ∧ 0 ≤ t ∧ t ≤ 1 ∧ between p1 p2 s = between q1 q2 t

theorem between_pair (p q : Point2f) (t : ℚ) :
    (between p q t).pair = Segments.along p.pair q.pair t := rfl

theorem share_iff_meet (p1 p2 q1 q2 : Point2f) :
    Share p1 p2 q1 q2 ↔ Segments.Meet p1.pair p2.pair q1.pair q2.pair := by
  simp only [Share, Segments.Meet, ← between_pair, pair_inj]

/-- On the grid of half pixels the test holds exactly when neither segment is a point and the two
closed segments share a point. -/
theorem segmentsIntersect_exact {p1 p2 q1 q2 : Point2f} (hp1 : OnGrid p1) (hp2 : OnGrid p2)
    (hq1 : OnGrid q1) (hq2 : OnGrid q2) : segmentsIntersect p1 p2 q1 q2 = true ↔
      p1 ≠ p2 ∧ q1 ≠ q2 ∧
        ∃ s t, 0 ≤ s ∧ s ≤ 1 ∧ 0 ≤ t ∧ t ≤ 1 ∧ between p1 p2 s = between q1 q2 t := by
  rw [segmentsIntersect_iff, samePoint_iff hp1 hp2, samePoint_iff hq1 hq2]
  refine and_congr_right fun first => and_congr_right fun second => ?_
  have test := Segments.test_iff_meet (pair_inj.not.mpr first) (pair_inj.not.mpr second)
  change _ ↔ Share p1 p2 q1 q2
  rw [share_iff_meet, ← test, orientation_ne hp1 hp2 hq1 hq2, orientation_ne hq1 hq2 hp1 hp2,
    orientation_eq_zero hp1 hp2 hq1, orientation_eq_zero hp1 hp2 hq2,
    orientation_eq_zero hq1 hq2 hp1, orientation_eq_zero hq1 hq2 hp2, onSegment_iff hp1 hq1 hp2,
    onSegment_iff hp1 hq2 hp2, onSegment_iff hq1 hp1 hq2, onSegment_iff hq1 hp2 hq2]
  rfl

/-- A foot that comes down on a line from above, and goes no further. -/
theorem foot_meets_line :
    segmentsIntersect (footPoint ⟨45, 10, 11, 10⟩) (footPoint ⟨45, 40, 11, 10⟩) ⟨0, 50⟩ ⟨100, 50⟩ =
      true := by
  have left : OnGrid ⟨0, 50⟩ := ⟨0, 100, by norm_num⟩
  have right : OnGrid ⟨100, 50⟩ := ⟨200, 100, by norm_num⟩
  refine (segmentsIntersect_exact (footPoint_halfIntegral _).onGrid
    (footPoint_halfIntegral _).onGrid left right).mpr ⟨by decide +kernel, by decide +kernel, ?_⟩
  exact ⟨1, 101 / 200, by norm_num, by norm_num, by norm_num, by norm_num, by decide +kernel⟩

end VisionLab
