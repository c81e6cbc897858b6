import Mathlib.Algebra.Order.Field.Basic
import Mathlib.Algebra.Order.Ring.Abs
import Mathlib.Tactic.Linarith
import Mathlib.Tactic.Ring
import VisionLab.Core.Types

/-! Plane geometry of the rules, over exact rationals. The tolerance of the source is kept: two
numbers closer than `kEps` are not told apart. -/
namespace VisionLab

def kEps : ℚ := 1 / 1000000

def nearlyZero (value : ℚ) : Bool := decide (|value| < kEps)

def samePoint (a b : Point2f) : Bool := nearlyZero (a.x - b.x) && nearlyZero (a.y - b.y)

def cross2 (u v : Point2f) : ℚ := u.x * v.y - u.y * v.x

def Point2f.sub (a b : Point2f) : Point2f := ⟨a.x - b.x, a.y - b.y⟩

/-- The sign of a number, with the tolerance. -/
def signOf (value : ℚ) : ℤ := if nearlyZero value then 0 else if 0 < value then 1 else -1

def orientation (p q r : Point2f) : ℤ := signOf (cross2 (q.sub p) (r.sub p))

def onSegment (p q r : Point2f) : Bool :=
  decide (q.x ≤ max p.x r.x + kEps) && decide (min p.x r.x - kEps ≤ q.x) &&
    decide (q.y ≤ max p.y r.y + kEps) && decide (min p.y r.y - kEps ≤ q.y)

def footPoint (box : Rect) : Point2f :=
  if box.empty then {} else ⟨box.x + box.width * (1 / 2), (box.y + box.height : ℤ)⟩

def segmentsIntersect (p1 p2 q1 q2 : Point2f) : Bool :=
  if samePoint p1 p2 || samePoint q1 q2 then false
  else
    let o1 := orientation p1 p2 q1
    let o2 := orientation p1 p2 q2
    let o3 := orientation q1 q2 p1
    let o4 := orientation q1 q2 p2
    if o1 ≠ o2 ∧ o3 ≠ o4 then true
    else if o1 = 0 ∧ onSegment p1 q1 p2 then true
    else if o2 = 0 ∧ onSegment p1 q2 p2 then true
    else if o3 = 0 ∧ onSegment q1 p1 q2 then true
    else if o4 = 0 ∧ onSegment q1 p2 q2 then true
    else false

def lineSide (point a b : Point2f) : ℤ :=
  if samePoint a b then 0 else signOf (cross2 (b.sub a) (point.sub a))

def classifyCrossing (previous current a b : Point2f) : CrossingDirection :=
  let previousSide := lineSide previous a b
  let currentSide := lineSide current a b
  if previousSide = 0 ∨ currentSide = 0 ∨ previousSide = currentSide then .none
  else if !segmentsIntersect previous current a b then .none
  else if 0 < previousSide then .forward else .reverse

/- The sign. -/

theorem signOf_eq_one {value : ℚ} : signOf value = 1 ↔ kEps ≤ value := by
  have positive : 0 < kEps := by norm_num [kEps]
  unfold signOf nearlyZero
  simp only [decide_eq_true_eq]
  by_cases small : |value| < kEps
  · rw [if_pos small]
    have := (abs_lt.mp small).2
    constructor
    · intro h
      cases h
    · intro h
      linarith
  · rw [if_neg small]
    by_cases above : 0 < value
    · rw [if_pos above]
      rw [abs_of_pos above, not_lt] at small
      exact ⟨fun _ => small, fun _ => rfl⟩
    · rw [if_neg above]
      constructor
      · intro h
        cases h
      · intro h
        linarith

theorem signOf_eq_neg_one {value : ℚ} : signOf value = -1 ↔ value ≤ -kEps := by
  have positive : 0 < kEps := by norm_num [kEps]
  unfold signOf nearlyZero
  simp only [decide_eq_true_eq]
  by_cases small : |value| < kEps
  · rw [if_pos small]
    have := (abs_lt.mp small).1
    constructor
    · intro h
      cases h
    · intro h
      linarith
  · rw [if_neg small]
    by_cases above : 0 < value
    · rw [if_pos above]
      constructor
      · intro h
        cases h
      · intro h
        linarith
    · rw [if_neg above]
      rw [abs_of_nonpos (not_lt.mp above), not_lt] at small
      exact ⟨fun _ => by linarith, fun _ => rfl⟩

theorem signOf_cases (value : ℚ) : signOf value = 0 ∨ signOf value = 1 ∨ signOf value = -1 := by
  unfold signOf
  split
  · exact Or.inl rfl
  · split
    · exact Or.inr (Or.inl rfl)
    · exact Or.inr (Or.inr rfl)

theorem lineSide_cases (point a b : Point2f) :
    lineSide point a b = 0 ∨ lineSide point a b = 1 ∨ lineSide point a b = -1 := by
  unfold lineSide
  split
  · exact Or.inl rfl
  · exact signOf_cases _

/- A move across the line. -/

def between (p q : Point2f) (t : ℚ) : Point2f := ⟨p.x + t * (q.x - p.x), p.y + t * (q.y - p.y)⟩

/-- Where the move from `p` to `q` meets the infinite line through `a` and `b`, it is inside the
segment. -/
def MeetsInside (a b p q : Point2f) : Prop :=
  ∀ t, 0 ≤ t → t ≤ 1 → cross2 (b.sub a) ((between p q t).sub a) = 0 →
    ∃ u, 0 ≤ u ∧ u ≤ 1 ∧ between p q t = between a b u

/- Two numbers whose distance is at least twice the tolerance, with 0 between them. -/
theorem signOf_apart {c d u : ℚ} (zero : c + u * d = 0) (lower : 0 ≤ u) (upper : u ≤ 1)
    (far : 2 * kEps ≤ d ∨ d ≤ -(2 * kEps)) : signOf c ≠ signOf (c + d) := by
  have positive : 0 < kEps := by norm_num [kEps]
  have rest : c + d = (1 - u) * d := by linarith
  rcases far with far | far
  · by_cases half : 1 / 2 ≤ u
    · have low : c ≤ -kEps := by nlinarith
      have high : 0 ≤ c + d := by rw [rest]; nlinarith
      rw [signOf_eq_neg_one.mpr low]
      intro same
      have := signOf_eq_neg_one.mp same.symm
      linarith
    · have low : kEps ≤ c + d := by rw [rest]; nlinarith
      have high : c ≤ 0 := by nlinarith
      rw [signOf_eq_one.mpr low]
      intro same
      have := signOf_eq_one.mp same
      linarith
  · by_cases half : 1 / 2 ≤ u
    · have low : kEps ≤ c := by nlinarith
      have high : c + d ≤ 0 := by rw [rest]; nlinarith
      rw [signOf_eq_one.mpr low]
      intro same
      have := signOf_eq_one.mp same.symm
      linarith
    · have low : c + d ≤ -kEps := by rw [rest]; nlinarith
      have high : 0 ≤ c := by nlinarith
      rw [signOf_eq_neg_one.mpr low]
      intro same
      have := signOf_eq_neg_one.mp same
      linarith

/-- A move between the two sides that meets the line inside the segment intersects the segment. -/
theorem segmentsIntersect_of_opposite {a b p q : Point2f} (line : samePoint a b = false)
    (move : samePoint p q = false) (inside : MeetsInside a b p q)
    (opposite : (lineSide p a b = 1 ∧ lineSide q a b = -1) ∨
      (lineSide p a b = -1 ∧ lineSide q a b = 1)) : segmentsIntersect p q a b = true := by
  have positive : 0 < kEps := by norm_num [kEps]
  have sideOf : ∀ r, lineSide r a b = signOf (cross2 (b.sub a) (r.sub a)) := by
    intro r
    rw [lineSide, line, if_neg Bool.false_ne_true]
  simp only [sideOf, signOf_eq_one, signOf_eq_neg_one] at opposite
  generalize hp : cross2 (b.sub a) (p.sub a) = vp at opposite
  generalize hq : cross2 (b.sub a) (q.sub a) = vq at opposite
  have nonzero : vp - vq ≠ 0 := by
    rcases opposite with ⟨h1, h2⟩ | ⟨h1, h2⟩ <;> intro h <;> linarith
  -- the point where the move meets the infinite line
  have meets : cross2 (b.sub a) ((between p q (vp / (vp - vq))).sub a) = 0 := by
    have expand : cross2 (b.sub a) ((between p q (vp / (vp - vq))).sub a) =
        vp - vp / (vp - vq) * (vp - vq) := by
      rw [← hp, ← hq]
      simp only [cross2, Point2f.sub, between]
      ring
    rw [expand, div_mul_cancel₀ _ nonzero, sub_self]
  have range : 0 ≤ vp / (vp - vq) ∧ vp / (vp - vq) ≤ 1 := by
    rcases opposite with ⟨h1, h2⟩ | ⟨h1, h2⟩
    · have below : 0 < vp - vq := by linarith
      exact ⟨div_nonneg (by linarith) below.le, (div_le_one below).mpr (by linarith)⟩
    · have below : vp - vq < 0 := by linarith
      exact ⟨div_nonneg_of_nonpos (by linarith) below.le,
        (div_le_one_of_neg below).mpr (by linarith)⟩
  obtain ⟨u, lower, upper, same⟩ := inside _ range.1 range.2 meets
  have onMove : cross2 (q.sub p) ((between a b u).sub p) = 0 := by
    rw [← same]
    simp only [cross2, Point2f.sub, between]
    ring
  have split : cross2 (q.sub p) (a.sub p) + u * (vp - vq) = 0 := by
    rw [← onMove, ← hp, ← hq]
    simp only [cross2, Point2f.sub, between]
    ring
  have apart : orientation p q a ≠ orientation p q b := by
    have ends : cross2 (q.sub p) (b.sub p) = cross2 (q.sub p) (a.sub p) + (vp - vq) := by
      rw [← hp, ← hq]
      simp only [cross2, Point2f.sub]
      ring
    rw [orientation, orientation, ends]
    apply signOf_apart split lower upper
    rcases opposite with ⟨h1, h2⟩ | ⟨h1, h2⟩
    · left; linarith
    · right; linarith
  have sides : orientation a b p ≠ orientation a b q := by
    rw [orientation, orientation, hp, hq]
    rcases opposite with ⟨h1, h2⟩ | ⟨h1, h2⟩
    · rw [signOf_eq_one.mpr h1, signOf_eq_neg_one.mpr h2]
      decide
    · rw [signOf_eq_neg_one.mpr h1, signOf_eq_one.mpr h2]
      decide
  unfold segmentsIntersect
  rw [line, move, Bool.or_false, if_neg Bool.false_ne_true]
  dsimp only
  rw [if_pos ⟨apart, sides⟩]

/-- The direction of a move, read off the sides of its ends. -/
def crossingBetween (u v : ℤ) : CrossingDirection :=
  if u = 1 ∧ v = -1 then .forward else if u = -1 ∧ v = 1 then .reverse else .none

theorem classifyCrossing_eq {a b p q : Point2f} (inside : MeetsInside a b p q)
    (exact_ : samePoint p q = true → p = q) :
    classifyCrossing p q a b = crossingBetween (lineSide p a b) (lineSide q a b) := by
  have intersects : ∀ u v, lineSide p a b = u → lineSide q a b = v →
      (u = 1 ∧ v = -1) ∨ (u = -1 ∧ v = 1) → segmentsIntersect p q a b = true := by
    intro u v hu hv opposite
    have line : samePoint a b = false := by
      cases h : samePoint a b with
      | false => rfl
      | true =>
        rw [lineSide, h, if_pos rfl] at hu
        omega
    have move : samePoint p q = false := by
      cases h : samePoint p q with
      | false => rfl
      | true =>
        rw [exact_ h] at hu
        omega
    apply segmentsIntersect_of_opposite line move inside
    rw [hu, hv]
    exact opposite
  unfold classifyCrossing
  rcases lineSide_cases p a b with hp | hp | hp <;>
    rcases lineSide_cases q a b with hq | hq | hq <;> rw [hp, hq]
  · rfl
  · rfl
  · rfl
  · rfl
  · rfl
  · rw [intersects 1 (-1) hp hq (Or.inl ⟨rfl, rfl⟩)]
    rfl
  · rfl
  · rw [intersects (-1) 1 hp hq (Or.inr ⟨rfl, rfl⟩)]
    rfl
  · rfl

/- Foot points are half-integral, so the tolerance never merges two of them. -/

def HalfIntegral (p : Point2f) : Prop := ∃ k l : ℤ, p = ⟨(k : ℚ) / 2, l⟩

theorem footPoint_halfIntegral (box : Rect) : HalfIntegral (footPoint box) := by
  unfold footPoint
  split
  · exact ⟨0, 0, by norm_num⟩
  · refine ⟨2 * box.x + box.width, box.y + box.height, ?_⟩
    congr 1
    push_cast
    ring

theorem HalfIntegral.eq_of_samePoint {p q : Point2f} (hp : HalfIntegral p) (hq : HalfIntegral q)
    (close : samePoint p q = true) : p = q := by
  obtain ⟨k, l, rfl⟩ := hp
  obtain ⟨i, j, rfl⟩ := hq
  simp only [samePoint, nearlyZero, Bool.and_eq_true, decide_eq_true_eq] at close
  have small : kEps < 1 / 2 := by norm_num [kEps]
  have first : |((k - i : ℤ) : ℚ)| < 1 := by
    have scaled : ((k - i : ℤ) : ℚ) = 2 * ((k : ℚ) / 2 - (i : ℚ) / 2) := by push_cast; ring
    rw [scaled, abs_mul]
    have := close.1
    norm_num
    linarith
  have second : |((l - j : ℤ) : ℚ)| < 1 := by
    have := close.2
    push_cast
    linarith
  rw [← Int.cast_abs] at first second
  have k_eq : k = i := by
    have : |k - i| < 1 := by exact_mod_cast first
    have := Int.abs_lt_one_iff.mp this
    omega
  have l_eq : l = j := by
    have : |l - j| < 1 := by exact_mod_cast second
    have := Int.abs_lt_one_iff.mp this
    omega
  rw [k_eq, l_eq]

end VisionLab
