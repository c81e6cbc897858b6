import Mathlib.Data.Sign.Basic
import Mathlib.Tactic.FieldSimp
import Mathlib.Tactic.LinearCombination
import Mathlib.Tactic.Linarith
import Mathlib.Tactic.Ring

/-! Segments in the plane over an ordered field. Two segments have a common point exactly when the
ends of each are on different sides of the other, or an end of one lies on the other. -/
namespace Segments

variable {K : Type*} [Field K] [LinearOrder K] [IsStrictOrderedRing K]

def cross (u v : K × K) : K := u.1 * v.2 - u.2 * v.1

def along (p q : K × K) (t : K) : K × K := (p.1 + t * (q.1 - p.1), p.2 + t * (q.2 - p.2))

def side (p q r : K × K) : SignType := SignType.sign (cross (q - p) (r - p))

def InBox (p q r : K × K) : Prop :=
  q.1 ≤ max p.1 r.1 ∧ min p.1 r.1 ≤ q.1 ∧ q.2 ≤ max p.2 r.2 ∧ min p.2 r.2 ≤ q.2

def Meet (p₁ p₂ q₁ q₂ : K × K) : Prop :=
  ∃ s t, 0 ≤ s ∧ s ≤ 1 ∧ 0 ≤ t ∧ t ≤ 1 ∧ along p₁ p₂ s = along q₁ q₂ t

def Separated (p₁ p₂ q₁ q₂ : K × K) : Prop := side p₁ p₂ q₁ ≠ side p₁ p₂ q₂

def On (p q r : K × K) : Prop := side p r q = 0 ∧ InBox p q r

/- One line. -/

theorem weight_of_between {a b t : K} (apart : a ≠ b) (upper : a + t * (b - a) ≤ max a b)
    (lower : min a b ≤ a + t * (b - a)) : 0 ≤ t ∧ t ≤ 1 := by
  rcases lt_or_gt_of_ne apart with rising | falling
  · rw [max_eq_right rising.le] at upper
    rw [min_eq_left rising.le] at lower
    have positive : 0 < b - a := by linarith
    constructor
    · by_contra negative
      nlinarith
    · by_contra large
      nlinarith
  · rw [max_eq_left falling.le] at upper
    rw [min_eq_right falling.le] at lower
    have positive : 0 < a - b := by linarith
    constructor
    · by_contra negative
      nlinarith
    · by_contra large
      nlinarith

theorem between_of_weight {a b t : K} (low : 0 ≤ t) (high : t ≤ 1) :
    a + t * (b - a) ≤ max a b ∧ min a b ≤ a + t * (b - a) := by
  rcases le_total a b with rising | falling
  · rw [max_eq_right rising, min_eq_left rising]
    constructor <;> nlinarith
  · rw [max_eq_left falling, min_eq_right falling]
    constructor <;> nlinarith

theorem inBox_along (p q : K × K) {t : K} (low : 0 ≤ t) (high : t ≤ 1) :
    InBox p (along p q t) q :=
  ⟨(between_of_weight low high).1, (between_of_weight low high).2,
    (between_of_weight low high).1, (between_of_weight low high).2⟩

theorem along_of_cross {p q r : K × K} (apart : p ≠ q) (flat : cross (q - p) (r - p) = 0) :
    ∃ t, r = along p q t := by
  obtain ⟨x, y⟩ := p
  obtain ⟨x', y'⟩ := q
  obtain ⟨u, v⟩ := r
  simp only [cross, Prod.fst_sub, Prod.snd_sub] at flat
  by_cases upright : x' = x
  · have tall : y' - y ≠ 0 := fun level => apart (by rw [upright, sub_eq_zero.mp level])
    have onto : u - x = 0 := by
      subst upright
      simpa [tall] using flat
    refine ⟨(v - y) / (y' - y), ?_⟩
    simp only [along, Prod.mk.injEq, upright, sub_self, mul_zero, add_zero, sub_eq_zero.mp onto,
      true_and]
    field_simp
    ring
  · have wide : x' - x ≠ 0 := sub_ne_zero.mpr upright
    refine ⟨(u - x) / (x' - x), ?_⟩
    simp only [along, Prod.mk.injEq]
    constructor
    · field_simp
      ring
    · field_simp
      linear_combination flat

omit [LinearOrder K] [IsStrictOrderedRing K] in
theorem cross_along (p q : K × K) (t : K) : cross (q - p) (along p q t - p) = 0 := by
  simp only [cross, along, Prod.fst_sub, Prod.snd_sub]
  ring

omit [IsStrictOrderedRing K] in
theorem side_eq_zero {p q r : K × K} : side p q r = 0 ↔ cross (q - p) (r - p) = 0 :=
  sign_eq_zero_iff

theorem on_iff {p q r : K × K} (apart : p ≠ r) :
    On p q r ↔ ∃ t, 0 ≤ t ∧ t ≤ 1 ∧ q = along p r t := by
  constructor
  · rintro ⟨flat, right, left, top, bottom⟩
    obtain ⟨t, rfl⟩ := along_of_cross apart (side_eq_zero.mp flat)
    have weight : 0 ≤ t ∧ t ≤ 1 := by
      by_cases upright : p.1 = r.1
      · have tall : p.2 ≠ r.2 := fun level => apart (Prod.ext upright level)
        exact weight_of_between tall top bottom
      · exact weight_of_between upright right left
    exact ⟨t, weight.1, weight.2, rfl⟩
  · rintro ⟨t, low, high, rfl⟩
    exact ⟨side_eq_zero.mpr (cross_along p r t), inBox_along p r low high⟩

/- Two lines. -/

theorem sign_ne_iff {a b : K} (apart : a ≠ b) : SignType.sign a ≠ SignType.sign b ↔
    ∃ t, 0 ≤ t ∧ t ≤ 1 ∧ a + t * (b - a) = 0 := by
  constructor
  · intro differ
    have nonzero : a - b ≠ 0 := sub_ne_zero.mpr apart
    have root : a + a / (a - b) * (b - a) = 0 := by
      field_simp
      ring
    have upper : 0 ≤ max a b := by
      by_contra both
      obtain ⟨neg, neg'⟩ := max_lt_iff.mp (not_le.mp both)
      exact differ ((sign_neg neg).trans (sign_neg neg').symm)
    have lower : min a b ≤ 0 := by
      by_contra both
      obtain ⟨pos, pos'⟩ := lt_min_iff.mp (not_le.mp both)
      exact differ ((sign_pos pos).trans (sign_pos pos').symm)
    have weight := weight_of_between apart (root.le.trans upper) (lower.trans root.ge)
    exact ⟨_, weight.1, weight.2, root⟩
  · rintro ⟨t, low, high, root⟩ same
    have mean := between_of_weight (a := a) (b := b) low high
    rw [root] at mean
    rcases lt_trichotomy a 0 with neg | zero | pos
    · have neg' : b < 0 := sign_eq_neg_one_iff.mp (same ▸ sign_neg neg)
      exact absurd mean.1 (not_le.mpr (max_lt neg neg'))
    · have zero' : b = 0 := sign_eq_zero_iff.mp (same ▸ sign_eq_zero_iff.mpr zero)
      exact apart (zero.trans zero'.symm)
    · have pos' : 0 < b := sign_eq_one_iff.mp (same ▸ sign_pos pos)
      exact absurd mean.2 (not_le.mpr (lt_min pos pos'))

variable {p₁ p₂ q₁ q₂ : K × K}

omit [LinearOrder K] [IsStrictOrderedRing K] in
theorem cross_step : cross (p₂ - p₁) (q₂ - p₁) - cross (p₂ - p₁) (q₁ - p₁) =
    cross (p₂ - p₁) (q₂ - q₁) := by
  simp only [cross, Prod.fst_sub, Prod.snd_sub]
  ring

omit [LinearOrder K] [IsStrictOrderedRing K] in
theorem cross_swap (u v : K × K) : cross u v = -cross v u := by
  simp only [cross]
  ring

theorem cross_of_meet {s t : K} (same : along p₁ p₂ s = along q₁ q₂ t) :
    cross (p₂ - p₁) (q₁ - p₁) + t * cross (p₂ - p₁) (q₂ - q₁) = 0 := by
  have first := congrArg Prod.fst same
  have second := congrArg Prod.snd same
  simp only [along] at first second
  simp only [cross, Prod.fst_sub, Prod.snd_sub]
  linear_combination (p₂.2 - p₁.2) * first - (p₂.1 - p₁.1) * second

theorem separated_iff_meet (crossing : cross (p₂ - p₁) (q₂ - q₁) ≠ 0) :
    Separated p₁ p₂ q₁ q₂ ∧ Separated q₁ q₂ p₁ p₂ ↔ Meet p₁ p₂ q₁ q₂ := by
  have crossing' : cross (q₂ - q₁) (p₂ - p₁) ≠ 0 := by
    rw [cross_swap]
    exact neg_ne_zero.mpr crossing
  have apart : cross (p₂ - p₁) (q₁ - p₁) ≠ cross (p₂ - p₁) (q₂ - p₁) := by
    intro same
    rw [← cross_step, same, sub_self] at crossing
    exact crossing rfl
  have apart' : cross (q₂ - q₁) (p₁ - q₁) ≠ cross (q₂ - q₁) (p₂ - q₁) := by
    intro same
    rw [← cross_step, same, sub_self] at crossing'
    exact crossing' rfl
  unfold Separated side
  rw [sign_ne_iff apart, sign_ne_iff apart', cross_step, cross_step]
  constructor
  · rintro ⟨⟨t, low, high, there⟩, ⟨s, low', high', here⟩⟩
    refine ⟨s, t, low', high', low, high, ?_⟩
    simp only [cross, Prod.fst_sub, Prod.snd_sub] at crossing there here
    refine Prod.ext (mul_left_cancel₀ crossing ?_) (mul_left_cancel₀ crossing ?_)
    · simp only [along]
      linear_combination (-(p₂.1 - p₁.1)) * here + (-(q₂.1 - q₁.1)) * there
    · simp only [along]
      linear_combination (-(p₂.2 - p₁.2)) * here + (-(q₂.2 - q₁.2)) * there
  · rintro ⟨s, t, low, high, low', high', same⟩
    exact ⟨⟨t, low', high', cross_of_meet same⟩, ⟨s, low, high, cross_of_meet same.symm⟩⟩

/-- An end of one segment lies on the other. -/
def Touch (p₁ p₂ q₁ q₂ : K × K) : Prop :=
  On p₁ q₁ p₂ ∨ On p₁ q₂ p₂ ∨ On q₁ p₁ q₂ ∨ On q₁ p₂ q₂

omit [LinearOrder K] [IsStrictOrderedRing K] in
@[simp] theorem along_zero (p q : K × K) : along p q 0 = p := by simp [along]

omit [LinearOrder K] [IsStrictOrderedRing K] in
@[simp] theorem along_one (p q : K × K) : along p q 1 = q := by simp [along]

theorem meet_of_touch (first : p₁ ≠ p₂) (second : q₁ ≠ q₂) (touch : Touch p₁ p₂ q₁ q₂) :
    Meet p₁ p₂ q₁ q₂ := by
  rcases touch with on | on | on | on
  · obtain ⟨s, low, high, same⟩ := (on_iff first).mp on
    exact ⟨s, 0, low, high, le_rfl, zero_le_one, by simp [same]⟩
  · obtain ⟨s, low, high, same⟩ := (on_iff first).mp on
    exact ⟨s, 1, low, high, zero_le_one, le_rfl, by simp [same]⟩
  · obtain ⟨t, low, high, same⟩ := (on_iff second).mp on
    exact ⟨0, t, le_rfl, zero_le_one, low, high, by simp [same]⟩
  · obtain ⟨t, low, high, same⟩ := (on_iff second).mp on
    exact ⟨1, t, zero_le_one, le_rfl, low, high, by simp [same]⟩

omit [LinearOrder K] [IsStrictOrderedRing K] in
theorem along_inj {p q : K × K} (apart : p ≠ q) {s t : K} (same : along p q s = along p q t) :
    s = t := by
  simp only [along, Prod.mk.injEq, add_right_inj, mul_eq_mul_right_iff, sub_eq_zero] at same
  rcases same with ⟨eq | level, eq' | level'⟩
  · exact eq
  · exact eq
  · exact eq'
  · exact absurd (Prod.ext level.symm level'.symm) apart

omit [LinearOrder K] [IsStrictOrderedRing K] in
theorem along_along (p q : K × K) (l m t : K) :
    along (along p q l) (along p q m) t = along p q (l + t * (m - l)) := by
  simp only [along, Prod.mk.injEq]
  constructor <;> ring

theorem ends_of_common {l m s t : K} (apart : l ≠ m) (low : 0 ≤ s) (high : s ≤ 1) (low' : 0 ≤ t)
    (high' : t ≤ 1) (same : s = l + t * (m - l)) :
    (0 ≤ l ∧ l ≤ 1) ∨ (0 ≤ m ∧ m ≤ 1) ∨ ∃ r, 0 ≤ r ∧ r ≤ 1 ∧ l + r * (m - l) = 0 := by
  have mean := between_of_weight (a := l) (b := m) low' high'
  rw [← same] at mean
  by_cases first : 0 ≤ l ∧ l ≤ 1
  · exact .inl first
  · by_cases second : 0 ≤ m ∧ m ≤ 1
    · exact .inr (.inl second)
    · refine .inr (.inr ((sign_ne_iff apart).mp ?_))
      rcases le_total l m with rising | falling
      · rw [max_eq_right rising, min_eq_left rising] at mean
        have neg : l < 0 := by
          by_contra nonneg
          exact first ⟨not_lt.mp nonneg, mean.2.trans high⟩
        have pos : 0 < m := by
          by_contra nonpos
          exact second ⟨low.trans mean.1, (not_lt.mp nonpos).trans zero_le_one⟩
        simp [sign_neg neg, sign_pos pos]
      · rw [max_eq_left falling, min_eq_right falling] at mean
        have neg : m < 0 := by
          by_contra nonneg
          exact second ⟨not_lt.mp nonneg, mean.2.trans high⟩
        have pos : 0 < l := by
          by_contra nonpos
          exact first ⟨low.trans mean.1, (not_lt.mp nonpos).trans zero_le_one⟩
        simp [sign_neg neg, sign_pos pos]

/-- Parallel segments that meet are on one line, and an end of one lies on the other. -/
theorem touch_of_meet (first : p₁ ≠ p₂) (second : q₁ ≠ q₂)
    (parallel : cross (p₂ - p₁) (q₂ - q₁) = 0) (meet : Meet p₁ p₂ q₁ q₂) :
    Touch p₁ p₂ q₁ q₂ := by
  obtain ⟨s, t, low, high, low', high', same⟩ := meet
  have flat : cross (p₂ - p₁) (q₁ - p₁) = 0 := by simpa [parallel] using cross_of_meet same
  have flat' : cross (p₂ - p₁) (q₂ - p₁) = 0 := by
    have step := @cross_step K _ p₁ p₂ q₁ q₂
    rwa [parallel, flat, sub_zero] at step
  obtain ⟨l, rfl⟩ := along_of_cross first flat
  obtain ⟨m, rfl⟩ := along_of_cross first flat'
  have differ : l ≠ m := fun eq => second (by rw [eq])
  rw [along_along] at same
  rcases ends_of_common differ low high low' high' (along_inj first same) with
    ⟨low, high⟩ | ⟨low, high⟩ | ⟨r, low, high, root⟩
  · exact .inl ((on_iff first).mpr ⟨l, low, high, rfl⟩)
  · exact .inr (.inl ((on_iff first).mpr ⟨m, low, high, rfl⟩))
  · exact .inr (.inr (.inl ((on_iff second).mpr ⟨r, low, high, by simp [along_along, root]⟩)))

theorem test_iff_meet (first : p₁ ≠ p₂) (second : q₁ ≠ q₂) :
    (Separated p₁ p₂ q₁ q₂ ∧ Separated q₁ q₂ p₁ p₂) ∨ Touch p₁ p₂ q₁ q₂ ↔ Meet p₁ p₂ q₁ q₂ := by
  by_cases parallel : cross (p₂ - p₁) (q₂ - q₁) = 0
  · have together : ¬Separated p₁ p₂ q₁ q₂ := by
      have same := sub_eq_zero.mp (cross_step.trans parallel)
      simp [Separated, side, same]
    constructor
    · rintro (⟨apart, _⟩ | touch)
      · exact absurd apart together
      · exact meet_of_touch first second touch
    · exact fun meet => .inr (touch_of_meet first second parallel meet)
  · constructor
    · rintro (apart | touch)
      · exact (separated_iff_meet parallel).mp apart
      · exact meet_of_touch first second touch
    · exact fun meet => .inl ((separated_iff_meet parallel).mpr meet)

end Segments
