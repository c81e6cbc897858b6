import Mathlib.Data.Matrix.ColumnRowPartitioned
import Mathlib.LinearAlgebra.Matrix.NonsingularInverse
import Mathlib.Tactic.FieldSimp
import Mathlib.Tactic.LinearCombination
import Mathlib.Tactic.Positivity

/-! The equations of a Kalman filter, and filters that follow several coordinates at constant velocity:
such a filter is a filter of two numbers for each coordinate. -/
namespace Kalman

open Matrix

variable {K ι : Type*}

/-- The matrices of a filter with states over `n` and measurements over `m`. -/
structure Filter (n m K : Type*) where
  statePre : n → K
  statePost : n → K
  transitionMatrix : Matrix n n K
  measurementMatrix : Matrix m n K
  processNoiseCov : Matrix n n K
  measurementNoiseCov : Matrix m m K
  errorCovPre : Matrix n n K
  errorCovPost : Matrix n n K

namespace Filter

section Equations

variable {n m : Type*} [Fintype n] [CommRing K]

def innovation (f : Filter n m K) : Matrix m m K :=
  f.measurementMatrix * f.errorCovPre * f.measurementMatrixᵀ + f.measurementNoiseCov

noncomputable def gain [Fintype m] [DecidableEq m] (f : Filter n m K) : Matrix n m K :=
  f.errorCovPre * f.measurementMatrixᵀ * f.innovation⁻¹

structure SameMatrices (f g : Filter n m K) : Prop where
  transitionMatrix : g.transitionMatrix = f.transitionMatrix
  measurementMatrix : g.measurementMatrix = f.measurementMatrix
  processNoiseCov : g.processNoiseCov = f.processNoiseCov
  measurementNoiseCov : g.measurementNoiseCov = f.measurementNoiseCov

/-- `g` is the prediction of `f`, and the estimate too until a measurement comes. -/
structure Predicts (f g : Filter n m K) : Prop where
  same : SameMatrices f g
  statePre : g.statePre = f.transitionMatrix *ᵥ f.statePost
  errorCovPre : g.errorCovPre =
    f.transitionMatrix * f.errorCovPost * f.transitionMatrixᵀ + f.processNoiseCov
  statePost : g.statePost = g.statePre
  errorCovPost : g.errorCovPost = g.errorCovPre

/-- `g` is `f` corrected by a measurement. -/
structure Corrects [Fintype m] [DecidableEq n] [DecidableEq m] (f : Filter n m K)
    (measurement : m → K) (g : Filter n m K) : Prop where
  same : SameMatrices f g
  statePre : g.statePre = f.statePre
  errorCovPre : g.errorCovPre = f.errorCovPre
  statePost : IsUnit f.innovation.det →
    g.statePost = f.statePre + f.gain *ᵥ (measurement - f.measurementMatrix *ᵥ f.statePre)
  errorCovPost : IsUnit f.innovation.det →
    g.errorCovPost = (1 - f.gain * f.measurementMatrix) * f.errorCovPre

end Equations

end Filter

/-- What is known of one coordinate: its value and its velocity, with their variances. -/
structure Estimate (K : Type*) where
  position : K
  velocity : K
  variance : K
  cross : K
  drift : K
  deriving DecidableEq, Repr

structure Axis (K : Type*) where
  pre : Estimate K
  post : Estimate K
  deriving DecidableEq, Repr

section Scalar

variable [Field K]

def Estimate.predict (q dt : K) (e : Estimate K) : Estimate K where
  position := e.position + dt * e.velocity
  velocity := e.velocity
  variance := e.variance + 2 * dt * e.cross + dt ^ 2 * e.drift + q
  cross := e.cross + dt * e.drift
  drift := e.drift + q

def Estimate.correct (r z : K) (e : Estimate K) : Estimate K where
  position := e.position + e.variance / (e.variance + r) * (z - e.position)
  velocity := e.velocity + e.cross / (e.variance + r) * (z - e.position)
  variance := e.variance - e.variance / (e.variance + r) * e.variance
  cross := e.cross - e.variance / (e.variance + r) * e.cross
  drift := e.drift - e.cross / (e.variance + r) * e.cross

def Axis.predict (q dt : K) (axis : Axis K) : Axis K where
  pre := axis.post.predict q dt
  post := axis.post.predict q dt

def Axis.correct (r z : K) (axis : Axis K) : Axis K where
  pre := axis.pre
  post := axis.pre.correct r z

end Scalar

section Blocks

variable [Field K] [DecidableEq ι]

def stateOf (e : ι → Estimate K) : ι ⊕ ι → K :=
  Sum.elim (fun i => (e i).position) (fun i => (e i).velocity)

def covOf (e : ι → Estimate K) : Matrix (ι ⊕ ι) (ι ⊕ ι) K :=
  fromBlocks (diagonal fun i => (e i).variance) (diagonal fun i => (e i).cross)
    (diagonal fun i => (e i).cross) (diagonal fun i => (e i).drift)

def transition (ι : Type*) [DecidableEq ι] (dt : K) : Matrix (ι ⊕ ι) (ι ⊕ ι) K :=
  fromBlocks 1 (diagonal fun _ => dt) 0 1

def measured (ι K : Type*) [DecidableEq ι] [Field K] : Matrix ι (ι ⊕ ι) K := fromCols 1 0

/-- The estimate of the filter is one of the coordinates, none of which knows of the others. -/
structure Estimated (q r dt : K) (f : Filter (ι ⊕ ι) ι K) (e : ι → Estimate K) : Prop where
  transitionMatrix : f.transitionMatrix = transition ι dt
  measurementMatrix : f.measurementMatrix = measured ι K
  processNoiseCov : f.processNoiseCov = diagonal fun _ => q
  measurementNoiseCov : f.measurementNoiseCov = diagonal fun _ => r
  statePost : f.statePost = stateOf e
  errorCovPost : f.errorCovPost = covOf e

structure Uncoupled (q r dt : K) (f : Filter (ι ⊕ ι) ι K) (axes : ι → Axis K) : Prop
    extends Estimated q r dt f (fun i => (axes i).post) where
  statePre : f.statePre = stateOf (fun i => (axes i).pre)
  errorCovPre : f.errorCovPre = covOf (fun i => (axes i).pre)

variable [Fintype ι] {q r dt : K} {f g : Filter (ι ⊕ ι) ι K} {axes : ι → Axis K}
  {e : ι → Estimate K}

theorem transition_mulVec (e : ι → Estimate K) :
    transition ι dt *ᵥ stateOf e = stateOf (fun i => (e i).predict q dt) := by
  rw [transition, stateOf, fromBlocks_mulVec]
  funext i
  cases i with
  | inl i => simp [stateOf, Estimate.predict, Function.comp_def]
  | inr i => simp [stateOf, Estimate.predict, Function.comp_def]

theorem transition_covOf (e : ι → Estimate K) :
    transition ι dt * covOf e * (transition ι dt)ᵀ + diagonal (fun _ => q) =
      covOf (fun i => (e i).predict q dt) := by
  have noise : (diagonal fun _ : ι ⊕ ι => q) =
      fromBlocks (diagonal fun _ => q) 0 0 (diagonal fun _ => q) := by
    rw [fromBlocks_diagonal]
    congr 1
    funext i
    cases i <;> rfl
  rw [noise]
  simp only [transition, covOf, fromBlocks_transpose, fromBlocks_multiply, diagonal_mul_diagonal,
    Matrix.one_mul, Matrix.mul_one, Matrix.zero_mul, Matrix.mul_zero, zero_add, add_zero,
    transpose_one, transpose_zero, diagonal_transpose, fromBlocks_add, diagonal_add,
    Estimate.predict]
  congr 1 <;> congr 1 <;> funext i <;> ring

theorem Estimated.predict (estimated : Estimated q r dt f e) (predicts : f.Predicts g) :
    Uncoupled q r dt g (fun i => ⟨(e i).predict q dt, (e i).predict q dt⟩) := by
  have state : g.statePre = stateOf (fun i => (e i).predict q dt) := by
    rw [predicts.statePre, estimated.transitionMatrix, estimated.statePost, transition_mulVec]
  have cov : g.errorCovPre = covOf (fun i => (e i).predict q dt) := by
    rw [predicts.errorCovPre, estimated.transitionMatrix, estimated.errorCovPost,
      estimated.processNoiseCov, transition_covOf]
  exact
    { transitionMatrix := predicts.same.transitionMatrix.trans estimated.transitionMatrix
      measurementMatrix := predicts.same.measurementMatrix.trans estimated.measurementMatrix
      processNoiseCov := predicts.same.processNoiseCov.trans estimated.processNoiseCov
      measurementNoiseCov := predicts.same.measurementNoiseCov.trans estimated.measurementNoiseCov
      statePost := predicts.statePost.trans state
      errorCovPost := predicts.errorCovPost.trans cov
      statePre := state
      errorCovPre := cov }

theorem measured_mulVec (e : ι → Estimate K) :
    measured ι K *ᵥ stateOf e = fun i => (e i).position := by
  rw [measured, stateOf, fromCols_mulVec_sumElim]
  simp

theorem measured_covOf (e : ι → Estimate K) :
    measured ι K * covOf e =
      fromCols (diagonal fun i => (e i).variance) (diagonal fun i => (e i).cross) := by
  rw [measured, covOf, fromCols_mul_fromBlocks]
  simp

theorem covOf_measured (e : ι → Estimate K) :
    covOf e * (measured ι K)ᵀ =
      fromRows (diagonal fun i => (e i).variance) (diagonal fun i => (e i).cross) := by
  rw [measured, covOf, transpose_fromCols, fromBlocks_mul_fromRows]
  simp

theorem Uncoupled.innovation (uncoupled : Uncoupled q r dt f axes) :
    f.innovation = diagonal fun i => (axes i).pre.variance + r := by
  rw [Filter.innovation, uncoupled.measurementMatrix, uncoupled.errorCovPre, measured_covOf,
    uncoupled.measurementNoiseCov, measured, transpose_fromCols, fromCols_mul_fromRows]
  simp [diagonal_add]

theorem Uncoupled.unit (uncoupled : Uncoupled q r dt f axes)
    (unsure : ∀ i, (axes i).pre.variance + r ≠ 0) : IsUnit f.innovation.det := by
  rw [uncoupled.innovation, det_diagonal]
  exact (Finset.prod_ne_zero_iff.mpr (fun i _ => unsure i)).isUnit

theorem Uncoupled.gain (uncoupled : Uncoupled q r dt f axes)
    (unsure : ∀ i, (axes i).pre.variance + r ≠ 0) :
    f.gain =
      fromRows (diagonal fun i => (axes i).pre.variance / ((axes i).pre.variance + r))
        (diagonal fun i => (axes i).pre.cross / ((axes i).pre.variance + r)) := by
  have shares :
      fromRows (diagonal fun i => (axes i).pre.variance / ((axes i).pre.variance + r))
        (diagonal fun i => (axes i).pre.cross / ((axes i).pre.variance + r)) * f.innovation =
      f.errorCovPre * f.measurementMatrixᵀ := by
    rw [uncoupled.innovation, uncoupled.measurementMatrix, uncoupled.errorCovPre, covOf_measured,
      fromRows_mul, diagonal_mul_diagonal, diagonal_mul_diagonal]
    congr 2 <;> funext i <;> exact div_mul_cancel₀ _ (unsure i)
  rw [Filter.gain, ← shares]
  exact mul_nonsing_inv_cancel_right _ _ (uncoupled.unit unsure)

theorem Uncoupled.correct (uncoupled : Uncoupled q r dt f axes)
    (unsure : ∀ i, (axes i).pre.variance + r ≠ 0) {z : ι → K} (corrects : f.Corrects z g) :
    Uncoupled q r dt g (fun i => (axes i).correct r (z i)) where
  transitionMatrix := corrects.same.transitionMatrix.trans uncoupled.transitionMatrix
  measurementMatrix := corrects.same.measurementMatrix.trans uncoupled.measurementMatrix
  processNoiseCov := corrects.same.processNoiseCov.trans uncoupled.processNoiseCov
  measurementNoiseCov := corrects.same.measurementNoiseCov.trans uncoupled.measurementNoiseCov
  statePost := by
    rw [corrects.statePost (uncoupled.unit unsure), uncoupled.gain unsure, uncoupled.statePre,
      uncoupled.measurementMatrix, measured_mulVec, fromRows_mulVec]
    funext i
    cases i with
    | inl i => simp [stateOf, Axis.correct, Estimate.correct, mulVec_diagonal]
    | inr i => simp [stateOf, Axis.correct, Estimate.correct, mulVec_diagonal]
  errorCovPost := by
    rw [corrects.errorCovPost (uncoupled.unit unsure), Matrix.sub_mul, Matrix.one_mul,
      Matrix.mul_assoc, uncoupled.gain unsure, uncoupled.measurementMatrix, uncoupled.errorCovPre,
      measured_covOf, fromRows_mul_fromCols, covOf, covOf, sub_eq_add_neg, fromBlocks_neg,
      fromBlocks_add]
    simp only [diagonal_mul_diagonal, ← sub_eq_add_neg, diagonal_sub, Axis.correct,
      Estimate.correct]
    congr 2
    funext i
    ring
  statePre := corrects.statePre.trans uncoupled.statePre
  errorCovPre := corrects.errorCovPre.trans uncoupled.errorCovPre

end Blocks

section Order

variable [Field K] [LinearOrder K] [IsStrictOrderedRing K] {q r dt z : K} {e : Estimate K}

/-- The variances are those of something. -/
structure Estimate.Sound (e : Estimate K) : Prop where
  variance : 0 ≤ e.variance
  drift : 0 ≤ e.drift
  cross : e.cross ^ 2 ≤ e.variance * e.drift

theorem Estimate.Sound.along (sound : e.Sound) (t : K) :
    0 ≤ e.variance + 2 * t * e.cross + t ^ 2 * e.drift := by
  obtain positive | zero := sound.drift.lt_or_eq
  · have square : 0 ≤ e.drift * (e.variance + 2 * t * e.cross + t ^ 2 * e.drift) := by
      have whole : e.drift * (e.variance + 2 * t * e.cross + t ^ 2 * e.drift) =
          (e.variance * e.drift - e.cross ^ 2) + (e.cross + t * e.drift) ^ 2 := by ring
      rw [whole]
      exact add_nonneg (sub_nonneg.mpr sound.cross) (sq_nonneg _)
    exact nonneg_of_mul_nonneg_right square positive
  · have still : e.cross = 0 := by
      have bound := sound.cross
      rw [← zero, mul_zero] at bound
      exact pow_eq_zero_iff two_ne_zero |>.mp (le_antisymm bound (sq_nonneg _))
    rw [still, ← zero, mul_zero, mul_zero, add_zero, add_zero]
    exact sound.variance

theorem Estimate.Sound.predict (sound : e.Sound) (noise : 0 ≤ q) : (e.predict q dt).Sound where
  variance := add_nonneg (sound.along dt) noise
  drift := add_nonneg sound.drift noise
  cross := by
    have rest : 0 ≤ (e.variance * e.drift - e.cross ^ 2) +
        q * (e.variance + 2 * dt * e.cross + dt ^ 2 * e.drift) + q * e.drift + q * q := by
      have first := sub_nonneg.mpr sound.cross
      have second := mul_nonneg noise (sound.along dt)
      have third := mul_nonneg noise sound.drift
      have fourth := mul_nonneg noise noise
      linarith
    have whole : (e.predict q dt).variance * (e.predict q dt).drift -
        (e.predict q dt).cross ^ 2 = (e.variance * e.drift - e.cross ^ 2) +
          q * (e.variance + 2 * dt * e.cross + dt ^ 2 * e.drift) + q * e.drift + q * q := by
      simp only [Estimate.predict]
      ring
    rw [← whole] at rest
    exact sub_nonneg.mp rest

theorem Estimate.share (sound : e.Sound) (noise : 0 < r) :
    0 ≤ e.variance / (e.variance + r) ∧ e.variance / (e.variance + r) < 1 := by
  have positive : 0 < e.variance + r := add_pos_of_nonneg_of_pos sound.variance noise
  refine ⟨div_nonneg sound.variance positive.le, (div_lt_one positive).mpr ?_⟩
  exact lt_add_of_pos_right _ noise

theorem Estimate.Sound.correct (sound : e.Sound) (noise : 0 < r) : (e.correct r z).Sound := by
  have positive : 0 < e.variance + r := add_pos_of_nonneg_of_pos sound.variance noise
  obtain ⟨some_, notAll⟩ := Estimate.share sound noise
  have left : 0 ≤ 1 - e.variance / (e.variance + r) := sub_nonneg.mpr notAll.le
  constructor
  · have whole : (e.correct r z).variance =
        e.variance * (1 - e.variance / (e.variance + r)) := by
      simp only [Estimate.correct]
      ring
    rw [whole]
    exact mul_nonneg sound.variance left
  · have whole : (e.correct r z).drift = (e.drift * r + (e.variance * e.drift - e.cross ^ 2)) /
        (e.variance + r) := by
      simp only [Estimate.correct]
      field_simp
      ring
    rw [whole]
    have rest := add_nonneg (mul_nonneg sound.drift noise.le) (sub_nonneg.mpr sound.cross)
    exact div_nonneg rest positive.le
  · have whole : (e.correct r z).variance * (e.correct r z).drift - (e.correct r z).cross ^ 2 =
        (1 - e.variance / (e.variance + r)) * (e.variance * e.drift - e.cross ^ 2) := by
      simp only [Estimate.correct]
      field_simp
      ring
    have rest := mul_nonneg left (sub_nonneg.mpr sound.cross)
    rw [← whole] at rest
    exact sub_nonneg.mp rest

theorem Estimate.correct_between (sound : e.Sound) (noise : 0 < r) :
    min e.position z ≤ (e.correct r z).position ∧ (e.correct r z).position ≤ max e.position z := by
  obtain ⟨some_, notAll⟩ := Estimate.share sound noise
  simp only [Estimate.correct]
  obtain below | above := le_total e.position z
  · rw [min_eq_left below, max_eq_right below]
    constructor <;> nlinarith
  · rw [min_eq_right above, max_eq_left above]
    constructor <;> nlinarith

/-- What is known after a measurement is no worse than what was known before, and better than the
measurement. -/
theorem Estimate.correct_variance (sound : e.Sound) (noise : 0 < r) :
    (e.correct r z).variance ≤ e.variance ∧ (e.correct r z).variance < r := by
  obtain ⟨some_, notAll⟩ := Estimate.share sound noise
  have positive : 0 < e.variance + r := add_pos_of_nonneg_of_pos sound.variance noise
  have whole : (e.correct r z).variance = e.variance / (e.variance + r) * r := by
    simp only [Estimate.correct]
    field_simp
    ring
  constructor
  · simp only [Estimate.correct]
    exact sub_le_self _ (mul_nonneg some_ sound.variance)
  · rw [whole]
    exact mul_lt_of_lt_one_left noise notAll

end Order

end Kalman
