import Mathlib.Data.Fin.VecNotation
import Mathlib.Data.Rat.Floor
import VisionLab.Lib.Kalman
import VisionLab.Lib.Machine
import VisionLab.Tracking.ByteTrackTracker

/-! The filter of one box, `[cx, cy, a, h, vx, vy, va, vh]` with `a = width / height`, on a Kalman
filter of OpenCV. The arithmetic is exact. -/
namespace VisionLab

open Kalman Matrix

/-- The four coordinates, and then their velocities. -/
abbrev BoxState := Fin 4 ⊕ Fin 4

abbrev BoxFilter := Filter BoxState (Fin 4) ℚ

/-- What OpenCV says of `cv::KalmanFilter` and of `cvRound`, as if numbers were exact. -/
class CvKalman where
  create : BoxFilter
  predict : BoxFilter → BoxFilter
  correct : BoxFilter → (Fin 4 → ℚ) → BoxFilter
  cvRound : ℚ → ℤ
  predicts : ∀ f : BoxFilter, f.Predicts (predict f)
  corrects : ∀ (f : BoxFilter) (z : Fin 4 → ℚ), f.Corrects z (correct f z)
  nearest : ∀ x, |(cvRound x : ℚ) - x| ≤ 1 / 2

/-- The equations themselves, and the nearest integer. -/
noncomputable abbrev exactKalman : CvKalman where
  create := ⟨0, 0, 1, 0, 1, 1, 0, 0⟩
  predict f :=
    let statePre := f.transitionMatrix *ᵥ f.statePost
    let errorCovPre :=
      f.transitionMatrix * f.errorCovPost * f.transitionMatrixᵀ + f.processNoiseCov
    { f with
      statePre := statePre
      errorCovPre := errorCovPre
      statePost := statePre
      errorCovPost := errorCovPre }
  correct f measurement :=
    { f with
      statePost := f.statePre + f.gain *ᵥ (measurement - f.measurementMatrix *ᵥ f.statePre)
      errorCovPost := (1 - f.gain * f.measurementMatrix) * f.errorCovPre }
  cvRound := round
  predicts _ := ⟨⟨rfl, rfl, rfl, rfl⟩, rfl, rfl, rfl, rfl⟩
  corrects _ _ := ⟨⟨rfl, rfl, rfl, rfl⟩, rfl, rfl, fun _ => rfl, fun _ => rfl⟩
  nearest x := by
    rw [abs_sub_comm]
    exact abs_sub_round x

variable [CvKalman]

def kMinSize : ℚ := 1
def kMinAspect : ℚ := 1 / 1000

def xyahFromRect (box : Rect) : Fin 4 → ℚ :=
  let width := max kMinSize box.width
  let height := max kMinSize box.height
  ![box.x + width * (1 / 2), box.y + height * (1 / 2), width / height, height]

def rectFromState (state : BoxState → ℚ) : Rect :=
  let cx := state (.inl 0)
  let cy := state (.inl 1)
  let aspect := max kMinAspect (state (.inl 2))
  let height := max kMinSize (state (.inl 3))
  let width := aspect * height
  ⟨CvKalman.cvRound (cx - width * (1 / 2)), CvKalman.cvRound (cy - height * (1 / 2)),
    max 1 (CvKalman.cvRound width), max 1 (CvKalman.cvRound height)⟩

structure KalmanBox where
  m_filter : BoxFilter
  m_box : Rect

namespace KalmanBox

/-- The entries of the transition from a velocity to its own coordinate. -/
def setDt (dt : ℚ) (filter : BoxFilter) : BoxFilter :=
  { filter with
    transitionMatrix := fun i j =>
      match i, j with
      | .inl a, .inr b => if a = b then dt else filter.transitionMatrix i j
      | _, _ => filter.transitionMatrix i j }

/- The constructor. -/
def init (initialBox : Rect) : KalmanBox :=
  let state : BoxState → ℚ := Sum.elim (xyahFromRect initialBox) 0
  { m_filter :=
      { setDt kDefaultDt { CvKalman.create with transitionMatrix := 1 } with
        measurementMatrix := fun i j =>
          match j with
          | .inl j => if i = j then 1 else 0
          | .inr _ => 0
        processNoiseCov := diagonal fun _ => 1 / 100
        measurementNoiseCov := diagonal fun _ => 1 / 10
        errorCovPost := 1
        statePost := state }
    m_box := rectFromState state }

def predict (k : KalmanBox) (dtSeconds : ℚ) : KalmanBox :=
  let dt := if 0 < dtSeconds then dtSeconds else kDefaultDt
  let filter := CvKalman.predict (setDt dt k.m_filter)
  { m_filter := { filter with statePost := filter.statePre }
    m_box := rectFromState filter.statePre }

def update (k : KalmanBox) (measurement : Rect) : KalmanBox :=
  let filter := CvKalman.correct k.m_filter (xyahFromRect measurement)
  { m_filter := filter
    m_box := rectFromState filter.statePost }

end KalmanBox

instance cvBox : KalmanBoxFilter KalmanBox where
  init := KalmanBox.init
  predict := KalmanBox.predict
  update := KalmanBox.update
  box k := k.m_box

inductive BoxCall where
  | predict (dtSeconds : ℚ)
  | update (measurement : Rect)
  deriving DecidableEq, Repr

namespace KalmanBox

def call (k : KalmanBox) : BoxCall → KalmanBox
  | .predict dtSeconds => k.predict dtSeconds
  | .update measurement => k.update measurement

def after (box : Rect) (calls : List BoxCall) : KalmanBox := Machine.run call (init box) calls

def startAxis (box : Rect) (i : Fin 4) : Axis ℚ :=
  ⟨⟨0, 0, 0, 0, 0⟩, ⟨xyahFromRect box i, 0, 1, 0, 1⟩⟩

def axisCall (i : Fin 4) (axis : Axis ℚ) : BoxCall → Axis ℚ
  | .predict dtSeconds => axis.predict (1 / 100) (if 0 < dtSeconds then dtSeconds else kDefaultDt)
  | .update measurement => axis.correct (1 / 10) (xyahFromRect measurement i)

/-- A coordinate by itself, through the same calls. -/
def axisAfter (box : Rect) (calls : List BoxCall) (i : Fin 4) : Axis ℚ :=
  Machine.run (axisCall i) (startAxis box i) calls

theorem after_concat (box : Rect) (calls : List BoxCall) (last : BoxCall) :
    after box (calls ++ [last]) = (after box calls).call last :=
  Machine.run_append ..

omit [CvKalman] in
theorem axisAfter_concat (box : Rect) (calls : List BoxCall) (last : BoxCall) :
    axisAfter box (calls ++ [last]) = fun i => axisCall i (axisAfter box calls i) last :=
  funext fun _ => Machine.run_append ..

omit [CvKalman] in
theorem setDt_estimated {q r dt : ℚ} {filter : BoxFilter} {e : Fin 4 → Estimate ℚ}
    (estimated : Estimated q r dt filter e) (dt' : ℚ) :
    Estimated q r dt' (setDt dt' filter) e := by
  refine { estimated with transitionMatrix := ?_ }
  funext i j
  simp only [setDt, estimated.transitionMatrix, transition]
  rcases i with a | a <;> rcases j with b | b
  · rfl
  · by_cases same : a = b
    · simp [same]
    · simp [same]
  · rfl
  · rfl

theorem init_estimated (box : Rect) :
    Estimated (1 / 100) (1 / 10) kDefaultDt (init box).m_filter (fun i => (startAxis box i).post) := by
  constructor
  · funext i j
    rcases i with i | i <;> rcases j with j | j
    · simp [init, setDt, transition, Matrix.one_apply]
    · by_cases same : i = j
      · simp [init, setDt, transition, same]
      · simp [init, setDt, transition, same]
    · simp [init, setDt, transition, Matrix.one_apply]
    · simp [init, setDt, transition, Matrix.one_apply]
  · funext i j
    rcases j with j | j
    · simp [init, measured, Matrix.one_apply]
    · simp [init, measured]
  · rfl
  · rfl
  · funext i
    rcases i with i | i <;> rfl
  · funext i j
    rcases i with i | i <;> rcases j with j | j <;>
      simp [init, covOf, startAxis, Matrix.one_apply]

theorem predict_uncoupled {k : KalmanBox} {dt : ℚ} {e : Fin 4 → Estimate ℚ}
    (estimated : Estimated (1 / 100) (1 / 10) dt k.m_filter e) (dtSeconds : ℚ) :
    Uncoupled (1 / 100) (1 / 10) (if 0 < dtSeconds then dtSeconds else kDefaultDt)
      (k.predict dtSeconds).m_filter (fun i =>
        let ahead := (e i).predict (1 / 100) (if 0 < dtSeconds then dtSeconds else kDefaultDt)
        ⟨ahead, ahead⟩) := by
  have asked := setDt_estimated estimated (if 0 < dtSeconds then dtSeconds else kDefaultDt)
  have next := asked.predict (CvKalman.predicts _)
  exact { next with statePost := next.statePre }

omit [CvKalman] in
/-- What a coordinate knows of itself is never contradictory. -/
theorem axisAfter_sound (box : Rect) (calls : List BoxCall) (i : Fin 4) :
    (axisAfter box calls i).pre.Sound ∧ (axisAfter box calls i).post.Sound := by
  refine Machine.run_invariant (P := fun axis : Axis ℚ => axis.pre.Sound ∧ axis.post.Sound) ?_ ?_ calls
  · exact ⟨⟨le_rfl, le_rfl, by simp [startAxis]⟩, ⟨zero_le_one, zero_le_one, by simp [startAxis]⟩⟩
  · rintro axis (dtSeconds | measurement) ⟨pre, post⟩
    · exact ⟨post.predict (by norm_num), post.predict (by norm_num)⟩
    · exact ⟨pre, pre.correct (by norm_num)⟩

omit [CvKalman] in
theorem axisAfter_unsure (box : Rect) (calls : List BoxCall) (i : Fin 4) :
    (axisAfter box calls i).pre.variance + 1 / 10 ≠ 0 := by
  have sound := (axisAfter_sound box calls i).1.variance
  positivity

def Shown (k : KalmanBox) : Prop := k.m_box = rectFromState k.m_filter.statePost

theorem after_uncoupled_axes (box : Rect) (first : ℚ) (calls : List BoxCall) :
    ∃ dt, Uncoupled (1 / 100) (1 / 10) dt (after box (.predict first :: calls)).m_filter
        (axisAfter box (.predict first :: calls)) ∧
      Shown (after box (.predict first :: calls)) := by
  induction calls using List.reverseRecOn with
  | nil => exact ⟨_, predict_uncoupled (init_estimated box) first, rfl⟩
  | append_singleton calls last ih =>
    obtain ⟨dt, uncoupled, -⟩ := ih
    rw [← List.cons_append, after_concat, axisAfter_concat]
    cases last with
    | predict dtSeconds => exact ⟨_, predict_uncoupled uncoupled.toEstimated dtSeconds, rfl⟩
    | update measurement =>
      exact ⟨dt, uncoupled.correct (axisAfter_unsure box _) (CvKalman.corrects _ _), rfl⟩

/-- After a prediction and any further calls the filter over eight numbers is made of four coordinates
that know nothing of one another, each with its own part of every measurement and none that
contradicts itself, and the box is that of the state. -/
theorem after_uncoupled (box : Rect) (first : ℚ) (calls : List BoxCall) :
    (∃ dt, Uncoupled (1 / 100) (1 / 10) dt (after box (.predict first :: calls)).m_filter
      (axisAfter box (.predict first :: calls))) ∧
      (∀ i, (axisAfter box (.predict first :: calls) i).pre.Sound ∧
        (axisAfter box (.predict first :: calls) i).post.Sound) ∧
      (after box (.predict first :: calls)).m_box =
        rectFromState (after box (.predict first :: calls)).m_filter.statePost := by
  obtain ⟨dt, uncoupled, shown⟩ := after_uncoupled_axes box first calls
  exact ⟨⟨dt, uncoupled⟩, axisAfter_sound box _, shown⟩

omit [CvKalman] in
theorem after_uncoupled_exact :
    letI := exactKalman
    let k := after ⟨10, 10, 20, 20⟩ [.predict (1 / 25), .update ⟨12, 10, 20, 22⟩]
    let axes := axisAfter ⟨10, 10, 20, 20⟩ [.predict (1 / 25), .update ⟨12, 10, 20, 22⟩]
    (∃ dt, Uncoupled (1 / 100) (1 / 10) dt k.m_filter axes) ∧
      (∀ i, (axes i).pre.Sound ∧ (axes i).post.Sound) ∧
      k.m_box = rectFromState k.m_filter.statePost :=
  letI := exactKalman
  after_uncoupled _ _ _

theorem coordinate_update (box : Rect) (first : ℚ) (calls : List BoxCall) (measurement : Rect)
    (i : Fin 4) :
    let k := after box (.predict first :: calls)
    let corrected := (k.update measurement).m_filter
    (min (k.m_filter.statePre (.inl i)) (xyahFromRect measurement i) ≤ corrected.statePost (.inl i) ∧
      corrected.statePost (.inl i) ≤
        max (k.m_filter.statePre (.inl i)) (xyahFromRect measurement i)) ∧
    corrected.errorCovPost (.inl i) (.inl i) ≤ k.m_filter.errorCovPre (.inl i) (.inl i) ∧
    corrected.errorCovPost (.inl i) (.inl i) < 1 / 10 := by
  intro k corrected
  obtain ⟨dt, uncoupled, -⟩ := after_uncoupled_axes box first calls
  have next := uncoupled.correct (axisAfter_unsure box _)
    (CvKalman.corrects _ (xyahFromRect measurement))
  have sound := (axisAfter_sound box (.predict first :: calls) i).1
  have noise : (0 : ℚ) < 1 / 10 := by norm_num
  have before : k.m_filter.statePre (.inl i) =
      (axisAfter box (.predict first :: calls) i).pre.position :=
    congrFun uncoupled.statePre (.inl i)
  have after_ : corrected.statePost (.inl i) =
      ((axisAfter box (.predict first :: calls) i).pre.correct (1 / 10)
        (xyahFromRect measurement i)).position :=
    congrFun next.statePost (.inl i)
  have unsureBefore : k.m_filter.errorCovPre (.inl i) (.inl i) =
      (axisAfter box (.predict first :: calls) i).pre.variance := by
    rw [uncoupled.errorCovPre, covOf, fromBlocks_apply₁₁, diagonal_apply_eq]
  have unsureAfter : corrected.errorCovPost (.inl i) (.inl i) =
      ((axisAfter box (.predict first :: calls) i).pre.correct (1 / 10)
        (xyahFromRect measurement i)).variance := by
    have cov := congrFun (congrFun next.errorCovPost (.inl i)) (.inl i)
    rw [covOf, fromBlocks_apply₁₁, diagonal_apply_eq] at cov
    exact cov
  rw [before, after_, unsureBefore, unsureAfter]
  exact ⟨Estimate.correct_between sound noise, Estimate.correct_variance sound noise⟩

/-- Whenever a measurement comes after a prediction, the covariance that is inverted has an inverse,
and every coordinate is better known than before. -/
theorem update_between (box : Rect) (first : ℚ) (calls : List BoxCall) (measurement : Rect) :
    let k := after box (.predict first :: calls)
    let corrected := (k.update measurement).m_filter
    IsUnit k.m_filter.innovation.det ∧ ∀ i,
      (min (k.m_filter.statePre (.inl i)) (xyahFromRect measurement i) ≤ corrected.statePost (.inl i) ∧
        corrected.statePost (.inl i) ≤
          max (k.m_filter.statePre (.inl i)) (xyahFromRect measurement i)) ∧
      corrected.errorCovPost (.inl i) (.inl i) ≤ k.m_filter.errorCovPre (.inl i) (.inl i) ∧
      corrected.errorCovPost (.inl i) (.inl i) < 1 / 10 := by
  intro k corrected
  obtain ⟨dt, uncoupled, -⟩ := after_uncoupled_axes box first calls
  exact ⟨uncoupled.unit (axisAfter_unsure box _), coordinate_update box first calls measurement⟩

omit [CvKalman] in
theorem update_between_exact :
    letI := exactKalman
    let k := after ⟨10, 10, 20, 20⟩ [.predict (1 / 25)]
    let corrected := (k.update ⟨12, 10, 20, 22⟩).m_filter
    IsUnit k.m_filter.innovation.det ∧ ∀ i,
      (min (k.m_filter.statePre (.inl i)) (xyahFromRect ⟨12, 10, 20, 22⟩ i) ≤
          corrected.statePost (.inl i) ∧
        corrected.statePost (.inl i) ≤
          max (k.m_filter.statePre (.inl i)) (xyahFromRect ⟨12, 10, 20, 22⟩ i)) ∧
      corrected.errorCovPost (.inl i) (.inl i) ≤ k.m_filter.errorCovPre (.inl i) (.inl i) ∧
      corrected.errorCovPost (.inl i) (.inl i) < 1 / 10 :=
  letI := exactKalman
  update_between ⟨10, 10, 20, 20⟩ (1 / 25) [] ⟨12, 10, 20, 22⟩

/-- A coordinate that has a value and does not move. -/
structure Rests (value : ℚ) (axis : Axis ℚ) : Prop where
  pre : axis.pre.position = value ∧ axis.pre.velocity = 0
  post : axis.post.position = value ∧ axis.post.velocity = 0

omit [CvKalman] in
theorem Rests.call {box : Rect} {i : Fin 4} {axis : Axis ℚ} {call : BoxCall}
    (rests : Rests (xyahFromRect box i) axis) (still : ∀ m, call = .update m → m = box) :
    Rests (xyahFromRect box i) (axisCall i axis call) := by
  obtain ⟨⟨prePosition, preVelocity⟩, postPosition, postVelocity⟩ := rests
  cases call with
  | predict dtSeconds =>
    constructor <;> simp [axisCall, Axis.predict, Estimate.predict, postPosition, postVelocity]
  | update measurement =>
    obtain rfl := still measurement rfl
    constructor
    · exact ⟨prePosition, preVelocity⟩
    · simp [axisCall, Axis.correct, Estimate.correct, prePosition, preVelocity]

omit [CvKalman] in
theorem run_rests {box : Rect} {i : Fin 4} {axis : Axis ℚ} {calls : List BoxCall}
    (rests : Rests (xyahFromRect box i) axis)
    (still : ∀ m, BoxCall.update m ∈ calls → m = box) :
    Rests (xyahFromRect box i) (Machine.run (axisCall i) axis calls) := by
  induction calls generalizing axis with
  | nil => exact rests
  | cons call calls ih =>
    refine ih (rests.call ?_) (fun m member => still m (List.mem_cons_of_mem _ member))
    rintro m rfl
    exact still m List.mem_cons_self

theorem box_of_rest (box : Rect) (first : ℚ) (calls : List BoxCall)
    (still : ∀ m, BoxCall.update m ∈ calls → m = box) :
    (after box (.predict first :: calls)).m_box = (init box).m_box := by
  obtain ⟨dt, uncoupled, shown⟩ := after_uncoupled_axes box first calls
  have rests : ∀ i, Rests (xyahFromRect box i) (axisAfter box (.predict first :: calls) i) := by
    intro i
    have ahead : Rests (xyahFromRect box i) (axisCall i (startAxis box i) (.predict first)) := by
      constructor <;> simp [axisCall, startAxis, Axis.predict, Estimate.predict]
    have through : Rests _ (Machine.run (axisCall i) _ calls) := run_rests ahead still
    exact through
  rw [shown, uncoupled.statePost]
  change rectFromState _ = rectFromState _
  congr 1
  funext i
  rcases i with i | i
  · exact (rests i).post.1
  · exact (rests i).post.2

theorem cvRound_intCast (n : ℤ) : CvKalman.cvRound n = n := by
  have near := CvKalman.nearest (n : ℚ)
  have whole : |CvKalman.cvRound (n : ℚ) - n| < 1 := by
    have close : (|CvKalman.cvRound (n : ℚ) - n| : ℚ) < 1 := near.trans_lt (by norm_num)
    exact_mod_cast close
  exact sub_eq_zero.mp (Int.abs_lt_one_iff.mp whole)

theorem init_box {box : Rect} (width : 1 ≤ box.width) (height : 1 ≤ box.height)
    (thick : box.height ≤ 1000 * box.width) : (init box).m_box = box := by
  have w : max kMinSize (box.width : ℚ) = box.width :=
    max_eq_right (Int.cast_one.symm.trans_le (Int.cast_le.mpr width))
  have h : max kMinSize (box.height : ℚ) = box.height :=
    max_eq_right (Int.cast_one.symm.trans_le (Int.cast_le.mpr height))
  have positive : (0 : ℚ) < box.height := by exact_mod_cast height
  have aspect : max kMinAspect ((box.width : ℚ) / box.height) = box.width / box.height := by
    refine max_eq_right ?_
    rw [kMinAspect, div_le_div_iff₀ (by norm_num) positive]
    have bound : (box.height : ℚ) ≤ 1000 * box.width := by exact_mod_cast thick
    linarith
  have whole : (box.width : ℚ) / box.height * box.height = box.width :=
    div_mul_cancel₀ _ positive.ne'
  change rectFromState (Sum.elim (xyahFromRect box) 0) = box
  simp only [rectFromState, xyahFromRect, Sum.elim_inl, w, h, Matrix.cons_val_zero,
    Matrix.cons_val_one, Matrix.cons_val, aspect, whole, add_sub_cancel_right, cvRound_intCast,
    max_eq_right width, max_eq_right height]

/-- A box that stands still is shown as it is, however the times go, if a prediction comes first and
it is not too thin. -/
theorem still_box {box : Rect} (width : 1 ≤ box.width) (height : 1 ≤ box.height)
    (thick : box.height ≤ 1000 * box.width) (first : ℚ) (calls : List BoxCall)
    (still : ∀ m, BoxCall.update m ∈ calls → m = box) :
    (after box (.predict first :: calls)).m_box = box :=
  (box_of_rest box first calls still).trans (init_box width height thick)

omit [CvKalman] in
theorem still_box_exact :
    letI := exactKalman
    (after ⟨10, 10, 20, 30⟩ [.predict (1 / 25), .update ⟨10, 10, 20, 30⟩, .predict 0, .predict 7,
      .update ⟨10, 10, 20, 30⟩]).m_box = ⟨10, 10, 20, 30⟩ :=
  letI := exactKalman
  still_box (by decide) (by decide) (by decide) _ _ (by simp)

end KalmanBox

end VisionLab
