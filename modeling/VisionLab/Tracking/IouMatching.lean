import Mathlib.Algebra.Order.BigOperators.Group.List
import VisionLab.Core.Types
import VisionLab.Lib.Greedy

/-! Greedy association of detections with predicted tracks. The loops are the program's own;
`greedyIouAssociate_eq` says that they compute the greedy matching on the list of admissible
pairs. -/
namespace VisionLab

/-- How the machine computes: the value an `int` expression takes from its exact result, and the
quotient of two of them as a `float`. -/
structure Arithmetic where
  int : ℤ → ℤ
  quotient : ℤ → ℤ → ℚ

def Arithmetic.exact : Arithmetic := ⟨id, fun n d => n / d⟩

def intersectionOverUnion (m : Arithmetic) (a b : Rect) : ℚ :=
  if a.empty || b.empty then 0
  else
    let inter := m.int (a.inter b).area
    if inter ≤ 0 then 0
    else
      let uni := m.int (m.int (m.int a.area + m.int b.area) - inter)
      if uni ≤ 0 then 0 else m.quotient inter uni

structure Association where
  detectionIndex : ℕ
  trackIndex : ℕ
  iou : ℚ
  deriving DecidableEq, Repr

namespace IouMatching

structure Problem where
  arithmetic : Arithmetic
  detectionBoxes : List Rect
  detectionClassIds : List ℤ
  predictedTrackBoxes : List Rect
  trackClassIds : List ℤ
  iouThreshold : ℚ

def Problem.iou (p : Problem) (d t : ℕ) : ℚ :=
  intersectionOverUnion p.arithmetic (p.detectionBoxes.getD d {}) (p.predictedTrackBoxes.getD t {})

def Problem.sameClass (p : Problem) (d t : ℕ) : Bool :=
  decide (p.detectionClassIds.getD d 0 = p.trackClassIds.getD t 0)

/- The sentinel `best` of the source, with index -1 and overlap 0, is `none` here. -/
def bestIou (best : Option Association) : ℚ := (best.map Association.iou).getD 0

def consider (p : Problem) (trackUsed : List Bool) (d : ℕ) (best : Option Association) (t : ℕ) :
    Option Association :=
  if trackUsed.getD t false || !p.sameClass d t then best
  else if p.iou d t < p.iouThreshold ∨ p.iou d t ≤ bestIou best then best
  else some ⟨d, t, p.iou d t⟩

def bestPair (p : Problem) (detUsed trackUsed : List Bool) : Option Association :=
  (List.range p.detectionBoxes.length).foldl
    (fun best d =>
      if detUsed.getD d false then best
      else (List.range p.predictedTrackBoxes.length).foldl (consider p trackUsed d) best)
    none

/-- The outer loop, at most `fuel` rounds of it. -/
def associateLoop (p : Problem) : ℕ → List Bool → List Bool → List Association
  | 0, _, _ => []
  | fuel + 1, detUsed, trackUsed =>
    match bestPair p detUsed trackUsed with
    | none => []
    | some best =>
      best :: associateLoop p fuel (detUsed.set best.detectionIndex true)
        (trackUsed.set best.trackIndex true)

end IouMatching

open IouMatching

/- A round of the loop uses up a pair, so one round more than there are pairs is enough. -/
def greedyIouAssociate (m : Arithmetic) (detectionBoxes : List Rect) (detectionClassIds : List ℤ)
    (predictedTrackBoxes : List Rect) (trackClassIds : List ℤ) (iouThreshold : ℚ) :
    List Association :=
  if detectionBoxes.length ≠ detectionClassIds.length ∨
      predictedTrackBoxes.length ≠ trackClassIds.length then []
  else if detectionBoxes.length = 0 ∨ predictedTrackBoxes.length = 0 then []
  else
    associateLoop
      ⟨m, detectionBoxes, detectionClassIds, predictedTrackBoxes, trackClassIds, iouThreshold⟩
      (detectionBoxes.length * predictedTrackBoxes.length + 1)
      (List.replicate detectionBoxes.length false) (List.replicate predictedTrackBoxes.length false)

namespace IouMatching

/- The abstract side: the pairs the loops can choose from, in the order they are scanned. -/

def admissible (p : Problem) (d t : ℕ) : Option Association :=
  if p.sameClass d t = true ∧ p.iouThreshold ≤ p.iou d t ∧ 0 < p.iou d t then
    some ⟨d, t, p.iou d t⟩
  else none

def pairs (p : Problem) : List Association :=
  (List.range p.detectionBoxes.length).flatMap
    (fun d => (List.range p.predictedTrackBoxes.length).filterMap (admissible p d))

def unused (detUsed trackUsed : List Bool) (a : Association) : Bool :=
  !detUsed.getD a.detectionIndex false && !trackUsed.getD a.trackIndex false

def matching (p : Problem) : List Association :=
  Greedy.greedy Association.detectionIndex Association.trackIndex Association.iou (pairs p)

theorem admissible_eq_some (p : Problem) (d t : ℕ) (a : Association) :
    admissible p d t = some a ↔ a = ⟨d, t, p.iou d t⟩ ∧ p.sameClass d t = true ∧
      p.iouThreshold ≤ p.iou d t ∧ 0 < p.iou d t := by
  unfold admissible
  by_cases fits : p.sameClass d t = true ∧ p.iouThreshold ≤ p.iou d t ∧ 0 < p.iou d t
  · rw [if_pos fits]
    constructor
    · intro h
      exact ⟨(Option.some.inj h).symm, fits⟩
    · rintro ⟨rfl, _⟩
      rfl
  · rw [if_neg fits]
    constructor
    · intro h
      cases h
    · rintro ⟨_, h⟩
      exact absurd h fits

theorem mem_pairs (p : Problem) (a : Association) : a ∈ pairs p ↔
    a.detectionIndex < p.detectionBoxes.length ∧ a.trackIndex < p.predictedTrackBoxes.length ∧
      admissible p a.detectionIndex a.trackIndex = some a := by
  simp only [pairs, List.mem_flatMap, List.mem_filterMap, List.mem_range]
  constructor
  · rintro ⟨d, hd, t, ht, h⟩
    have shape := ((admissible_eq_some p d t a).mp h).1
    subst shape
    exact ⟨hd, ht, h⟩
  · rintro ⟨hd, ht, h⟩
    exact ⟨_, hd, _, ht, h⟩

theorem admissible_positive {p : Problem} {d t : ℕ} {a : Association}
    (h : admissible p d t = some a) : 0 < a.iou := by
  obtain ⟨rfl, _, _, positive⟩ := (admissible_eq_some p d t a).mp h
  exact positive

/- One look at a pair is one step of the scan for the heaviest edge. -/
theorem consider_eq (p : Problem) (detUsed trackUsed : List Bool) (d t : ℕ)
    (free : detUsed.getD d false = false) (best : Option Association)
    (nonneg : 0 ≤ bestIou best) :
    consider p trackUsed d best t =
      ((admissible p d t).toList.filter (unused detUsed trackUsed)).foldl
        (Greedy.keep Association.iou) best := by
  unfold consider
  by_cases skip : (trackUsed.getD t false || !p.sameClass d t) = true
  · rw [if_pos skip]
    cases h : admissible p d t with
    | none => rfl
    | some a =>
      obtain ⟨rfl, same, _⟩ := (admissible_eq_some p d t a).mp h
      have used : trackUsed.getD t false = true := by simpa [same] using skip
      simp only [Option.toList_some, List.filter_cons, unused, free, used]
      rfl
  · rw [if_neg skip]
    simp only [Bool.or_eq_true, Bool.not_eq_true', not_or, Bool.not_eq_true,
      Bool.not_eq_false] at skip
    obtain ⟨unusedTrack, same⟩ := skip
    by_cases low : p.iou d t < p.iouThreshold ∨ p.iou d t ≤ bestIou best
    · rw [if_pos low]
      cases h : admissible p d t with
      | none => rfl
      | some a =>
        obtain ⟨rfl, _, enough, positive⟩ := (admissible_eq_some p d t a).mp h
        have lighter : p.iou d t ≤ bestIou best := low.resolve_left (not_lt.mpr enough)
        simp only [Option.toList_some, List.filter_cons, unused, free, unusedTrack]
        cases best with
        | none => exact absurd lighter (not_le.mpr positive)
        | some b =>
          have notHeavier : ¬ b.iou < p.iou d t := not_lt.mpr lighter
          exact (if_neg notHeavier).symm
    · rw [if_neg low]
      rw [not_or, not_lt, not_le] at low
      have positive : 0 < p.iou d t := nonneg.trans_lt low.2
      have h := (admissible_eq_some p d t _).mpr ⟨rfl, same, low.1, positive⟩
      rw [h]
      simp only [Option.toList_some, List.filter_cons, unused, free, unusedTrack]
      cases best with
      | none => rfl
      | some b =>
        have heavier : b.iou < p.iou d t := low.2
        exact (if_pos heavier).symm

theorem keep_nonneg (best : Option Association) (a : Association) (nonneg : 0 ≤ bestIou best)
    (positive : 0 < a.iou) : 0 ≤ bestIou (Greedy.keep Association.iou best a) := by
  cases best with
  | none => exact positive.le
  | some b =>
    unfold Greedy.keep
    dsimp only
    by_cases heavier : b.iou < a.iou
    · rw [if_pos heavier]
      exact positive.le
    · rw [if_neg heavier]
      exact nonneg

theorem scan_nonneg (as : List Association) (best : Option Association)
    (nonneg : 0 ≤ bestIou best) (positive : ∀ a ∈ as, 0 < a.iou) :
    0 ≤ bestIou (as.foldl (Greedy.keep Association.iou) best) := by
  induction as generalizing best with
  | nil => exact nonneg
  | cons a as ih =>
    rw [List.foldl_cons]
    apply ih
    · exact keep_nonneg best a nonneg (positive a List.mem_cons_self)
    · exact fun b hb => positive b (List.mem_cons_of_mem a hb)

theorem inner_eq (p : Problem) (detUsed trackUsed : List Bool) (d : ℕ)
    (free : detUsed.getD d false = false) (ts : List ℕ) (best : Option Association)
    (nonneg : 0 ≤ bestIou best) :
    ts.foldl (consider p trackUsed d) best =
      ((ts.filterMap (admissible p d)).filter (unused detUsed trackUsed)).foldl
        (Greedy.keep Association.iou) best := by
  induction ts generalizing best with
  | nil => rfl
  | cons t ts ih =>
    have first := consider_eq p detUsed trackUsed d t free best nonneg
    rw [List.foldl_cons, ih, first]
    · have split : (t :: ts).filterMap (admissible p d) =
          (admissible p d t).toList ++ ts.filterMap (admissible p d) := by
        cases h : admissible p d t with
        | none => rw [List.filterMap_cons_none h]; rfl
        | some a => rw [List.filterMap_cons_some h]; rfl
      rw [split, List.filter_append, List.foldl_append]
    · rw [first]
      apply scan_nonneg _ _ nonneg
      intro a ha
      have member := (List.mem_filter.mp ha).1
      rw [Option.mem_toList] at member
      exact admissible_positive member

theorem outer_eq (p : Problem) (detUsed trackUsed : List Bool) (ds : List ℕ)
    (best : Option Association) (nonneg : 0 ≤ bestIou best) :
    ds.foldl (fun best d =>
        if detUsed.getD d false then best
        else (List.range p.predictedTrackBoxes.length).foldl (consider p trackUsed d) best) best =
      ((ds.flatMap (fun d => (List.range p.predictedTrackBoxes.length).filterMap
        (admissible p d))).filter (unused detUsed trackUsed)).foldl
        (Greedy.keep Association.iou) best := by
  induction ds generalizing best with
  | nil => rfl
  | cons d ds ih =>
    rw [List.foldl_cons, List.flatMap_cons, List.filter_append, List.foldl_append]
    cases used : detUsed.getD d false with
    | true =>
      have nothing : ((List.range p.predictedTrackBoxes.length).filterMap
          (admissible p d)).filter (unused detUsed trackUsed) = [] := by
        apply List.filter_eq_nil_iff.mpr
        intro a ha
        obtain ⟨t, _, h⟩ := List.mem_filterMap.mp ha
        obtain ⟨rfl, _⟩ := (admissible_eq_some p d t a).mp h
        simp only [unused, used, Bool.not_true, Bool.false_and, Bool.false_eq_true,
          not_false_eq_true]
      rw [nothing, if_pos rfl]
      exact ih best nonneg
    | false =>
      have inner := inner_eq p detUsed trackUsed d used
        (List.range p.predictedTrackBoxes.length) best nonneg
      rw [if_neg Bool.false_ne_true, inner]
      apply ih
      apply scan_nonneg _ _ nonneg
      intro a ha
      obtain ⟨t, _, h⟩ := List.mem_filterMap.mp (List.mem_filter.mp ha).1
      exact admissible_positive h

theorem bestPair_eq (p : Problem) (detUsed trackUsed : List Bool) :
    bestPair p detUsed trackUsed =
      Greedy.heaviest Association.iou ((pairs p).filter (unused detUsed trackUsed)) :=
  outer_eq p detUsed trackUsed _ none (le_refl _)

theorem getD_set_true {used : List Bool} {i : ℕ} (bound : i < used.length) (j : ℕ) :
    (used.set i true).getD j false = (decide (i = j) || used.getD j false) := by
  by_cases same : i = j
  · subst same
    simp [bound]
  · simp [List.getD_eq_getElem?_getD, List.getElem?_set_ne same, same]

/- Marking a taken pair strikes out the pairs that clash with it. -/
theorem unused_set {p : Problem} {detUsed trackUsed : List Bool} {best : Association}
    (inDet : best.detectionIndex < detUsed.length) (inTrack : best.trackIndex < trackUsed.length) :
    (pairs p).filter (unused (detUsed.set best.detectionIndex true)
        (trackUsed.set best.trackIndex true)) =
      Greedy.strike Association.detectionIndex Association.trackIndex best
        ((pairs p).filter (unused detUsed trackUsed)) := by
  rw [Greedy.strike, List.filter_filter]
  apply List.filter_congr
  intro a _
  simp only [unused, getD_set_true inDet, getD_set_true inTrack, Greedy.clash]
  cases decide (best.detectionIndex = a.detectionIndex) <;>
    cases decide (best.trackIndex = a.trackIndex) <;> simp

theorem associateLoop_eq (p : Problem) (fuel : ℕ) (detUsed trackUsed : List Bool)
    (dets : detUsed.length = p.detectionBoxes.length)
    (tracks : trackUsed.length = p.predictedTrackBoxes.length)
    (enough : ((pairs p).filter (unused detUsed trackUsed)).length < fuel) :
    associateLoop p fuel detUsed trackUsed =
      Greedy.greedy Association.detectionIndex Association.trackIndex Association.iou
        ((pairs p).filter (unused detUsed trackUsed)) := by
  induction fuel generalizing detUsed trackUsed with
  | zero => exact absurd enough (Nat.not_lt_zero _)
  | succ fuel ih =>
    unfold associateLoop
    rw [bestPair_eq]
    cases h : Greedy.heaviest Association.iou ((pairs p).filter (unused detUsed trackUsed)) with
    | none =>
      rw [(Greedy.heaviest_eq_none _ _).mp h, Greedy.greedy_nil]
    | some best =>
      have leads := (Greedy.heaviest_eq_some _ _ _).mp h
      have member := (mem_pairs p best).mp (List.mem_filter.mp leads.mem).1
      have struck := unused_set (p := p) (dets ▸ member.1) (tracks ▸ member.2.1)
      have shorter := Greedy.strike_length_lt Association.detectionIndex Association.trackIndex
        leads.mem
      rw [Greedy.greedy_of_leads leads]
      dsimp only
      rw [ih _ _ (by rw [List.length_set, dets]) (by rw [List.length_set, tracks])
        (by rw [struck]; omega), struck]

theorem pairs_length_le (p : Problem) :
    (pairs p).length ≤ p.detectionBoxes.length * p.predictedTrackBoxes.length := by
  rw [pairs, List.length_flatMap]
  have bound := List.sum_le_card_nsmul
    ((List.range p.detectionBoxes.length).map
      (fun d => ((List.range p.predictedTrackBoxes.length).filterMap (admissible p d)).length))
    p.predictedTrackBoxes.length
    (by
      intro n hn
      obtain ⟨d, _, rfl⟩ := List.mem_map.mp hn
      have := List.length_filterMap_le (admissible p d) (List.range p.predictedTrackBoxes.length)
      rwa [List.length_range] at this)
  simpa using bound

end IouMatching

/-- The loops end by their `break`, with the greedy matching of the admissible pairs. -/
theorem greedyIouAssociate_eq (p : Problem)
    (dets : p.detectionBoxes.length = p.detectionClassIds.length)
    (tracks : p.predictedTrackBoxes.length = p.trackClassIds.length) :
    greedyIouAssociate p.arithmetic p.detectionBoxes p.detectionClassIds p.predictedTrackBoxes
      p.trackClassIds p.iouThreshold = matching p := by
  have all : (pairs p).filter (unused (List.replicate p.detectionBoxes.length false)
      (List.replicate p.predictedTrackBoxes.length false)) = pairs p := by
    apply List.filter_eq_self.mpr
    intro a ha
    obtain ⟨hd, ht, _⟩ := (mem_pairs p a).mp ha
    simp [unused, List.getD_eq_getElem?_getD, hd, ht]
  unfold greedyIouAssociate
  rw [if_neg (by simp [dets, tracks])]
  by_cases empty : p.detectionBoxes.length = 0 ∨ p.predictedTrackBoxes.length = 0
  · have none_left : pairs p = [] := by
      apply List.eq_nil_iff_forall_not_mem.mpr
      intro a ha
      obtain ⟨hd, ht, _⟩ := (mem_pairs p a).mp ha
      omega
    rw [if_pos empty, matching, none_left, Greedy.greedy_nil]
  · have bound := pairs_length_le p
    rw [if_neg empty, associateLoop_eq p _ _ _ List.length_replicate List.length_replicate
      (by rw [all]; omega), all, matching]

end VisionLab
