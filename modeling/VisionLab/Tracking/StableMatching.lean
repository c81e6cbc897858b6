import Mathlib.Data.Set.Function
import Mathlib.Order.Interval.Set.Basic
import VisionLab.Tracking.IouMatching

/-! The greedy association as a stable matching of boxes with classes. Where no two admissible pairs
overlap equally much it is the only one, so the order of the lists does not matter. -/
namespace VisionLab.IouMatching

abbrev Classed := Rect × ℤ

variable (m : Arithmetic) (detections tracks : List Classed) (threshold : ℚ)

def problem : Problem where
  arithmetic := m
  detectionBoxes := detections.map Prod.fst
  detectionClassIds := detections.map Prod.snd
  predictedTrackBoxes := tracks.map Prod.fst
  trackClassIds := tracks.map Prod.snd
  iouThreshold := threshold

def associate : List Association :=
  greedyIouAssociate m (detections.map Prod.fst) (detections.map Prod.snd) (tracks.map Prod.fst)
    (tracks.map Prod.snd) threshold

/-- The loop of the association, cut off after `fuel` rounds. -/
def rounds (fuel : ℕ) : List Association :=
  associateLoop (problem m detections tracks threshold) fuel
    (List.replicate detections.length false) (List.replicate tracks.length false)

/-- Two of the boxes with equal classes, that overlap, and enough. -/
structure Admissible (a : Association) : Prop where
  boxes : ∃ detection track, detections[a.detectionIndex]? = some detection ∧
    tracks[a.trackIndex]? = some track ∧ detection.2 = track.2 ∧
    a.iou = intersectionOverUnion m detection.1 track.1
  positive : 0 < a.iou
  enough : threshold ≤ a.iou

/-- On both sides of the pair there is nothing, or something that overlaps less. -/
def Blocks (found : List Association) (a : Association) : Prop :=
  (∀ b ∈ found, b.detectionIndex = a.detectionIndex → b.iou < a.iou) ∧
    ∀ b ∈ found, b.trackIndex = a.trackIndex → b.iou < a.iou

structure StableMatching (found : List Association) : Prop where
  admissible : ∀ a ∈ found, Admissible m detections tracks threshold a
  detections_once : (found.map Association.detectionIndex).Nodup
  tracks_once : (found.map Association.trackIndex).Nodup
  sorted : found.Pairwise (fun a b => b.iou ≤ a.iou)
  unblocked : ∀ a, Admissible m detections tracks threshold a → ¬Blocks found a

/-- No two admissible pairs overlap equally much. -/
def DistinctIous : Prop := ∀ a b, Admissible m detections tracks threshold a →
  Admissible m detections tracks threshold b → a.iou = b.iou → a = b

theorem associate_eq : associate m detections tracks threshold =
    matching (problem m detections tracks threshold) :=
  greedyIouAssociate_eq (problem m detections tracks threshold) (by simp [problem])
    (by simp [problem])

/-- One round more than there are pairs of boxes always reaches the end of the loop. -/
theorem rounds_eq (fuel : ℕ) (enough : detections.length * tracks.length < fuel) :
    rounds m detections tracks threshold fuel = associate m detections tracks threshold := by
  have all : (pairs (problem m detections tracks threshold)).filter
      (unused (List.replicate detections.length false) (List.replicate tracks.length false)) =
        pairs (problem m detections tracks threshold) := by
    apply List.filter_eq_self.mpr
    intro a ha
    obtain ⟨hd, ht, _⟩ := (mem_pairs _ a).mp ha
    simp only [problem, List.length_map] at hd ht
    simp [unused, List.getD_eq_getElem?_getD, hd, ht]
  have bound := pairs_length_le (problem m detections tracks threshold)
  simp only [problem, List.length_map] at bound
  rw [rounds, associateLoop_eq _ fuel _ _ (by simp [problem]) (by simp [problem])
    (by rw [all]; simp only [problem]; omega), all, associate_eq]
  rfl

theorem mem_pairs_iff (a : Association) : a ∈ pairs (problem m detections tracks threshold) ↔
    Admissible m detections tracks threshold a := by
  rw [mem_pairs, admissible_eq_some]
  simp only [problem, List.length_map, Problem.sameClass, Problem.iou]
  constructor
  · rintro ⟨hd, ht, shape, sameClass, enough, positive⟩
    have iou := congrArg Association.iou shape
    simp only [List.getD_eq_getElem?_getD, List.getElem?_map, List.getElem?_eq_getElem hd,
      List.getElem?_eq_getElem ht, Option.map_some, Option.getD_some] at sameClass iou enough positive
    exact ⟨⟨_, _, List.getElem?_eq_getElem hd, List.getElem?_eq_getElem ht,
        of_decide_eq_true sameClass, iou⟩, iou ▸ positive, iou ▸ enough⟩
  · rintro ⟨⟨detection, track, hd, ht, sameClass, iou⟩, positive, enough⟩
    have inDet := (List.getElem?_eq_some_iff.mp hd).1
    have inTrack := (List.getElem?_eq_some_iff.mp ht).1
    simp only [List.getD_eq_getElem?_getD, List.getElem?_map, hd, ht, Option.map_some,
      Option.getD_some, ← iou]
    exact ⟨inDet, inTrack, trivial, decide_eq_true sameClass, enough, positive⟩

theorem stable_iff (found : List Association) : StableMatching m detections tracks threshold found ↔
    Greedy.Stable Association.detectionIndex Association.trackIndex Association.iou
      (pairs (problem m detections tracks threshold)) found := by
  constructor
  · intro h
    refine ⟨fun a ha => (mem_pairs_iff ..).mpr (h.admissible a ha), ?_, h.sorted, ?_⟩
    · exact (List.pairwise_map.mp h.detections_once).and (List.pairwise_map.mp h.tracks_once)
    · exact fun a ha => h.unblocked a ((mem_pairs_iff ..).mp ha)
  · intro h
    refine ⟨fun a ha => (mem_pairs_iff ..).mp (h.subset a ha), ?_, ?_, h.sorted, ?_⟩
    · exact List.pairwise_map.mpr (h.apart.imp fun apart => apart.1)
    · exact List.pairwise_map.mpr (h.apart.imp fun apart => apart.2)
    · exact fun a ha => h.unblocked a ((mem_pairs_iff ..).mpr ha)

theorem associate_stable :
    StableMatching m detections tracks threshold (associate m detections tracks threshold) := by
  rw [stable_iff, associate_eq]
  exact Greedy.greedy_stable _

variable {m detections tracks threshold}

theorem associate_unique (distinct : DistinctIous m detections tracks threshold)
    {found : List Association} (stable : StableMatching m detections tracks threshold found) :
    found = associate m detections tracks threshold := by
  rw [associate_eq]
  refine ((stable_iff ..).mp stable).unique fun a ha b hb => ?_
  exact distinct a b ((mem_pairs_iff ..).mp ha) ((mem_pairs_iff ..).mp hb)

/- Other orders. -/

/-- The list `l'` has, in place `i`, what `l` has in place `σ i`. -/
structure Permuted {α : Type} (σ : ℕ → ℕ) (l l' : List α) : Prop where
  length : l'.length = l.length
  places : Set.BijOn σ (Set.Iio l.length) (Set.Iio l.length)
  values : ∀ i < l.length, l'[i]? = l[σ i]?

def place (σ τ : ℕ → ℕ) (a : Association) : Association :=
  { a with detectionIndex := σ a.detectionIndex, trackIndex := τ a.trackIndex }

section Reordered

variable {σ τ : ℕ → ℕ} {detections' tracks' : List Classed}
  (dets : Permuted σ detections detections') (trks : Permuted τ tracks tracks')

include dets trks

theorem admissible_place (a : Association) : Admissible m detections tracks threshold a ↔
    ∃ b, Admissible m detections' tracks' threshold b ∧ place σ τ b = a := by
  constructor
  · rintro ⟨⟨detection, track, hd, ht, sameClass, iou⟩, positive, enough⟩
    obtain ⟨i, hi, det⟩ := dets.places.surjOn (List.getElem?_eq_some_iff.mp hd).1
    obtain ⟨j, hj, trk⟩ := trks.places.surjOn (List.getElem?_eq_some_iff.mp ht).1
    refine ⟨⟨i, j, a.iou⟩, ⟨⟨detection, track, ?_, ?_, sameClass, iou⟩, positive, enough⟩, ?_⟩
    · exact (dets.values i hi).trans (det ▸ hd)
    · exact (trks.values j hj).trans (trk ▸ ht)
    · simp only [place, det, trk]
  · rintro ⟨b, ⟨⟨detection, track, hd, ht, sameClass, iou⟩, positive, enough⟩, rfl⟩
    have inDet := dets.length ▸ (List.getElem?_eq_some_iff.mp hd).1
    have inTrack := trks.length ▸ (List.getElem?_eq_some_iff.mp ht).1
    refine ⟨⟨detection, track, ?_, ?_, sameClass, iou⟩, positive, enough⟩
    · exact (dets.values _ inDet).symm.trans hd
    · exact (trks.values _ inTrack).symm.trans ht

/-- The greedy association of permuted lists is a stable matching of the original ones. -/
theorem place_stable : StableMatching m detections tracks threshold
    ((associate m detections' tracks' threshold).map (place σ τ)) := by
  rw [stable_iff]
  refine ((stable_iff ..).mp (associate_stable m detections' tracks' threshold)).map (place σ τ)
    ?_ (fun _ _ => rfl) ?_
  · intro a
    rw [mem_pairs_iff, admissible_place dets trks]
    simp only [mem_pairs_iff]
  · intro a ha b hb
    obtain ⟨_, _, hd, ht, _⟩ := ((mem_pairs_iff ..).mp ha).boxes
    obtain ⟨_, _, hd', ht', _⟩ := ((mem_pairs_iff ..).mp hb).boxes
    have inDet := dets.length ▸ (List.getElem?_eq_some_iff.mp hd).1
    have inTrack := trks.length ▸ (List.getElem?_eq_some_iff.mp ht).1
    have inDet' := dets.length ▸ (List.getElem?_eq_some_iff.mp hd').1
    have inTrack' := trks.length ▸ (List.getElem?_eq_some_iff.mp ht').1
    exact ⟨dets.places.injOn.eq_iff inDet inDet', trks.places.injOn.eq_iff inTrack inTrack'⟩

end Reordered

/-- The loop ends, with a stable matching. Where no two admissible pairs overlap equally much there
is no other one, and permuted lists give the same pairs in the same order. -/
theorem greedyIouAssociate_stable (m : Arithmetic) (detections tracks : List Classed)
    (threshold : ℚ) :
    (∀ fuel, detections.length * tracks.length < fuel →
      rounds m detections tracks threshold fuel = associate m detections tracks threshold) ∧
    StableMatching m detections tracks threshold (associate m detections tracks threshold) ∧
    (DistinctIous m detections tracks threshold →
      (∀ found, StableMatching m detections tracks threshold found →
        found = associate m detections tracks threshold) ∧
      ∀ σ τ detections' tracks', Permuted σ detections detections' → Permuted τ tracks tracks' →
        (associate m detections' tracks' threshold).map (place σ τ) =
          associate m detections tracks threshold) := by
  refine ⟨rounds_eq m detections tracks threshold, associate_stable m detections tracks threshold,
    fun distinct => ⟨fun found stable => associate_unique distinct stable, ?_⟩⟩
  intro σ τ detections' tracks' dets trks
  exact associate_unique distinct (place_stable dets trks)

/- Two boxes that change places. -/

def pair : List Classed := [(⟨0, 0, 10, 10⟩, 1), (⟨40, 0, 10, 10⟩, 1)]

def near : List Classed := [(⟨1, 0, 10, 10⟩, 1), (⟨42, 0, 10, 10⟩, 1)]

def swapped : List Classed := [(⟨40, 0, 10, 10⟩, 1), (⟨0, 0, 10, 10⟩, 1)]

theorem pair_distinct : DistinctIous .exact pair near (3 / 10) := by
  have listed : ∀ a ∈ pairs (problem .exact pair near (3 / 10)),
      ∀ b ∈ pairs (problem .exact pair near (3 / 10)), a.iou = b.iou → a = b := by decide +kernel
  exact fun a b ha hb => listed a ((mem_pairs_iff ..).mpr ha) b ((mem_pairs_iff ..).mpr hb)

theorem swapped_permuted : Permuted (fun i => 1 - i) pair swapped := by
  refine ⟨rfl, ⟨?_, ?_, ?_⟩, ?_⟩
  · intro i hi
    simp only [pair, List.length_cons, List.length_nil, Set.mem_Iio] at hi ⊢
    omega
  · intro i hi j hj same
    simp only [pair, List.length_cons, List.length_nil, Set.mem_Iio] at hi hj same
    omega
  · intro i hi
    simp only [pair, List.length_cons, List.length_nil, Set.mem_Iio] at hi
    have back : 1 - (1 - i) = i := by omega
    have other : 1 - i < 2 := by omega
    exact ⟨1 - i, other, back⟩
  · decide +kernel

theorem pair_swapped :
    (associate .exact swapped near (3 / 10)).map (place (fun i => 1 - i) id) =
      associate .exact pair near (3 / 10) := by
  have near_itself : Permuted id near near := ⟨rfl, Set.bijOn_id _, fun _ _ => rfl⟩
  exact ((greedyIouAssociate_stable .exact pair near (3 / 10)).2.2 pair_distinct).2 _ _ _ _
    swapped_permuted near_itself

end VisionLab.IouMatching
