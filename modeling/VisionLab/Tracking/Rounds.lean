import Mathlib.Data.List.GetD
import Mathlib.Data.List.Nodup
import VisionLab.Lib.Positions
import VisionLab.Tracking.Lifecycle

/-! One association round in terms of the detections and tracks themselves. The program goes
through three layers of indices; `associate_spec` says that a round is the greedy matching of its
detections with the free tracks. -/
namespace VisionLab.ByteTrackTracker

variable {κ : Type} [KalmanBoxFilter κ]

abbrev Cell (κ : Type) := InternalTrack κ × Bool

def overlap (m : Arithmetic) (detection : Detection) (track : InternalTrack κ) : ℚ :=
  intersectionOverUnion m detection.box (KalmanBoxFilter.box track.kalman)

def freeCells (cells : List (Cell κ)) : List (Cell κ × ℕ) :=
  cells.zipIdx.filter (fun cell => !cell.1.2)

def link (m : Arithmetic) (config : TrackerConfig) (detection : Detection × ℕ)
    (cell : Cell κ × ℕ) : Option Association :=
  let iou := overlap m detection.1 cell.1.1
  if detection.1.classId = cell.1.1.classId ∧ config.matchIou ≤ iou ∧ 0 < iou then
    some ⟨detection.2, cell.2, iou⟩
  else none

def links (m : Arithmetic) (config : TrackerConfig) (detections : List (Detection × ℕ))
    (cells : List (Cell κ × ℕ)) : List Association :=
  detections.flatMap (fun detection => cells.filterMap (link m config detection))

def pairing (m : Arithmetic) (config : TrackerConfig) (detections : List Detection)
    (cells : List (Cell κ)) : List Association :=
  Greedy.greedy Association.detectionIndex Association.trackIndex Association.iou
    (links m config detections.zipIdx (freeCells cells))

def settle (config : TrackerConfig) (context : TrackUpdateContext) (detections : List Detection)
    (taken : Option Association) (cell : Cell κ) : Cell κ :=
  match taken with
  | none => cell
  | some association =>
    (applyDetection config context (detections.getD association.detectionIndex {}) cell.1, true)

def takenBy (found : List Association) (t : ℕ) : Option Association :=
  found.find? (fun association => association.trackIndex = t)

def play (m : Arithmetic) (config : TrackerConfig) (context : TrackUpdateContext)
    (detections : List Detection) (cells : List (Cell κ)) : List (Cell κ) :=
  cells.mapIdx (fun t => settle config context detections
    (takenBy (pairing m config detections cells) t))

def selected (detections : List Detection) (detIndices : List ℕ) : List Detection :=
  detIndices.map (fun i => detections.getD i {})

theorem detectionAt_selected (detections : List Detection) (detIndices : List ℕ) (i : ℕ)
    (bound : i < detIndices.length) :
    detectionAt detections detIndices i = (selected detections detIndices).getD i {} := by
  simp [detectionAt, selected, List.getD_eq_getElem?_getD, bound]

theorem unmatched_replicate (n : ℕ) : unmatched (List.replicate n false) n = List.range n := by
  apply List.filter_eq_self.mpr
  intro i hi
  simp [List.getD_eq_getElem?_getD, List.mem_range.mp hi]

theorem unmatched_selected (detections : List Detection) (detIndices : List ℕ) :
    (List.range detIndices.length).map (detectionAt detections detIndices) =
      selected detections detIndices := by
  apply Positions.map_range
  intro x hx
  rw [detectionAt, Positions.getD_of_mem_zipIdx hx]

omit [KalmanBoxFilter κ] in
theorem unmatched_freeCells (tracks : List (InternalTrack κ)) (used : List Bool)
    (flags : used.length = tracks.length) :
    unmatched used tracks.length = (freeCells (tracks.zip used)).map Prod.snd := by
  have length : (tracks.zip used).length = tracks.length := by rw [List.length_zip]; omega
  rw [unmatched, ← length]
  apply Positions.filter_range
  rintro ⟨⟨track, flag⟩, i⟩ hx
  have here := List.getElem?_zip_eq_some.mp (List.mk_mem_zipIdx_iff_getElem?.mp hx)
  rw [List.getD_eq_getElem?_getD, here.2]
  rfl

omit [KalmanBoxFilter κ] in
theorem unmatched_tracks (tracks : List (InternalTrack κ)) (used : List Bool) :
    ((freeCells (tracks.zip used)).map Prod.snd).filterMap (fun t => tracks[t]?) =
      (freeCells (tracks.zip used)).map (fun cell => cell.1.1) := by
  rw [List.filterMap_map, ← List.filterMap_eq_map]
  apply List.filterMap_congr
  rintro ⟨⟨track, flag⟩, i⟩ hx
  have member := (List.mem_filter.mp hx).1
  exact (List.getElem?_zip_eq_some.mp (List.mk_mem_zipIdx_iff_getElem?.mp member)).1

/- The problem the program hands to the greedy association, and its pairs. -/

def roundProblem (m : Arithmetic) (config : TrackerConfig) (detections : List Detection)
    (cells : List (Cell κ × ℕ)) : IouMatching.Problem where
  arithmetic := m
  detectionBoxes := detections.map Detection.box
  detectionClassIds := detections.map Detection.classId
  predictedTrackBoxes := cells.map (fun cell => KalmanBoxFilter.box cell.1.1.kalman)
  trackClassIds := cells.map (fun cell => cell.1.1.classId)
  iouThreshold := config.matchIou

theorem roundProblem_loops (m : Arithmetic) (config : TrackerConfig) (detections : List Detection)
    (cells : List (Cell κ × ℕ)) :
    greedyIouAssociate m (detections.map Detection.box) (detections.map Detection.classId)
      ((cells.map (fun cell => cell.1.1)).map (fun track => KalmanBoxFilter.box track.kalman))
      ((cells.map (fun cell => cell.1.1)).map InternalTrack.classId) config.matchIou =
      IouMatching.matching (roundProblem m config detections cells) := by
  rw [List.map_map, List.map_map]
  exact greedyIouAssociate_eq (roundProblem m config detections cells) (by simp [roundProblem])
    (by simp [roundProblem])

def located (cells : List (Cell κ × ℕ)) (association : Association) : Association :=
  { association with trackIndex := (cells.map Prod.snd).getD association.trackIndex 0 }

theorem located_pairs (m : Arithmetic) (config : TrackerConfig) (detections : List Detection)
    (cells : List (Cell κ × ℕ)) :
    (IouMatching.pairs (roundProblem m config detections cells)).map (located cells) =
      links m config detections.zipIdx cells := by
  have dets : (roundProblem m config detections cells).detectionBoxes.length =
      detections.zipIdx.length := by simp [roundProblem]
  have tracks : (roundProblem m config detections cells).predictedTrackBoxes.length =
      cells.length := by simp [roundProblem]
  rw [IouMatching.pairs, links, List.map_flatMap, dets, tracks]
  apply Positions.flatMap_range
  rintro ⟨⟨detection, d⟩, i⟩ hd
  obtain ⟨rfl, found⟩ : d = i ∧ detections[i]? = some detection := by
    have here := List.mk_mem_zipIdx_iff_getElem?.mp hd
    rw [List.getElem?_zipIdx] at here
    obtain ⟨other, present, same⟩ := Option.map_eq_some_iff.mp here
    cases same
    exact ⟨Nat.zero_add _, present⟩
  rw [List.map_filterMap]
  apply Positions.filterMap_range
  rintro ⟨⟨cell, t⟩, j⟩ ht
  have here := List.mk_mem_zipIdx_iff_getElem?.mp ht
  have iou : (roundProblem m config detections cells).iou d j =
      overlap m detection cell.1 := by
    simp [IouMatching.Problem.iou, roundProblem, overlap, List.getD_eq_getElem?_getD, found, here]
  have same : (roundProblem m config detections cells).sameClass d j =
      decide (detection.classId = cell.1.classId) := by
    simp [IouMatching.Problem.sameClass, roundProblem, List.getD_eq_getElem?_getD, found, here]
  have position : (cells.map Prod.snd).getD j 0 = t := by
    simp [List.getD_eq_getElem?_getD, here]
  have threshold : (roundProblem m config detections cells).iouThreshold = config.matchIou := rfl
  simp only [IouMatching.admissible, link, iou, same, threshold, decide_eq_true_eq]
  by_cases fits : detection.classId = cell.1.classId ∧
      config.matchIou ≤ overlap m detection cell.1 ∧ 0 < overlap m detection cell.1
  · rw [if_pos fits, if_pos fits, Option.map_some, located, position]
  · rw [if_neg fits, if_neg fits, Option.map_none]

omit [KalmanBoxFilter κ] in
theorem freeCells_positions (cells : List (Cell κ)) :
    ((freeCells cells).map Prod.snd).Nodup := by
  have all : (cells.zipIdx.map Prod.snd).Nodup := by
    rw [← Positions.range_eq]
    exact List.nodup_range
  exact all.sublist (List.filter_sublist.map Prod.snd)

theorem located_matching (m : Arithmetic) (config : TrackerConfig) (detections : List Detection)
    (cells : List (Cell κ)) :
    (IouMatching.matching (roundProblem m config detections (freeCells cells))).map
      (located (freeCells cells)) = pairing m config detections cells := by
  rw [pairing, ← located_pairs, IouMatching.matching]
  symm
  apply Greedy.greedy_map
  · exact fun _ _ => rfl
  · intro a ha b hb
    refine ⟨Iff.rfl, ?_⟩
    have inA := ((IouMatching.mem_pairs _ a).mp ha).2.1
    have inB := ((IouMatching.mem_pairs _ b).mp hb).2.1
    have length : (roundProblem m config detections (freeCells cells)).predictedTrackBoxes.length =
        ((freeCells cells).map Prod.snd).length := by simp [roundProblem]
    rw [length] at inA inB
    simp only [located, List.getD_eq_getElem _ _ inA, List.getD_eq_getElem _ _ inB]
    exact (freeCells_positions cells).getElem_inj_iff

theorem mem_links (m : Arithmetic) (config : TrackerConfig) (detections : List Detection)
    (cells : List (Cell κ)) (a : Association) :
    a ∈ links m config detections.zipIdx (freeCells cells) ↔ ∃ detection track,
      detections[a.detectionIndex]? = some detection ∧
      cells[a.trackIndex]? = some (track, false) ∧ detection.classId = track.classId ∧
      config.matchIou ≤ a.iou ∧ 0 < a.iou ∧
      a.iou = overlap m detection track := by
  simp only [links, List.mem_flatMap, List.mem_filterMap, freeCells, List.mem_filter]
  constructor
  · rintro ⟨⟨detection, d⟩, hd, ⟨⟨track, flag⟩, t⟩, ⟨ht, free⟩, h⟩
    rw [List.mk_mem_zipIdx_iff_getElem?] at hd ht
    rw [link] at h
    split at h
    · rename_i fits
      cases Option.some.inj h
      cases flag with
      | true => cases free
      | false => exact ⟨detection, track, hd, ht, fits.1, fits.2.1, fits.2.2, rfl⟩
    · cases h
  · rintro ⟨detection, track, hd, ht, same, enough, positive, iou⟩
    refine ⟨(detection, a.detectionIndex), List.mk_mem_zipIdx_iff_getElem?.mpr hd,
      ((track, false), a.trackIndex), ⟨List.mk_mem_zipIdx_iff_getElem?.mpr ht, rfl⟩, ?_⟩
    rw [link, ← iou, if_pos ⟨same, enough, positive⟩]

theorem mem_pairing {m : Arithmetic} {config : TrackerConfig} {detections : List Detection}
    {cells : List (Cell κ)} {a : Association} (h : a ∈ pairing m config detections cells) :
    a ∈ links m config detections.zipIdx (freeCells cells) := Greedy.greedy_subset _ _ _ _ a h

theorem pairing_detection_lt {m : Arithmetic} {config : TrackerConfig}
    {detections : List Detection} {cells : List (Cell κ)} {a : Association}
    (h : a ∈ pairing m config detections cells) : a.detectionIndex < detections.length := by
  obtain ⟨detection, _, present, _⟩ := (mem_links m config detections cells a).mp (mem_pairing h)
  exact (List.getElem?_eq_some_iff.mp present).1

/-- A round with no detection used yet is a fold over its greedy matching. -/
theorem associate_eq (m : Arithmetic) (config : TrackerConfig) (detections : List Detection)
    (context : TrackUpdateContext) (detIndices : List ℕ) (round : Round κ)
    (flags : round.trackUsed.length = round.tracks.length)
    (unused : round.detUsed = List.replicate detIndices.length false) :
    associate m config detections context detIndices round =
      (pairing m config (selected detections detIndices)
        (round.tracks.zip round.trackUsed)).foldl
        (fun round association => applyMatch config detections context detIndices round
          association.detectionIndex association.trackIndex) round := by
  unfold associate
  simp only [unused, unmatched_replicate, unmatched_selected,
    unmatched_freeCells round.tracks round.trackUsed flags, unmatched_tracks, roundProblem_loops]
  rw [← located_matching, List.foldl_map]
  apply List.foldl_ext
  intro round' association member
  have bound : association.detectionIndex < detIndices.length := by
    have taken := List.mem_map_of_mem
      (f := located (freeCells (round.tracks.zip round.trackUsed))) member
    rw [located_matching] at taken
    have := pairing_detection_lt taken
    rwa [selected, List.length_map] at this
  rw [List.getD_eq_getElem _ _ (by rwa [List.length_range]), List.getElem_range]
  rfl

/- The effect of the fold on the cells and on the used detections. -/

omit [KalmanBoxFilter κ] in
theorem zip_modify_set (change : InternalTrack κ → InternalTrack κ)
    (tracks : List (InternalTrack κ)) (used : List Bool) (t : ℕ) :
    (tracks.modify t change).zip (used.set t true) =
      (tracks.zip used).modify t (fun cell => (change cell.1, true)) := by
  induction tracks generalizing used t with
  | nil => simp
  | cons track tracks ih =>
    cases used with
    | nil => simp
    | cons flag used =>
      cases t with
      | zero => rfl
      | succ t => simp only [List.modify_succ_cons, List.set_cons_succ, List.zip_cons_cons, ih]

theorem applyMatches_cells (config : TrackerConfig) (detections : List Detection)
    (context : TrackUpdateContext) (detIndices : List ℕ) (found : List Association)
    (bounds : ∀ a ∈ found, a.detectionIndex < detIndices.length)
    (apart : found.Pairwise (fun a b => a.trackIndex ≠ b.trackIndex)) (round : Round κ) :
    let after := found.foldl (fun round association => applyMatch config detections context
      detIndices round association.detectionIndex association.trackIndex) round
    after.tracks.zip after.trackUsed = (round.tracks.zip round.trackUsed).mapIdx
      (fun t => settle config context (selected detections detIndices) (takenBy found t)) := by
  induction found generalizing round with
  | nil =>
    apply List.ext_getElem?
    intro t
    rw [List.getElem?_mapIdx]
    exact Option.map_id'.symm
  | cons association found ih =>
    obtain ⟨others, rest⟩ := List.pairwise_cons.mp apart
    have step := ih (fun a ha => bounds a (List.mem_cons_of_mem _ ha)) rest
      (applyMatch config detections context detIndices round association.detectionIndex
        association.trackIndex)
    rw [List.foldl_cons]
    refine step.trans ?_
    have own := bounds association List.mem_cons_self
    simp only [applyMatch, zip_modify_set, detectionAt_selected _ _ _ own]
    apply List.ext_getElem?
    intro t
    rw [List.getElem?_mapIdx, List.getElem?_mapIdx, List.getElem?_modify]
    by_cases same : association.trackIndex = t
    · have absent : takenBy found t = none := by
        apply List.find?_eq_none.mpr
        intro other ho
        simpa [← same] using (others other ho).symm
      have taken : takenBy (association :: found) t = some association := by
        simp [takenBy, same]
      rw [absent, taken]
      simp only [if_pos same]
      cases (round.tracks.zip round.trackUsed)[t]? <;> rfl
    · have skip : takenBy (association :: found) t = takenBy found t := by
        simp [takenBy, same]
      rw [skip]
      simp only [if_neg same]
      cases (round.tracks.zip round.trackUsed)[t]? <;> rfl

theorem applyMatches_applied (config : TrackerConfig) (detections : List Detection)
    (context : TrackUpdateContext) (detIndices : List ℕ) (found : List Association)
    (round : Round κ) :
    (found.foldl (fun round association => applyMatch config detections context detIndices round
      association.detectionIndex association.trackIndex) round).applied =
      round.applied ++ found.map (fun a => (detIndices.getD a.detectionIndex 0, a.trackIndex)) := by
  induction found generalizing round with
  | nil => exact (List.append_nil _).symm
  | cons association found ih =>
    rw [List.foldl_cons, ih, List.map_cons, applyMatch, List.append_assoc]
    rfl

theorem applyMatches_detUsed (config : TrackerConfig) (detections : List Detection)
    (context : TrackUpdateContext) (detIndices : List ℕ) (found : List Association)
    (round : Round κ) (bounds : ∀ a ∈ found, a.detectionIndex < round.detUsed.length) (i : ℕ) :
    (found.foldl (fun round association => applyMatch config detections context detIndices round
      association.detectionIndex association.trackIndex) round).detUsed.getD i false =
      (round.detUsed.getD i false || found.any (fun a => a.detectionIndex = i)) := by
  induction found generalizing round with
  | nil => exact (Bool.or_false _).symm
  | cons association found ih =>
    have own := bounds association List.mem_cons_self
    rw [List.foldl_cons, ih]
    · simp only [applyMatch, IouMatching.getD_set_true own, List.any_cons]
      cases decide (association.detectionIndex = i) <;> simp
    · intro a ha
      rw [applyMatch, List.length_set]
      exact bounds a (List.mem_cons_of_mem _ ha)

def untaken (found : List Association) (n : ℕ) : List ℕ :=
  (List.range n).filter (fun i => !found.any (fun a => a.detectionIndex = i))

theorem associate_spec (m : Arithmetic) (config : TrackerConfig) (detections : List Detection)
    (context : TrackUpdateContext) (detIndices : List ℕ) (round : Round κ)
    (flags : round.trackUsed.length = round.tracks.length)
    (unused : round.detUsed = List.replicate detIndices.length false) :
    let dets := selected detections detIndices
    let cells := round.tracks.zip round.trackUsed
    let after := associate m config detections context detIndices round
    after.tracks.zip after.trackUsed = play m config context dets cells ∧
    after.applied = round.applied ++ (pairing m config dets cells).map
      (fun a => (detIndices.getD a.detectionIndex 0, a.trackIndex)) ∧
    unmatched after.detUsed detIndices.length =
      untaken (pairing m config dets cells) detIndices.length := by
  have length : (selected detections detIndices).length = detIndices.length := List.length_map _
  have bounds : ∀ a ∈ pairing m config (selected detections detIndices)
      (round.tracks.zip round.trackUsed), a.detectionIndex < detIndices.length :=
    fun a ha => length ▸ pairing_detection_lt ha
  have apart := (Greedy.greedy_pairwise Association.detectionIndex Association.trackIndex
    Association.iou
    (links m config (selected detections detIndices).zipIdx
      (freeCells (round.tracks.zip round.trackUsed)))).imp (fun h => h.2.1)
  dsimp only
  rw [associate_eq m config detections context detIndices round flags unused]
  refine ⟨applyMatches_cells config detections context detIndices _ bounds apart round,
    applyMatches_applied config detections context detIndices _ round, ?_⟩
  apply List.filter_congr
  intro i hi
  rw [applyMatches_detUsed, unused]
  · simp [List.getD_eq_getElem?_getD, List.mem_range.mp hi]
  · rw [unused, List.length_replicate]
    exact bounds

/- The whole update. -/

theorem selected_filter (detections : List Detection) (p : Detection → Bool) :
    selected detections ((List.range detections.length).filter
      (fun i => p (detections.getD i {}))) = detections.filter p := by
  rw [Positions.filter_range detections _ (fun x => p x.1)
    (fun x hx => by rw [Positions.getD_of_mem_zipIdx hx]), selected, List.map_map]
  conv_rhs => rw [← List.zipIdx_map_fst 0 detections, List.filter_map]
  apply List.map_congr_left
  intro x hx
  exact Positions.getD_of_mem_zipIdx (List.mem_filter.mp hx).1 {}

theorem selected_highIndices (config : TrackerConfig) (detections : List Detection) :
    selected detections (highIndices config detections) = detections.filter (isHigh config) :=
  selected_filter detections _

theorem selected_lowIndices (config : TrackerConfig) (detections : List Detection) :
    selected detections (lowIndices config detections) = detections.filter (isLow config) :=
  selected_filter detections _

/- The loop over the tracks treats each track by itself. -/

/-- What becomes of a track after the association. -/
def fate (config : TrackerConfig) (cell : Cell κ) : Option (InternalTrack κ) :=
  if cell.2 then some cell.1
  else if cell.1.state = .tentative then none
  else if config.maxLostFrames < cell.1.timeSinceUpdate + 1 then none
  else some { cell.1 with state := .lost, timeSinceUpdate := cell.1.timeSinceUpdate + 1 }

section Fate

omit [KalmanBoxFilter κ]

variable (config : TrackerConfig) {track : InternalTrack κ}

theorem fate_used : fate config (track, true) = some track := rfl

theorem fate_tentative (tentative : track.state = .tentative) :
    fate config (track, false) = none := by
  rw [fate, if_neg Bool.false_ne_true, if_pos tentative]

theorem fate_expired (visible : track.state ≠ .tentative)
    (old : config.maxLostFrames < track.timeSinceUpdate + 1) :
    fate config (track, false) = none := by
  rw [fate, if_neg Bool.false_ne_true, if_neg visible, if_pos old]

theorem fate_lost (visible : track.state ≠ .tentative)
    (young : ¬ config.maxLostFrames < track.timeSinceUpdate + 1) :
    fate config (track, false) =
      some { track with state := .lost, timeSinceUpdate := track.timeSinceUpdate + 1 } := by
  rw [fate, if_neg Bool.false_ne_true, if_neg visible, if_neg young]

theorem survive_eq (cells : List (Cell κ)) (stats : TrackerStats) :
    (survive config cells stats).1 = cells.filterMap (fate config) := by
  induction cells generalizing stats with
  | nil => rfl
  | cons cell cells ih =>
    obtain ⟨track, used⟩ := cell
    cases used with
    | true =>
      rw [List.filterMap_cons_some (fate_used config)]
      exact congrArg _ (ih stats)
    | false =>
      unfold survive
      dsimp only
      by_cases tentative : track.state = .tentative
      · rw [if_pos tentative, List.filterMap_cons_none (fate_tentative config tentative)]
        exact ih _
      · by_cases old : config.maxLostFrames < track.timeSinceUpdate + 1
        · rw [if_neg tentative, if_pos old,
            List.filterMap_cons_none (fate_expired config tentative old)]
          exact ih _
        · rw [if_neg tentative, if_neg old,
            List.filterMap_cons_some (fate_lost config tentative old)]
          exact congrArg _ (ih _)

end Fate

variable (m : Arithmetic) (s : ByteTrackTracker κ) (detections : List Detection)
  (context : TrackUpdateContext)

def startCells : List (Cell κ) := (s.predicted context).map (fun track => (track, false))

def firstCells : List (Cell κ) :=
  play m s.config context (detections.filter (isHigh s.config)) (s.startCells context)

def secondCells : List (Cell κ) :=
  play m s.config context (detections.filter (isLow s.config)) (s.firstCells m detections context)

omit [KalmanBoxFilter κ] in
theorem zip_unused (tracks : List (InternalTrack κ)) :
    tracks.zip (List.replicate tracks.length false) = tracks.map (fun track => (track, false)) := by
  induction tracks with
  | nil => rfl
  | cons track tracks ih =>
    rw [List.length_cons, List.replicate_succ, List.zip_cons_cons, ih, List.map_cons]

theorem firstRound_spec :
    let after := s.firstRound m detections context
    after.tracks.zip after.trackUsed = s.firstCells m detections context ∧
    after.applied =
      (pairing m s.config (detections.filter (isHigh s.config)) (s.startCells context)).map
        (fun a => ((highIndices s.config detections).getD a.detectionIndex 0, a.trackIndex)) ∧
    unmatched after.detUsed (highIndices s.config detections).length =
      untaken (pairing m s.config (detections.filter (isHigh s.config)) (s.startCells context))
        (highIndices s.config detections).length := by
  have cells : (s.predicted context).zip (List.replicate s.tracks.length false) =
      s.startCells context := by
    have length : s.tracks.length = (s.predicted context).length := (List.length_map _).symm
    rw [length]
    exact zip_unused _
  have spec := associate_spec m s.config detections context (highIndices s.config detections)
    { tracks := s.predicted context
      trackUsed := List.replicate s.tracks.length false
      detUsed := List.replicate (highIndices s.config detections).length false }
    (by rw [List.length_replicate, predicted, List.length_map]) rfl
  dsimp only at spec
  rw [selected_highIndices, cells] at spec
  exact spec

theorem secondRound_spec :
    let after := s.secondRound m detections context
    after.tracks.zip after.trackUsed = s.secondCells m detections context ∧
    after.applied = (s.firstRound m detections context).applied ++
      (pairing m s.config (detections.filter (isLow s.config))
        (s.firstCells m detections context)).map
        (fun a => ((lowIndices s.config detections).getD a.detectionIndex 0, a.trackIndex)) := by
  have first := associate_follows m s.config detections context (highIndices s.config detections)
    { tracks := s.predicted context
      trackUsed := List.replicate s.tracks.length false
      detUsed := List.replicate (highIndices s.config detections).length false }
  have flags : (s.firstRound m detections context).trackUsed.length =
      (s.firstRound m detections context).tracks.length := by
    refine first.flags.trans (Eq.trans ?_ first.length.symm)
    rw [List.length_replicate, predicted, List.length_map]
  have spec := associate_spec m s.config detections context (lowIndices s.config detections)
    { s.firstRound m detections context with
      detUsed := List.replicate (lowIndices s.config detections).length false } flags rfl
  have cells := (firstRound_spec m s detections context).1
  dsimp only at spec cells
  rw [selected_lowIndices, cells] at spec
  exact ⟨spec.1, spec.2.1⟩

theorem kept_eq : s.kept m detections context =
    { s with
      tracks := (survive s.config (s.secondCells m detections context) s.stats).1
      stats := (survive s.config (s.secondCells m detections context) s.stats).2
      lastTimestamp := some context.timestamp } := by
  have cells := (secondRound_spec m s detections context).1
  simp only [kept, cells]

theorem unmatchedHigh_eq : s.unmatchedHigh m detections context =
    (untaken (pairing m s.config (detections.filter (isHigh s.config)) (s.startCells context))
      (detections.filter (isHigh s.config)).length).map
      (fun i => (detections.filter (isHigh s.config)).getD i {}) := by
  have spec := (firstRound_spec m s detections context).2.2
  have length : (detections.filter (isHigh s.config)).length =
      (highIndices s.config detections).length := by
    rw [← selected_highIndices, selected, List.length_map]
  rw [unmatchedHigh, spec, length]
  apply List.map_congr_left
  intro i hi
  have bound := List.mem_range.mp (List.mem_filter.mp hi).1
  rw [detectionAt_selected _ _ i bound, selected_highIndices]

end VisionLab.ByteTrackTracker
