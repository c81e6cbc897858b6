import VisionLab.Tracking.Rounds

/-! Classes do not interfere. The run on the detections of one class is the whole run seen through
that class: the tracks correspond in order, up to a renaming of the identifiers. -/
namespace VisionLab.ByteTrackTracker

variable {κ : Type}

def ofClass (c : ℤ) (track : InternalTrack κ) : Bool := decide (track.classId = c)

def detectionOfClass (c : ℤ) (detection : Detection) : Bool := decide (detection.classId = c)

def rename (f : ℕ → ℕ) (track : InternalTrack κ) : InternalTrack κ :=
  { track with id := f track.id }

def renameCell (f : ℕ → ℕ) (cell : Cell κ) : Cell κ := (rename f cell.1, cell.2)

/- One round. -/

variable [KalmanBoxFilter κ]

theorem settle_rename (config : TrackerConfig) (context : TrackUpdateContext)
    (detections : List Detection) (taken : Option Association) (f : ℕ → ℕ) (cell : Cell κ) :
    settle config context detections taken (renameCell f cell) =
      renameCell f (settle config context detections taken cell) := by
  cases taken <;> rfl

theorem settle_ofClass (config : TrackerConfig) (context : TrackUpdateContext)
    (detections : List Detection) (taken : Option Association) (c : ℤ) (cell : Cell κ) :
    ofClass c (settle config context detections taken cell).1 = ofClass c cell.1 := by
  cases taken <;> rfl

/-- The detections and cells of one class, at the positions `σ` and `ρ` give them among all. -/
structure Embeds (c : ℤ) (f : ℕ → ℕ) (detections own : List Detection) (cells part : List (Cell κ))
    (σ ρ : ℕ → ℕ) : Prop where
  detections_mono : StrictMono σ
  cells_mono : StrictMono ρ
  detections_eq : own.zipIdx.map (Prod.map id σ) =
    detections.zipIdx.filter (fun x => detectionOfClass c x.1)
  cells_eq : part.zipIdx.map (Prod.map (renameCell f) ρ) =
    cells.zipIdx.filter (fun x => ofClass c x.1.1)

omit [KalmanBoxFilter κ] in
theorem exists_embeds (c : ℤ) (f : ℕ → ℕ) (detections : List Detection) (cells part : List (Cell κ))
    (h : part.map (renameCell f) = cells.filter (fun cell => ofClass c cell.1)) :
    ∃ σ ρ, Embeds c f detections (detections.filter (detectionOfClass c)) cells part σ ρ := by
  obtain ⟨σ, hσ, dets⟩ := Positions.exists_renaming id (detectionOfClass c) detections
    (detections.filter (detectionOfClass c)) (List.map_id _)
  obtain ⟨ρ, hρ, tracks⟩ := Positions.exists_renaming (renameCell f)
    (fun cell : Cell κ => ofClass c cell.1) cells part h
  exact ⟨σ, ρ, hσ, hρ, dets, tracks⟩

section Round

variable {c : ℤ} {f : ℕ → ℕ} {detections own : List Detection} {cells part : List (Cell κ)}
  {σ ρ : ℕ → ℕ} (m : Arithmetic) (config : TrackerConfig)

/-- The pair of the smaller round, at its place among all pairs. -/
def replace (σ ρ : ℕ → ℕ) (a : Association) : Association :=
  { a with detectionIndex := σ a.detectionIndex, trackIndex := ρ a.trackIndex }

def pairOfClass (c : ℤ) (detections : List Detection) (a : Association) : Bool :=
  detectionOfClass c (detections.getD a.detectionIndex {})

omit [KalmanBoxFilter κ] in
theorem Embeds.freeCells (h : Embeds c f detections own cells part σ ρ) :
    (freeCells cells).filter (fun x => ofClass c x.1.1) =
      (freeCells part).map (Prod.map (renameCell f) ρ) := by
  rw [ByteTrackTracker.freeCells, ByteTrackTracker.freeCells, List.filter_filter]
  calc cells.zipIdx.filter (fun x => ofClass c x.1.1 && !x.1.2)
      = (cells.zipIdx.filter (fun x => ofClass c x.1.1)).filter (fun x => !x.1.2) := by
        rw [List.filter_filter]
        exact List.filter_congr (fun x _ => Bool.and_comm _ _)
    _ = (part.zipIdx.map (Prod.map (renameCell f) ρ)).filter (fun x => !x.1.2) := by
        rw [h.cells_eq]
    _ = (part.zipIdx.filter (fun x => !x.1.2)).map (Prod.map (renameCell f) ρ) :=
        List.filter_map

theorem link_replace (detection : Detection × ℕ) (cell : Cell κ × ℕ) :
    link m config (Prod.map id σ detection) (Prod.map (renameCell f) ρ cell) =
      (link m config detection cell).map (replace σ ρ) := by
  have overlapping : overlap m detection.1 (rename f cell.1.1) = overlap m detection.1 cell.1.1 :=
    rfl
  simp only [link, Prod.map, id, renameCell, overlapping]
  by_cases fits : detection.1.classId = cell.1.1.classId ∧
      config.matchIou ≤ overlap m detection.1 cell.1.1 ∧ 0 < overlap m detection.1 cell.1.1
  · rw [if_pos fits]
    exact if_pos fits
  · rw [if_neg fits]
    exact if_neg fits

/- A detection of the class pairs with tracks of the class only. -/
theorem link_ofClass {detection : Detection × ℕ} (own : detectionOfClass c detection.1 = true)
    (cells : List (Cell κ × ℕ)) : cells.filterMap (link m config detection) =
      (cells.filter (fun x => ofClass c x.1.1)).filterMap (link m config detection) := by
  rw [List.filterMap_filter]
  apply List.filterMap_congr
  intro x _
  cases same : ofClass c x.1.1 with
  | true => rfl
  | false =>
    rw [ofClass, decide_eq_false_iff_not] at same
    rw [detectionOfClass, decide_eq_true_eq] at own
    exact if_neg (fun fits => same (fits.1.symm.trans own))

theorem links_filter (h : Embeds c f detections own cells part σ ρ) :
    (links m config detections.zipIdx (freeCells cells)).filter (pairOfClass c detections) =
      (links m config own.zipIdx (freeCells part)).map (replace σ ρ) := by
  have kept : ∀ x ∈ detections.zipIdx, ((freeCells cells).filterMap (link m config x)).filter
      (pairOfClass c detections) = if detectionOfClass c x.1 then
        ((freeCells part).map (Prod.map (renameCell f) ρ)).filterMap (link m config x) else [] := by
    rintro ⟨detection, d⟩ hx
    have all : ∀ a ∈ (freeCells cells).filterMap (link m config (detection, d)),
        pairOfClass c detections a = detectionOfClass c detection := by
      intro a ha
      obtain ⟨cell, _, linked⟩ := List.mem_filterMap.mp ha
      rw [link] at linked
      split at linked
      · cases Option.some.inj linked
        rw [pairOfClass, Positions.getD_of_mem_zipIdx hx]
      · cases linked
    cases same : detectionOfClass c detection with
    | true =>
      rw [List.filter_eq_self.mpr (fun a ha => (all a ha).trans same),
        link_ofClass m config same, h.freeCells]
      exact (if_pos rfl).symm
    | false =>
      rw [List.filter_eq_nil_iff.mpr (fun a ha => by rw [all a ha, same]; exact Bool.false_ne_true)]
      exact (if_neg Bool.false_ne_true).symm
  rw [links, List.filter_flatMap, List.flatMap_congr kept]
  refine (Positions.flatMap_filter (fun x : Detection × ℕ => detectionOfClass c x.1) _ _).symm.trans
    ?_
  rw [← h.detections_eq, List.flatMap_map, links, List.map_flatMap]
  apply List.flatMap_congr
  intro x _
  rw [List.filterMap_map, List.map_filterMap]
  exact List.filterMap_congr (fun cell _ => link_replace m config x cell)

/-- The matching of the class is the whole matching seen through the class. -/
theorem pairing_filter (h : Embeds c f detections own cells part σ ρ) :
    (pairing m config detections cells).filter (pairOfClass c detections) =
      (pairing m config own part).map (replace σ ρ) := by
  rw [pairing, Greedy.greedy_filter, links_filter m config h, pairing]
  · apply Greedy.greedy_map
    · exact fun _ _ => rfl
    · exact fun a _ b _ => ⟨h.detections_mono.injective.eq_iff, h.cells_mono.injective.eq_iff⟩
  · -- two pairs that clash have a detection or a track in common, and so the class
    intro a ha b hb clash
    obtain ⟨da, ta, hda, hta, classA, _⟩ := (mem_links m config detections cells a).mp ha
    obtain ⟨db, tb, hdb, htb, classB, _⟩ := (mem_links m config detections cells b).mp hb
    have same : da.classId = db.classId := by
      rw [Greedy.clash, Bool.or_eq_true, decide_eq_true_eq, decide_eq_true_eq] at clash
      rcases clash with shared | shared
      · rw [shared, hdb] at hda
        rw [Option.some.inj hda]
      · rw [shared, htb] at hta
        cases Option.some.inj hta
        exact classA.trans classB.symm
    simp only [pairOfClass, detectionOfClass, List.getD_eq_getElem?_getD, hda, hdb,
      Option.getD_some, same]

omit [KalmanBoxFilter κ] in
theorem embeds_getD (h : Embeds c f detections own cells part σ ρ) {i : ℕ}
    (bound : i < own.length) : detections.getD (σ i) {} = own.getD i {} ∧
      detectionOfClass c (detections.getD (σ i) {}) = true := by
  have here : (own[i], i) ∈ own.zipIdx := List.mk_mem_zipIdx_iff_getElem?.mpr
    (List.getElem?_eq_getElem bound)
  have there := List.mem_map_of_mem (f := Prod.map id σ) here
  rw [h.detections_eq] at there
  obtain ⟨member, same⟩ := List.mem_filter.mp there
  rw [Positions.getD_of_mem_zipIdx member, Positions.getD_of_mem_zipIdx here]
  exact ⟨rfl, same⟩

theorem takenBy_filter {found : List Association} {p : Association → Bool} {t : ℕ}
    (only : ∀ a ∈ found, a.trackIndex = t → p a = true) :
    takenBy (found.filter p) t = takenBy found t := by
  induction found with
  | nil => rfl
  | cons a found ih =>
    have rest := ih (fun b hb => only b (List.mem_cons_of_mem a hb))
    unfold takenBy at rest ⊢
    by_cases here : a.trackIndex = t
    · rw [List.filter_cons_of_pos (only a List.mem_cons_self here),
        List.find?_cons_of_pos (by simpa using here), List.find?_cons_of_pos (by simpa using here)]
    · rw [List.find?_cons_of_neg (by simpa using here), ← rest]
      cases keep : p a with
      | true =>
        rw [List.filter_cons_of_pos keep, List.find?_cons_of_neg (by simpa using here)]
      | false => rw [List.filter_cons_of_neg (by simp [keep])]

theorem takenBy_replace (h : Embeds c f detections own cells part σ ρ) {cell : Cell κ} {k : ℕ}
    (member : (cell, k) ∈ part.zipIdx) : takenBy (pairing m config detections cells) (ρ k) =
      (takenBy (pairing m config own part) k).map (replace σ ρ) := by
  have there := List.mem_map_of_mem (f := Prod.map (renameCell f) ρ) member
  rw [h.cells_eq] at there
  obtain ⟨present, same⟩ := List.mem_filter.mp there
  have only : ∀ a ∈ pairing m config detections cells, a.trackIndex = ρ k →
      pairOfClass c detections a = true := by
    intro a ha here
    obtain ⟨detection, track, hd, ht, classes, _⟩ := (mem_links m config detections cells a).mp
      (mem_pairing ha)
    rw [here, List.mk_mem_zipIdx_iff_getElem?.mp present] at ht
    rw [pairOfClass, List.getD_eq_getElem?_getD, hd, Option.getD_some, detectionOfClass, classes]
    change ofClass c (renameCell f cell).1 = true at same
    rw [Option.some.inj ht] at same
    exact same
  rw [← takenBy_filter only, pairing_filter m config h, takenBy, List.find?_map, takenBy]
  congr 2
  funext a
  exact decide_eq_decide.mpr h.cells_mono.injective.eq_iff

theorem play_filter (context : TrackUpdateContext)
    (h : Embeds c f detections own cells part σ ρ) :
    (play m config context own part).map (renameCell f) =
      (play m config context detections cells).filter (fun cell => ofClass c cell.1) := by
  rw [play, play, List.mapIdx_eq_zipIdx_map, List.mapIdx_eq_zipIdx_map, List.filter_map]
  have classes : ∀ x ∈ cells.zipIdx,
      ((fun cell : Cell κ => ofClass c cell.1) ∘ fun x : Cell κ × ℕ =>
        settle config context detections (takenBy (pairing m config detections cells) x.2) x.1) x =
      ofClass c x.1.1 := fun x _ => settle_ofClass config context detections _ c x.1
  rw [List.filter_congr classes, ← h.cells_eq, List.map_map, List.map_map]
  apply List.map_congr_left
  rintro ⟨cell, k⟩ hx
  simp only [Function.comp_apply, Prod.map_apply, takenBy_replace m config h hx, settle_rename]
  congr 1
  cases taken : takenBy (pairing m config own part) k with
  | none => rfl
  | some a =>
    have member := List.mem_of_find?_eq_some taken
    have same := (embeds_getD h (pairing_detection_lt member)).1
    simp only [Option.map_some, settle, replace, same]

theorem untaken_filter (h : Embeds c f detections own cells part σ ρ) :
    ((untaken (pairing m config detections cells) detections.length).map
      (fun i => detections.getD i {})).filter (detectionOfClass c) =
    (untaken (pairing m config own part) own.length).map (fun i => own.getD i {}) := by
  have values : ∀ (found : List Association) (dets : List Detection),
      (untaken found dets.length).map (fun i => dets.getD i {}) = (dets.zipIdx.filter
        (fun x => !found.any (fun a => a.detectionIndex = x.2))).map Prod.fst := by
    intro found dets
    rw [untaken, Positions.filter_range dets _
      (fun x => !found.any (fun a => a.detectionIndex = x.2)) (fun _ _ => rfl), List.map_map]
    apply List.map_congr_left
    intro x hx
    exact Positions.getD_of_mem_zipIdx (List.mem_filter.mp hx).1 {}
  rw [values, values, List.filter_map, List.filter_filter]
  have swap : detections.zipIdx.filter (fun x => (detectionOfClass c ∘ Prod.fst) x &&
        !(pairing m config detections cells).any (fun a => a.detectionIndex = x.2)) =
      (own.zipIdx.map (Prod.map id σ)).filter (fun x =>
        !(pairing m config detections cells).any (fun a => a.detectionIndex = x.2)) := by
    rw [h.detections_eq, List.filter_filter]
    exact List.filter_congr (fun x _ => Bool.and_comm _ _)
  rw [swap, List.filter_map, List.map_map]
  have same : ∀ x ∈ own.zipIdx, ((fun x : Detection × ℕ =>
        !(pairing m config detections cells).any (fun a => a.detectionIndex = x.2)) ∘
        Prod.map id σ) x =
      !(pairing m config own part).any (fun a => a.detectionIndex = x.2) := by
    rintro ⟨detection, i⟩ hx
    have bound := (List.mem_zipIdx' hx).1
    simp only [Function.comp_apply, Prod.map_apply]
    congr 1
    rw [Bool.eq_iff_iff, List.any_eq_true, List.any_eq_true]
    simp only [decide_eq_true_eq]
    constructor
    · rintro ⟨a, ha, here⟩
      have member : a ∈ (pairing m config detections cells).filter (pairOfClass c detections) := by
        refine List.mem_filter.mpr ⟨ha, ?_⟩
        rw [pairOfClass, here]
        exact (embeds_getD h bound).2
      rw [pairing_filter m config h] at member
      obtain ⟨b, hb, rfl⟩ := List.mem_map.mp member
      exact ⟨b, hb, h.detections_mono.injective here⟩
    · rintro ⟨b, hb, rfl⟩
      have member := List.mem_map_of_mem (f := replace σ ρ) hb
      rw [← pairing_filter m config h] at member
      exact ⟨_, (List.mem_filter.mp member).1, rfl⟩
  rw [List.filter_congr same]
  rfl

end Round

section Fate

omit [KalmanBoxFilter κ]

variable (config : TrackerConfig) {track : InternalTrack κ}

theorem fate_rename (f : ℕ → ℕ) (cell : Cell κ) :
    fate config (renameCell f cell) = (fate config cell).map (rename f) := by
  obtain ⟨track, used⟩ := cell
  cases used with
  | true => rfl
  | false =>
    by_cases tentative : track.state = .tentative
    · rw [fate_tentative config tentative]
      exact fate_tentative config tentative
    · by_cases old : config.maxLostFrames < track.timeSinceUpdate + 1
      · rw [fate_expired config tentative old]
        exact fate_expired config tentative old
      · rw [fate_lost config tentative old]
        exact fate_lost config tentative old

theorem fate_ofClass (c : ℤ) (cell : Cell κ) :
    (fate config cell).filter (ofClass c) =
      if ofClass c cell.1 then fate config cell else none := by
  obtain ⟨track, used⟩ := cell
  cases used with
  | true => rfl
  | false =>
    by_cases tentative : track.state = .tentative
    · rw [fate_tentative config tentative, ite_self]
      rfl
    · by_cases old : config.maxLostFrames < track.timeSinceUpdate + 1
      · rw [fate_expired config tentative old, ite_self]
        rfl
      · rw [fate_lost config tentative old]
        rfl

theorem survive_filter (c : ℤ) (f : ℕ → ℕ) (cells part : List (Cell κ))
    (stats stats' : TrackerStats)
    (h : part.map (renameCell f) = cells.filter (fun cell => ofClass c cell.1)) :
    ((survive config part stats').1).map (rename f) =
      ((survive config cells stats).1).filter (ofClass c) := by
  rw [survive_eq, survive_eq, List.map_filterMap, List.filter_filterMap]
  calc part.filterMap (fun cell => (fate config cell).map (rename f))
      = (part.map (renameCell f)).filterMap (fate config) := by
        rw [List.filterMap_map]
        exact List.filterMap_congr (fun cell _ => (fate_rename config f cell).symm)
    _ = cells.filterMap (fun cell => if ofClass c cell.1 then fate config cell else none) := by
        rw [h, List.filterMap_filter]
    _ = cells.filterMap (fun cell => (fate config cell).filter (ofClass c)) :=
        List.filterMap_congr (fun cell _ => (fate_ofClass config c cell).symm)

end Fate

/- The whole update. -/

/-- `r` is what `s` looks like through the class `c`, with the identifiers renamed by `f`. -/
structure Views (c : ℤ) (f : ℕ → ℕ) (s r : ByteTrackTracker κ) : Prop where
  config : r.config = s.config
  clock : r.lastTimestamp = s.lastTimestamp
  tracks : r.tracks.map (rename f) = s.tracks.filter (ofClass c)
  known : ∀ track ∈ r.tracks, track.id < r.nextId
  increasing : ∀ i j, i < j → j < r.nextId → f i < f j
  below : ∀ i, i < r.nextId → f i < s.nextId

omit [KalmanBoxFilter κ] in
theorem rename_congr {f g : ℕ → ℕ} {tracks : List (InternalTrack κ)} {n : ℕ}
    (known : ∀ track ∈ tracks, track.id < n) (same : ∀ i, i < n → g i = f i) :
    tracks.map (rename g) = tracks.map (rename f) := by
  apply List.map_congr_left
  intro track ht
  rw [rename, rename, same track.id (known track ht)]

variable {c : ℤ} {f : ℕ → ℕ} {s r : ByteTrackTracker κ}

theorem createTrack_other (context : TrackUpdateContext) {detection : Detection}
    (other : detectionOfClass c detection = false) (views : Views c f s r) :
    Views c f (createTrack context s detection) r := by
  refine ⟨views.config, views.clock, ?_, views.known, views.increasing,
    fun i hi => Nat.lt_succ_of_lt (views.below i hi)⟩
  have unseen : ofClass c (newTrack (κ := κ) s.config context s.nextId detection) = false := other
  rw [views.tracks, createTrack, List.filter_append, List.filter_cons_of_neg (by simp [unseen]),
    List.filter_nil, List.append_nil]

theorem createTrack_own (context : TrackUpdateContext) {detection : Detection}
    (own : detectionOfClass c detection = true) (views : Views c f s r) :
    Views c (Function.update f r.nextId s.nextId) (createTrack context s detection)
      (createTrack context r detection) := by
  have before : ∀ i, i < r.nextId → Function.update f r.nextId s.nextId i = f i :=
    fun i hi => Function.update_of_ne (Nat.ne_of_lt hi) _ _
  constructor
  · exact views.config
  · exact views.clock
  · have seen : ofClass c (newTrack (κ := κ) s.config context s.nextId detection) = true := own
    rw [createTrack, createTrack, List.filter_append, List.filter_cons_of_pos seen,
      List.filter_nil, List.map_append, rename_congr views.known before, views.tracks, views.config]
    congr 1
    rw [List.map_singleton, rename]
    have id : (newTrack (κ := κ) s.config context r.nextId detection).id = r.nextId := rfl
    rw [id, Function.update_self]
    rfl
  · intro track ht
    rw [createTrack, List.mem_append, List.mem_singleton] at ht
    rcases ht with ht | rfl
    · exact Nat.lt_succ_of_lt (views.known track ht)
    · exact Nat.lt_succ_self _
  · intro i j less hj
    rcases Nat.lt_succ_iff_lt_or_eq.mp hj with hj | rfl
    · rw [before i (less.trans hj), before j hj]
      exact views.increasing i j less hj
    · rw [before i less, Function.update_self]
      exact views.below i less
  · intro i hi
    rcases Nat.lt_succ_iff_lt_or_eq.mp hi with hi | rfl
    · rw [before i hi]
      exact Nat.lt_succ_of_lt (views.below i hi)
    · rw [Function.update_self]
      exact Nat.lt_succ_self _

theorem createTracks_views (context : TrackUpdateContext) (created : List Detection)
    (views : Views c f s r) : ∃ g, (∀ i, i < r.nextId → g i = f i) ∧
      Views c g (created.foldl (createTrack context) s)
        ((created.filter (detectionOfClass c)).foldl (createTrack context) r) := by
  induction created generalizing f s r with
  | nil => exact ⟨f, fun _ _ => rfl, views⟩
  | cons detection created ih =>
    rw [List.foldl_cons]
    cases class_ : detectionOfClass c detection with
    | false =>
      rw [List.filter_cons_of_neg (by simp [class_])]
      exact ih (createTrack_other context class_ views)
    | true =>
      rw [List.filter_cons_of_pos class_, List.foldl_cons]
      obtain ⟨g, same, after⟩ := ih (createTrack_own context class_ views)
      refine ⟨g, fun i hi => ?_, after⟩
      rw [same i (Nat.lt_succ_of_lt hi), Function.update_of_ne (Nat.ne_of_lt hi)]

variable (m : Arithmetic) (detections : List Detection) (context : TrackUpdateContext)

omit [KalmanBoxFilter κ] in
theorem map_views (change : InternalTrack κ → InternalTrack κ) (c : ℤ) (f : ℕ → ℕ)
    (classes : ∀ track, ofClass c (change track) = ofClass c track)
    (commutes : ∀ track, rename f (change track) = change (rename f track))
    {tracks part : List (InternalTrack κ)} (h : part.map (rename f) = tracks.filter (ofClass c)) :
    (part.map change).map (rename f) = (tracks.map change).filter (ofClass c) := by
  calc (part.map change).map (rename f)
      = (part.map (rename f)).map change := by
        rw [List.map_map, List.map_map]
        exact List.map_congr_left (fun track _ => commutes track)
    _ = (tracks.filter (ofClass c)).map change := by rw [h]
    _ = (tracks.map change).filter (ofClass c) := by
        rw [List.filter_map]
        exact congrArg _ (List.filter_congr (fun track _ => (classes track).symm))

theorem startCells_views (views : Views c f s r) :
    (r.startCells context).map (renameCell f) =
      (s.startCells context).filter (fun cell => ofClass c cell.1) := by
  have tracks := map_views (predictTrack (deltaSeconds s.lastTimestamp context.timestamp)) c f
    (fun _ => rfl) (fun _ => rfl) views.tracks
  have flagged := congrArg (List.map (fun track => (track, false))) tracks
  rw [List.map_map] at flagged
  rw [startCells, startCells, predicted, predicted, views.clock, List.filter_map, List.map_map]
  exact flagged

theorem filter_comm (p : Detection → Bool) : (detections.filter (detectionOfClass c)).filter p =
    (detections.filter p).filter (detectionOfClass c) := by
  rw [List.filter_filter, List.filter_filter]
  exact List.filter_congr (fun _ _ => Bool.and_comm _ _)

theorem firstCells_views (views : Views c f s r) :
    (r.firstCells m (detections.filter (detectionOfClass c)) context).map (renameCell f) =
      (s.firstCells m detections context).filter (fun cell => ofClass c cell.1) := by
  obtain ⟨σ, ρ, embeds⟩ := exists_embeds c f (detections.filter (isHigh s.config))
    (s.startCells context) (r.startCells context) (startCells_views context views)
  rw [firstCells, firstCells, views.config, filter_comm]
  exact play_filter m s.config context embeds

theorem secondCells_views (views : Views c f s r) :
    (r.secondCells m (detections.filter (detectionOfClass c)) context).map (renameCell f) =
      (s.secondCells m detections context).filter (fun cell => ofClass c cell.1) := by
  obtain ⟨σ, ρ, embeds⟩ := exists_embeds c f (detections.filter (isLow s.config))
    (s.firstCells m detections context) _ (firstCells_views m detections context views)
  rw [secondCells, secondCells, views.config, filter_comm]
  exact play_filter m s.config context embeds

theorem unmatchedHigh_views (views : Views c f s r) :
    r.unmatchedHigh m (detections.filter (detectionOfClass c)) context =
      (s.unmatchedHigh m detections context).filter (detectionOfClass c) := by
  obtain ⟨σ, ρ, embeds⟩ := exists_embeds c f (detections.filter (isHigh s.config))
    (s.startCells context) (r.startCells context) (startCells_views context views)
  rw [unmatchedHigh_eq, unmatchedHigh_eq, views.config, filter_comm]
  exact (untaken_filter m s.config embeds).symm

theorem kept_views (views : Views c f s r) : Views c f (s.kept m detections context)
    (r.kept m (detections.filter (detectionOfClass c)) context) := by
  have tracks := survive_filter s.config c f _ _ s.stats r.stats
    (secondCells_views m detections context views)
  obtain ⟨survivors, _, _⟩ := kept_spec m r (detections.filter (detectionOfClass c)) context
  constructor
  · rw [kept_config, kept_config, views.config]
  · rw [kept_lastTimestamp, kept_lastTimestamp]
  · rw [kept_eq, kept_eq, views.config]
    exact tracks
  · intro track ht
    obtain ⟨earlier, he, same⟩ := survivors.mem track ht
    rw [kept_nextId, same.1]
    exact views.known earlier he
  · rw [kept_nextId]
    exact views.increasing
  · rw [kept_nextId, kept_nextId]
    exact views.below

def renameTrack (f : ℕ → ℕ) (track : Track) : Track := { track with trackId := f track.trackId }

theorem published_views {tracks part : List (InternalTrack κ)}
    (h : part.map (rename f) = tracks.filter (ofClass c)) :
    (published part).map (renameTrack f) =
      (published tracks).filter (fun track => decide (track.classId = c)) := by
  calc (published part).map (renameTrack f)
      = published (part.map (rename f)) := by
        rw [published, published, List.filter_map, List.map_map, List.map_map]
        rfl
    _ = published (tracks.filter (ofClass c)) := by rw [h]
    _ = (published tracks).filter (fun track => decide (track.classId = c)) := by
        rw [published, published, List.filter_map, List.filter_filter, List.filter_filter]
        exact congrArg _ (List.filter_congr (fun _ _ => Bool.and_comm _ _))

theorem extend_views (views : Views c f s r) (config : TrackerConfig) (stats stats' : TrackerStats) :
    Views c f
      { s with tracks := s.tracks.map (appendTrajectory config context), stats := stats }
      { r with tracks := r.tracks.map (appendTrajectory config context), stats := stats' } := by
  have tracks := map_views (appendTrajectory config context) c f (fun _ => rfl) (fun _ => rfl)
    views.tracks
  refine ⟨views.config, views.clock, tracks, ?_, views.increasing, views.below⟩
  intro track ht
  obtain ⟨earlier, he, rfl⟩ := List.mem_map.mp ht
  exact views.known earlier he

theorem update_views (views : Views c f s r) : ∃ g, (∀ i, i < r.nextId → g i = f i) ∧
    Views c g (s.update m detections context).1
      (r.update m (detections.filter (detectionOfClass c)) context).1 ∧
    (r.update m (detections.filter (detectionOfClass c)) context).2.map (renameTrack g) =
      (s.update m detections context).2.filter (fun track => decide (track.classId = c)) := by
  obtain ⟨g, same, created⟩ := createTracks_views context (s.unmatchedHigh m detections context)
    (kept_views m detections context views)
  rw [← unmatchedHigh_views m detections context views] at created
  have grown : Views c g (s.grown m detections context)
      (r.grown m (detections.filter (detectionOfClass c)) context) := created
  have updated : Views c g (s.update m detections context).1
      (r.update m (detections.filter (detectionOfClass c)) context).1 := by
    simp only [update, views.config]
    exact extend_views context grown s.config _ _
  rw [kept_nextId] at same
  exact ⟨g, same, updated, published_views updated.tracks⟩

/- Runs. -/

def onlyClass (c : ℤ) (frames : List (List Detection × TrackUpdateContext)) :
    List (List Detection × TrackUpdateContext) :=
  frames.map (fun frame => (frame.1.filter (detectionOfClass c), frame.2))

/-- A renaming of the identifiers given so far extends to all numbers. -/
theorem extend_renaming {f : ℕ → ℕ} {n k : ℕ} (increasing : ∀ i j, i < j → j < n → f i < f j)
    (below : ∀ i, i < n → f i < k) :
    ∃ g, StrictMono g ∧ ∀ i, i < n → g i = f i := by
  refine ⟨fun i => if i < n then f i else k + i, ?_, fun i hi => if_pos hi⟩
  intro i j less
  dsimp only
  by_cases hj : j < n
  · rw [if_pos (less.trans hj), if_pos hj]
    exact increasing i j less hj
  · rw [if_neg hj]
    by_cases hi : i < n
    · rw [if_pos hi]
      exact (below i hi).trans_le (Nat.le_add_right _ _)
    · rw [if_neg hi]
      exact Nat.add_lt_add_left less k

theorem renameTrack_congr {f g : ℕ → ℕ} {tracks : List (InternalTrack κ)} {n : ℕ}
    (known : ∀ track ∈ tracks, track.id < n) (same : ∀ i, i < n → g i = f i) :
    (published tracks).map (renameTrack g) = (published tracks).map (renameTrack f) := by
  apply List.map_congr_left
  intro track ht
  obtain ⟨internal, hi, rfl⟩ := List.mem_map.mp ht
  have renamed := same internal.id (known internal (List.mem_filter.mp hi).1)
  simp only [renameTrack, toPublic, renamed]

theorem runUpdates_views (frames : List (List Detection × TrackUpdateContext))
    (views : Views c f s r) : ∃ g, StrictMono g ∧ (∀ i, i < r.nextId → g i = f i) ∧
      (runUpdates m r (onlyClass c frames)).2.map (List.map (renameTrack g)) =
        (runUpdates m s frames).2.map (List.filter (fun track => decide (track.classId = c))) := by
  induction frames generalizing f s r with
  | nil =>
    obtain ⟨g, increasing, same⟩ := extend_renaming views.increasing views.below
    exact ⟨g, increasing, same, rfl⟩
  | cons frame frames ih =>
    obtain ⟨f', same', after, returned⟩ := update_views m frame.1 frame.2 views
    obtain ⟨old, new, updated⟩ := update_updated m r (frame.1.filter (detectionOfClass c)) frame.2
    obtain ⟨g, increasing, same, rest⟩ := ih after
    have grows : r.nextId ≤
        (r.update m (frame.1.filter (detectionOfClass c)) frame.2).1.nextId := by
      rw [updated.nextId]
      exact Nat.le_add_right _ _
    refine ⟨g, increasing, fun i hi => ?_, ?_⟩
    · rw [same i (hi.trans_le grows), same' i hi]
    · have first := (renameTrack_congr after.known same).trans returned
      exact congrArg₂ List.cons first rest

/-- The tracks of a class do not depend on the detections of the other classes. -/
theorem class_isolation (config : TrackerConfig) (c : ℤ)
    (frames : List (List Detection × TrackUpdateContext)) : ∃ f : ℕ → ℕ, StrictMono f ∧
      (runUpdates (κ := κ) m { config := config } (onlyClass c frames)).2.map
        (List.map (renameTrack f)) =
      (runUpdates (κ := κ) m { config := config } frames).2.map
        (List.filter (fun track => decide (track.classId = c))) := by
  have start : Views (κ := κ) c id { config := config } { config := config } :=
    ⟨rfl, rfl, rfl, fun _ h => (List.not_mem_nil h).elim, fun _ _ less _ => less, fun _ h => h⟩
  obtain ⟨f, increasing, _, same⟩ := runUpdates_views m frames start
  exact ⟨f, increasing, same⟩

end VisionLab.ByteTrackTracker
