import VisionLab.Tracking.Rounds

/-! One update as an association of detections with tracks. The two rounds share the list of
tracks, so what a low-score detection takes was left by every high-score one. -/
namespace VisionLab.ByteTrackTracker

variable {κ : Type} [KalmanBoxFilter κ]

/- One round. -/

theorem takenBy_of_mem {found : List Association}
    (apart : found.Pairwise (fun a b => a.trackIndex ≠ b.trackIndex)) {a : Association}
    (member : a ∈ found) : takenBy found a.trackIndex = some a := by
  induction found with
  | nil => cases member
  | cons first found ih =>
    obtain ⟨others, rest⟩ := List.pairwise_cons.mp apart
    rcases List.mem_cons.mp member with rfl | later
    · simp [takenBy]
    · have skip : takenBy (first :: found) a.trackIndex = takenBy found a.trackIndex := by
        simp [takenBy, others a later]
      exact skip.trans (ih rest later)

theorem takenBy_eq_none {found : List Association} {t : ℕ}
    (free : ∀ a ∈ found, a.trackIndex ≠ t) : takenBy found t = none := by
  apply List.find?_eq_none.mpr
  intro a ha
  simpa using free a ha

theorem pairing_apart (m : Arithmetic) (config : TrackerConfig) (detections : List Detection)
    (cells : List (Cell κ)) : (pairing m config detections cells).Pairwise
      (fun a b => a.detectionIndex ≠ b.detectionIndex ∧ a.trackIndex ≠ b.trackIndex) :=
  (Greedy.greedy_pairwise _ _ _ _).imp (fun h => ⟨h.1, h.2.1⟩)

theorem play_getElem? (m : Arithmetic) (config : TrackerConfig) (context : TrackUpdateContext)
    (detections : List Detection) (cells : List (Cell κ)) (t : ℕ) :
    (play m config context detections cells)[t]? = cells[t]?.map
      (settle config context detections (takenBy (pairing m config detections cells) t)) :=
  List.getElem?_mapIdx

theorem play_taken {m : Arithmetic} {config : TrackerConfig} (context : TrackUpdateContext)
    {detections : List Detection} {cells : List (Cell κ)} {a : Association}
    (member : a ∈ pairing m config detections cells) : ∃ detection track,
      detections[a.detectionIndex]? = some detection ∧
      cells[a.trackIndex]? = some (track, false) ∧
      (play m config context detections cells)[a.trackIndex]? =
        some (applyDetection config context detection track, true) := by
  obtain ⟨detection, track, hd, ht, _⟩ := (mem_links m config detections cells a).mp
    (mem_pairing member)
  have taken := takenBy_of_mem ((pairing_apart m config detections cells).imp (fun h => h.2)) member
  refine ⟨detection, track, hd, ht, ?_⟩
  rw [play_getElem?, ht, taken, Option.map_some, settle, List.getD_eq_getElem?_getD, hd]
  rfl

theorem play_untaken {m : Arithmetic} {config : TrackerConfig} (context : TrackUpdateContext)
    {detections : List Detection} {cells : List (Cell κ)} {t : ℕ}
    (free : ∀ a ∈ pairing m config detections cells, a.trackIndex ≠ t) :
    (play m config context detections cells)[t]? = cells[t]? := by
  rw [play_getElem?, takenBy_eq_none free]
  exact Option.map_id'

theorem play_free {m : Arithmetic} {config : TrackerConfig} {context : TrackUpdateContext}
    {detections : List Detection} {cells : List (Cell κ)} {t : ℕ} {track : InternalTrack κ}
    (after : (play m config context detections cells)[t]? = some (track, false)) :
    cells[t]? = some (track, false) ∧
      ∀ a ∈ pairing m config detections cells, a.trackIndex ≠ t := by
  have free : ∀ a ∈ pairing m config detections cells, a.trackIndex ≠ t := by
    rintro a member rfl
    obtain ⟨_, _, _, _, taken⟩ := play_taken context member
    rw [taken] at after
    cases after
  exact ⟨(play_untaken context free).symm.trans after, free⟩

/- Both rounds of an update. -/

variable (m : Arithmetic) (s : ByteTrackTracker κ) (detections : List Detection)
  (context : TrackUpdateContext)

def highMatches : List Association :=
  pairing m s.config (detections.filter (isHigh s.config)) (s.startCells context)

def lowMatches : List Association :=
  pairing m s.config (detections.filter (isLow s.config)) (s.firstCells m detections context)

/-- Every detection that was applied, by its index, with the position of the track it went to. -/
def appliedPairs : List (ℕ × ℕ) := (s.secondRound m detections context).applied

theorem appliedPairs_eq : s.appliedPairs m detections context =
    (s.highMatches m detections context).map
      (fun a => ((highIndices s.config detections).getD a.detectionIndex 0, a.trackIndex)) ++
    (s.lowMatches m detections context).map
      (fun a => ((lowIndices s.config detections).getD a.detectionIndex 0, a.trackIndex)) := by
  rw [appliedPairs, (secondRound_spec m s detections context).2,
    (firstRound_spec m s detections context).2.1]
  rfl

/- The index lists. -/

def indices (p : Detection → Bool) (detections : List Detection) : List ℕ :=
  (List.range detections.length).filter (fun i => p (detections.getD i {}))

theorem mem_indices (p : Detection → Bool) (d : ℕ) : d ∈ indices p detections ↔
    ∃ detection, detections[d]? = some detection ∧ p detection = true := by
  rw [indices, List.mem_filter, List.mem_range]
  constructor
  · rintro ⟨bound, passes⟩
    refine ⟨detections[d], List.getElem?_eq_getElem bound, ?_⟩
    rwa [List.getD_eq_getElem _ _ bound] at passes
  · rintro ⟨detection, present, passes⟩
    have bound := (List.getElem?_eq_some_iff.mp present).1
    refine ⟨bound, ?_⟩
    rw [List.getD_eq_getElem?_getD, present]
    exact passes

theorem indices_nodup (p : Detection → Bool) : (indices p detections).Nodup :=
  List.nodup_range.filter _

theorem indices_getElem? (p : Detection → Bool) {i : ℕ} {detection : Detection}
    (present : (detections.filter p)[i]? = some detection) : ∃ d,
      (indices p detections)[i]? = some d ∧ (indices p detections).getD i 0 = d ∧
      detections[d]? = some detection ∧ p detection = true := by
  rw [← selected_filter, selected, List.getElem?_map] at present
  obtain ⟨d, hd, same⟩ := Option.map_eq_some_iff.mp present
  obtain ⟨other, there, passes⟩ := (mem_indices detections p d).mp (List.mem_of_getElem? hd)
  rw [List.getD_eq_getElem?_getD, there] at same
  change other = detection at same
  subst same
  refine ⟨d, hd, ?_, there, passes⟩
  rw [List.getD_eq_getElem?_getD]
  exact congrArg (fun x => x.getD 0) hd

/- What a pair of each round is. -/

/-- The detection at `d` and the predicted track at `t` may be put together. -/
structure Fits (d t : ℕ) (detection : Detection) (track : InternalTrack κ) : Prop where
  present : detections[d]? = some detection
  predicted : (s.predicted context)[t]? = some track
  sameClass : detection.classId = track.classId
  positive : 0 < overlap m detection track
  enough : s.config.matchIou ≤ overlap m detection track

theorem startCells_getElem? (t : ℕ) (track : InternalTrack κ) :
    (s.startCells context)[t]? = some (track, false) ↔ (s.predicted context)[t]? = some track := by
  rw [startCells, List.getElem?_map]
  constructor
  · intro h
    obtain ⟨other, present, same⟩ := Option.map_eq_some_iff.mp h
    cases same
    exact present
  · intro h
    rw [h]
    rfl

theorem secondRound_tracks : (s.secondRound m detections context).tracks =
    (s.secondCells m detections context).map Prod.fst := by
  have follows := secondRound_follows m s detections context
  have length : (s.secondRound m detections context).tracks.length ≤
      (s.secondRound m detections context).trackUsed.length := by
    rw [follows.length, follows.flags, List.length_replicate, predicted, List.length_map]
  rw [← (secondRound_spec m s detections context).1]
  exact (List.map_fst_zip length).symm

theorem pairing_fits (p : Detection → Bool) {cells : List (Cell κ)}
    (free : ∀ (t : ℕ) track, cells[t]? = some (track, false) →
      (s.predicted context)[t]? = some track)
    {a : Association} (member : a ∈ pairing m s.config (detections.filter p) cells) :
    ∃ d detection track, (indices p detections)[a.detectionIndex]? = some d ∧
      p detection = true ∧ Fits m s detections context d a.trackIndex detection track ∧
      a.iou = overlap m detection track ∧ cells[a.trackIndex]? = some (track, false) ∧
      (play m s.config context (detections.filter p) cells)[a.trackIndex]? =
        some (applyDetection s.config context detection track, true) := by
  obtain ⟨detection, track, hd, ht, taken⟩ := play_taken context member
  obtain ⟨detection', track', hd', ht', same, enough, positive, iou⟩ :=
    (mem_links m s.config _ _ a).mp (mem_pairing member)
  cases Option.some.inj (hd.symm.trans hd')
  cases Option.some.inj (ht.symm.trans ht')
  obtain ⟨d, at_, _, present, passes⟩ := indices_getElem? detections p hd
  exact ⟨d, detection, track, at_, passes,
    ⟨present, free _ _ ht, same, iou ▸ positive, iou ▸ enough⟩, iou, ht, taken⟩

/-- A high-score pair is out of reach of the second round. -/
theorem highMatches_spec {a : Association} (member : a ∈ s.highMatches m detections context) :
    ∃ d detection track, (indices (isHigh s.config) detections)[a.detectionIndex]? = some d ∧
      isHigh s.config detection = true ∧
      Fits m s detections context d a.trackIndex detection track ∧
      a.iou = overlap m detection track ∧
      (s.secondRound m detections context).tracks[a.trackIndex]? =
        some (applyDetection s.config context detection track) := by
  obtain ⟨d, detection, track, at_, high, fits, iou, _, taken⟩ :=
    pairing_fits m s detections context _
      (fun t track => (startCells_getElem? s context t track).mp) member
  refine ⟨d, detection, track, at_, high, fits, iou, ?_⟩
  have later : ∀ b ∈ s.lowMatches m detections context, b.trackIndex ≠ a.trackIndex := by
    intro b hb clash
    obtain ⟨_, _, _, free, _⟩ := play_taken context hb
    rw [clash] at free
    rw [firstCells, taken] at free
    cases free
  rw [secondRound_tracks, List.getElem?_map, secondCells, play_untaken context later, firstCells,
    taken]
  rfl

/-- A low-score pair was out of reach of the first round. -/
theorem lowMatches_spec {a : Association} (member : a ∈ s.lowMatches m detections context) :
    ∃ d detection track, (indices (isLow s.config) detections)[a.detectionIndex]? = some d ∧
      isLow s.config detection = true ∧
      Fits m s detections context d a.trackIndex detection track ∧
      (∀ b ∈ s.highMatches m detections context, b.trackIndex ≠ a.trackIndex) ∧
      (s.secondRound m detections context).tracks[a.trackIndex]? =
        some (applyDetection s.config context detection track) := by
  have free : ∀ (t : ℕ) track, (s.firstCells m detections context)[t]? = some (track, false) →
      (s.predicted context)[t]? = some track :=
    fun t track left => (startCells_getElem? s context t track).mp (play_free left).1
  obtain ⟨d, detection, track, at_, low, fits, _, left, taken⟩ :=
    pairing_fits m s detections context _ free member
  refine ⟨d, detection, track, at_, low, fits, (play_free left).2, ?_⟩
  rw [secondRound_tracks, List.getElem?_map, secondCells, taken]
  rfl

/- The applied pairs of both rounds. -/

def indexed (idx : List ℕ) (found : List Association) : List (ℕ × ℕ) :=
  found.map (fun a => (idx.getD a.detectionIndex 0, a.trackIndex))

theorem mem_indexed {idx : List ℕ} {found : List Association}
    (covered : ∀ a ∈ found, ∃ d, idx[a.detectionIndex]? = some d ∧ idx.getD a.detectionIndex 0 = d)
    (d t : ℕ) : (d, t) ∈ indexed idx found ↔
      ∃ a ∈ found, idx[a.detectionIndex]? = some d ∧ a.trackIndex = t := by
  rw [indexed, List.mem_map]
  constructor
  · rintro ⟨a, ha, same⟩
    obtain ⟨d', at_, getD⟩ := covered a ha
    cases same
    exact ⟨a, ha, getD ▸ at_, rfl⟩
  · rintro ⟨a, ha, at_, rfl⟩
    obtain ⟨d', there, getD⟩ := covered a ha
    cases Option.some.inj (there.symm.trans at_)
    exact ⟨a, ha, by rw [getD]⟩

theorem indexed_apart {idx : List ℕ} {found : List Association} (nodup : idx.Nodup)
    (covered : ∀ a ∈ found, ∃ d, idx[a.detectionIndex]? = some d ∧ idx.getD a.detectionIndex 0 = d)
    (apart : found.Pairwise (fun a b =>
      a.detectionIndex ≠ b.detectionIndex ∧ a.trackIndex ≠ b.trackIndex)) :
    (indexed idx found).Pairwise (fun p q => p.1 ≠ q.1 ∧ p.2 ≠ q.2) := by
  rw [indexed, List.pairwise_map]
  refine List.Pairwise.imp_of_mem ?_ apart
  rintro a b ha hb ⟨detections, tracks⟩
  refine ⟨fun same => detections ?_, tracks⟩
  obtain ⟨d, hd, getD⟩ := covered a ha
  obtain ⟨e, he, getE⟩ := covered b hb
  rw [getD, getE] at same
  exact (List.getElem?_inj (List.getElem?_eq_some_iff.mp hd).1 nodup).mp
    (hd.trans (Eq.trans (congrArg some same) he.symm))

theorem pairing_covered (p : Detection → Bool) (cells : List (Cell κ)) :
    ∀ a ∈ pairing m s.config (detections.filter p) cells, ∃ d,
      (indices p detections)[a.detectionIndex]? = some d ∧
      (indices p detections).getD a.detectionIndex 0 = d := by
  intro a ha
  obtain ⟨detection, _, hd, _⟩ := (mem_links m s.config _ _ a).mp (mem_pairing ha)
  obtain ⟨d, at_, getD, _⟩ := indices_getElem? detections p hd
  exact ⟨d, at_, getD⟩

theorem highMatches_covered : ∀ a ∈ s.highMatches m detections context, ∃ d,
    (indices (isHigh s.config) detections)[a.detectionIndex]? = some d ∧
      (indices (isHigh s.config) detections).getD a.detectionIndex 0 = d :=
  pairing_covered m s detections _ _

theorem lowMatches_covered : ∀ a ∈ s.lowMatches m detections context, ∃ d,
    (indices (isLow s.config) detections)[a.detectionIndex]? = some d ∧
      (indices (isLow s.config) detections).getD a.detectionIndex 0 = d :=
  pairing_covered m s detections _ _

theorem mem_appliedPairs (d t : ℕ) : (d, t) ∈ s.appliedPairs m detections context ↔
    (∃ a ∈ s.highMatches m detections context,
      (indices (isHigh s.config) detections)[a.detectionIndex]? = some d ∧ a.trackIndex = t) ∨
    ∃ a ∈ s.lowMatches m detections context,
      (indices (isLow s.config) detections)[a.detectionIndex]? = some d ∧ a.trackIndex = t := by
  rw [appliedPairs_eq, List.mem_append]
  exact or_congr (mem_indexed (highMatches_covered m s detections context) d t)
    (mem_indexed (lowMatches_covered m s detections context) d t)

theorem isLow_not_isHigh {config : TrackerConfig} {detection : Detection}
    (low : isLow config detection = true) : isHigh config detection = false := by
  rw [isLow, Bool.and_eq_true, Bool.not_eq_true'] at low
  exact low.1

theorem appliedPairs_apart : (s.appliedPairs m detections context).Pairwise
    (fun p q => p.1 ≠ q.1 ∧ p.2 ≠ q.2) := by
  rw [appliedPairs_eq, List.pairwise_append]
  refine ⟨indexed_apart (indices_nodup detections _) (highMatches_covered m s detections context)
      (pairing_apart ..),
    indexed_apart (indices_nodup detections _) (lowMatches_covered m s detections context)
      (pairing_apart ..), ?_⟩
  rintro ⟨d, t⟩ hp ⟨e, u⟩ hq
  obtain ⟨a, ha, inHigh, rfl⟩ :=
    (mem_indexed (highMatches_covered m s detections context) d t).mp hp
  obtain ⟨b, hb, inLow, rfl⟩ :=
    (mem_indexed (lowMatches_covered m s detections context) e u).mp hq
  obtain ⟨_, _, _, _, _, _, untouched, _⟩ := lowMatches_spec m s detections context hb
  refine ⟨?_, untouched a ha⟩
  rintro rfl
  obtain ⟨x, hx, high⟩ := (mem_indices detections _ d).mp (List.mem_of_getElem? inHigh)
  obtain ⟨y, hy, low⟩ := (mem_indices detections _ d).mp (List.mem_of_getElem? inLow)
  cases Option.some.inj (hx.symm.trans hy)
  rw [isLow_not_isHigh low] at high
  cases high

theorem applied_spec {d t : ℕ} (member : (d, t) ∈ s.appliedPairs m detections context) :
    ∃ detection track, Fits m s detections context d t detection track ∧
      (isHigh s.config detection = true ∨ isLow s.config detection = true) ∧
      (s.secondRound m detections context).tracks[t]? =
        some (applyDetection s.config context detection track) := by
  rcases (mem_appliedPairs m s detections context d t).mp member with
    ⟨a, ha, at_, rfl⟩ | ⟨a, ha, at_, rfl⟩
  · obtain ⟨e, detection, track, there, high, fits, _, after⟩ :=
      highMatches_spec m s detections context ha
    cases Option.some.inj (there.symm.trans at_)
    exact ⟨detection, track, fits, Or.inl high, after⟩
  · obtain ⟨e, detection, track, there, low, fits, _, after⟩ :=
      lowMatches_spec m s detections context ha
    cases Option.some.inj (there.symm.trans at_)
    exact ⟨detection, track, fits, Or.inr low, after⟩

theorem untouched_cell {t : ℕ} (free : ∀ d, (d, t) ∉ s.appliedPairs m detections context) :
    (s.secondCells m detections context)[t]? =
      (s.predicted context)[t]?.map (fun track => (track, false)) := by
  have high : ∀ a ∈ s.highMatches m detections context, a.trackIndex ≠ t := by
    intro a ha same
    obtain ⟨d, at_, _⟩ := highMatches_covered m s detections context a ha
    exact free d ((mem_appliedPairs m s detections context d t).mpr (Or.inl ⟨a, ha, at_, same⟩))
  have low : ∀ a ∈ s.lowMatches m detections context, a.trackIndex ≠ t := by
    intro a ha same
    obtain ⟨d, at_, _⟩ := lowMatches_covered m s detections context a ha
    exact free d ((mem_appliedPairs m s detections context d t).mpr (Or.inr ⟨a, ha, at_, same⟩))
  rw [secondCells, play_untaken context low, firstCells, play_untaken context high, startCells,
    List.getElem?_map]

theorem untouched_spec {t : ℕ} (free : ∀ d, (d, t) ∉ s.appliedPairs m detections context) :
    (s.secondRound m detections context).tracks[t]? = (s.predicted context)[t]? := by
  rw [secondRound_tracks, List.getElem?_map, untouched_cell m s detections context free]
  cases (s.predicted context)[t]? <;> rfl

theorem unmarked_untouched {t : ℕ} {track : InternalTrack κ}
    (unmarked : (s.secondCells m detections context)[t]? = some (track, false)) (d : ℕ) :
    (d, t) ∉ s.appliedPairs m detections context := by
  obtain ⟨before, low⟩ := play_free unmarked
  obtain ⟨_, high⟩ := play_free before
  intro member
  rcases (mem_appliedPairs m s detections context d t).mp member with
    ⟨a, ha, _, same⟩ | ⟨a, ha, _, same⟩
  · exact high a ha same
  · exact low a ha same

theorem applied_cell {d t : ℕ} (member : (d, t) ∈ s.appliedPairs m detections context) :
    ∃ detection track, Fits m s detections context d t detection track ∧
      (s.secondCells m detections context)[t]? =
        some (applyDetection s.config context detection track, true) := by
  obtain ⟨detection, track, fits, _, after⟩ := applied_spec m s detections context member
  refine ⟨detection, track, fits, ?_⟩
  rw [secondRound_tracks, List.getElem?_map] at after
  obtain ⟨⟨changed, marked⟩, here, same⟩ := Option.map_eq_some_iff.mp after
  cases marked with
  | false => exact absurd member (unmarked_untouched m s detections context here d)
  | true => rw [here, ← same]

/-- A high-score detection that was not applied lost each track it fits to a better one. -/
theorem blocked {d t : ℕ} {detection : Detection} {track : InternalTrack κ}
    (high : isHigh s.config detection = true)
    (unused : d ∉ (s.appliedPairs m detections context).map Prod.fst)
    (fits : Fits m s detections context d t detection track) :
    ∃ d' detection', (d', t) ∈ s.appliedPairs m detections context ∧
      detections[d']? = some detection' ∧ isHigh s.config detection' = true ∧
      overlap m detection track ≤ overlap m detection' track := by
  have listed := (mem_indices detections (isHigh s.config) d).mpr ⟨detection, fits.present, high⟩
  obtain ⟨i, bound, at_⟩ := List.mem_iff_getElem.mp listed
  have position : (indices (isHigh s.config) detections)[i]? = some d :=
    List.getElem?_eq_some_iff.mpr ⟨bound, at_⟩
  have chosen : (detections.filter (isHigh s.config))[i]? = some detection := by
    rw [← selected_filter, selected, List.getElem?_map]
    refine Option.map_eq_some_iff.mpr ⟨d, position, ?_⟩
    rw [List.getD_eq_getElem?_getD, fits.present]
    rfl
  have linked : (⟨i, t, overlap m detection track⟩ : Association) ∈
      links m s.config (detections.filter (isHigh s.config)).zipIdx
        (freeCells (s.startCells context)) :=
    (mem_links m s.config _ _ _).mpr ⟨detection, track, chosen,
      (startCells_getElem? s context t track).mpr fits.predicted, fits.sameClass, fits.enough,
      fits.positive, rfl⟩
  obtain ⟨a, ha, clash, heavier⟩ := Greedy.greedy_blocks
    Association.detectionIndex Association.trackIndex Association.iou _ _ linked
  obtain ⟨d', detection', track', there, high', fits', iou, _⟩ :=
    highMatches_spec m s detections context ha
  have applied : (d', a.trackIndex) ∈ s.appliedPairs m detections context :=
    (mem_appliedPairs m s detections context _ _).mpr (Or.inl ⟨a, ha, there, rfl⟩)
  rcases clash with same | same
  · rw [same] at there
    cases Option.some.inj (there.symm.trans position)
    exact absurd (List.mem_map_of_mem (f := Prod.fst) applied) unused
  · rw [same] at applied fits'
    cases Option.some.inj (fits.predicted.symm.trans fits'.predicted)
    exact ⟨d', detection', applied, fits'.present, high', iou ▸ heavier⟩

/- The created tracks. -/

def createdFrom : List ℕ :=
  (List.range detections.length).filter (fun d => isHigh s.config (detections.getD d {}) &&
    decide (d ∉ (s.appliedPairs m detections context).map Prod.fst))

theorem highMatches_any {d i : ℕ}
    (at_ : (indices (isHigh s.config) detections)[i]? = some d) :
    (s.highMatches m detections context).any (fun a => a.detectionIndex = i) = true ↔
      d ∈ (s.appliedPairs m detections context).map Prod.fst := by
  rw [List.any_eq_true, List.mem_map]
  constructor
  · rintro ⟨a, ha, same⟩
    rw [decide_eq_true_eq] at same
    refine ⟨(d, a.trackIndex), ?_, rfl⟩
    exact (mem_appliedPairs m s detections context _ _).mpr (Or.inl ⟨a, ha, same ▸ at_, rfl⟩)
  · rintro ⟨⟨d', t⟩, member, same⟩
    change d' = d at same
    subst same
    obtain ⟨detection, present, high⟩ :=
      (mem_indices detections _ _).mp (List.mem_of_getElem? at_)
    rcases (mem_appliedPairs m s detections context _ _).mp member with
      ⟨a, ha, there, _⟩ | ⟨a, _, there, _⟩
    · have bound := (List.getElem?_eq_some_iff.mp there).1
      have same := (List.getElem?_inj bound (indices_nodup detections _)).mp (there.trans at_.symm)
      exact ⟨a, ha, decide_eq_true same⟩
    · obtain ⟨other, present', low⟩ :=
        (mem_indices detections _ _).mp (List.mem_of_getElem? there)
      cases Option.some.inj (present.symm.trans present')
      rw [isLow_not_isHigh low] at high
      cases high

theorem unmatchedHigh_createdFrom : s.unmatchedHigh m detections context =
    (s.createdFrom m detections context).map (fun d => detections.getD d {}) := by
  have length : (detections.filter (isHigh s.config)).length =
      (indices (isHigh s.config) detections).length := by
    rw [← selected_highIndices, selected, List.length_map]
    rfl
  have positions : untaken (s.highMatches m detections context)
      (indices (isHigh s.config) detections).length =
      ((indices (isHigh s.config) detections).zipIdx.filter (fun x =>
        decide (x.1 ∉ (s.appliedPairs m detections context).map Prod.fst))).map Prod.snd := by
    apply Positions.filter_range
    rintro ⟨d, i⟩ hx
    have taken := highMatches_any m s detections context (List.mk_mem_zipIdx_iff_getElem?.mp hx)
    rw [Bool.eq_iff_iff, Bool.not_eq_true', ← Bool.not_eq_true, taken, decide_eq_true_eq]
  have chosen : s.createdFrom m detections context =
      (indices (isHigh s.config) detections).filter (fun d =>
        decide (d ∉ (s.appliedPairs m detections context).map Prod.fst)) := by
    rw [createdFrom, indices, List.filter_filter]
    exact List.filter_congr (fun d _ => Bool.and_comm _ _)
  rw [unmatchedHigh_eq, length, chosen]
  change (untaken (s.highMatches m detections context) _).map _ = _
  rw [positions, List.map_map]
  conv_rhs =>
    rw [← List.zipIdx_map_fst 0 (indices (isHigh s.config) detections), List.filter_map,
      List.map_map]
  apply List.map_congr_left
  rintro ⟨d, i⟩ hx
  have at_ := List.mk_mem_zipIdx_iff_getElem?.mp (List.mem_filter.mp hx).1
  have bound := (List.getElem?_eq_some_iff.mp at_).1
  change (detections.filter (isHigh s.config)).getD i {} = detections.getD d {}
  have sel : selected detections (indices (isHigh s.config) detections) =
      detections.filter (isHigh s.config) := selected_filter detections _
  rw [← sel, ← detectionAt_selected _ _ _ bound, detectionAt,
    Positions.getD_of_mem_zipIdx (List.mem_filter.mp hx).1]

theorem createTracks_tracks (created : List Detection) (start : ByteTrackTracker κ) :
    (created.foldl (createTrack context) start).tracks = start.tracks ++
      created.mapIdx (fun i detection =>
        newTrack start.config context (start.nextId + i) detection) := by
  induction created generalizing start with
  | nil => exact (List.append_nil _).symm
  | cons detection created ih =>
    rw [List.foldl_cons, ih, List.mapIdx_cons]
    simp only [createTrack, List.append_assoc, List.singleton_append, Nat.add_zero]
    congr 3
    funext i other
    congr 1
    omega

theorem createTracks_nextId (created : List Detection)
    (start : ByteTrackTracker κ) :
    (created.foldl (createTrack context) start).nextId = start.nextId + created.length := by
  induction created generalizing start with
  | nil => rfl
  | cons detection created ih =>
    simp only [List.foldl_cons, ih, createTrack, List.length_cons]
    omega

theorem applied_kept {d t : ℕ} (member : (d, t) ∈ s.appliedPairs m detections context)
    {track : InternalTrack κ}
    (after : (s.secondRound m detections context).tracks[t]? = some track) :
    track ∈ (s.kept m detections context).tracks := by
  rw [secondRound_tracks, List.getElem?_map] at after
  obtain ⟨⟨cell, mark⟩, at_, rfl⟩ := Option.map_eq_some_iff.mp after
  have marked : mark = true := by
    cases mark with
    | true => rfl
    | false => exact absurd member (unmarked_untouched m s detections context at_ d)
  subst marked
  rw [kept_eq]
  simp only [survive_eq]
  exact List.mem_filterMap.mpr ⟨(cell, true), List.mem_of_getElem? at_, rfl⟩

/-- One update, in terms of the pairs that were applied. -/
structure Associates : Prop where
  detections_once : ((s.appliedPairs m detections context).map Prod.fst).Nodup
  tracks_once : ((s.appliedPairs m detections context).map Prod.snd).Nodup
  /-- A pair fits together and leaves its detection on its track, which stays. -/
  applied : ∀ d t, (d, t) ∈ s.appliedPairs m detections context → ∃ detection track,
    Fits m s detections context d t detection track ∧
    s.config.lowThresh < detection.confidence ∧
    (s.secondRound m detections context).tracks[t]? =
      some (applyDetection s.config context detection track) ∧
    appendTrajectory s.config context (applyDetection s.config context detection track) ∈
      (s.update m detections context).1.tracks
  untouched : ∀ t, (∀ d, (d, t) ∉ s.appliedPairs m detections context) →
    (s.secondRound m detections context).tracks[t]? = (s.predicted context)[t]?
  /-- One new track for each high-score detection that was not applied, in their order. -/
  created : (s.update m detections context).1.tracks = ((s.kept m detections context).tracks ++
    ((s.createdFrom m detections context).map (fun d => detections.getD d {})).mapIdx
      (fun i detection => newTrack s.config context (s.nextId + i) detection)).map
      (appendTrajectory s.config context)
  survivors : Survivors (s.kept m detections context).tracks s.tracks
  /-- Each track that such a detection fits was taken by a better one. -/
  blocked : ∀ d ∈ s.createdFrom m detections context, ∀ t detection track,
    Fits m s detections context d t detection track → ∃ d' detection',
      (d', t) ∈ s.appliedPairs m detections context ∧ detections[d']? = some detection' ∧
      s.config.highThresh < detection'.confidence ∧
      overlap m detection track ≤ overlap m detection' track
  low_creates_nothing : ∀ d detection, detections[d]? = some detection →
    detection.confidence ≤ s.config.highThresh → d ∉ s.createdFrom m detections context
  /-- What a low-score detection takes, no high-score one took. -/
  low_takes_leftovers : ∀ d t detection, (d, t) ∈ s.appliedPairs m detections context →
    detections[d]? = some detection → detection.confidence ≤ s.config.highThresh →
    ∀ d' detection', (d', t) ∈ s.appliedPairs m detections context →
      detections[d']? = some detection' → detection'.confidence ≤ s.config.highThresh
  noise : s.update m (detections.filter (fun detection =>
    decide (s.config.lowThresh < detection.confidence))) context = s.update m detections context

theorem update_congr {detections' : List Detection}
    (high : detections'.filter (isHigh s.config) = detections.filter (isHigh s.config))
    (low : detections'.filter (isLow s.config) = detections.filter (isLow s.config)) :
    s.update m detections' context = s.update m detections context := by
  have first : s.firstCells m detections' context = s.firstCells m detections context := by
    rw [firstCells, firstCells, high]
  have second : s.secondCells m detections' context = s.secondCells m detections context := by
    rw [secondCells, secondCells, low, first]
  simp only [update, grown, kept_eq, unmatchedHigh_eq, second, high]

theorem noise_removed (ordered : s.config.lowThresh ≤ s.config.highThresh) :
    s.update m (detections.filter (fun detection =>
      decide (s.config.lowThresh < detection.confidence))) context =
      s.update m detections context := by
  apply update_congr
  · rw [List.filter_filter]
    apply List.filter_congr
    intro detection _
    rw [Bool.eq_iff_iff, Bool.and_eq_true, and_iff_left_iff_imp, isHigh, decide_eq_true_eq,
      decide_eq_true_eq]
    exact ordered.trans_lt
  · rw [List.filter_filter]
    apply List.filter_congr
    intro detection _
    rw [Bool.eq_iff_iff, Bool.and_eq_true, and_iff_left_iff_imp, isLow, Bool.and_eq_true]
    exact And.right

theorem confidence_of_isHigh {config : TrackerConfig} {detection : Detection} :
    isHigh config detection = true ↔ config.highThresh < detection.confidence := decide_eq_true_iff

omit [KalmanBoxFilter κ] in
theorem above_low (ordered : s.config.lowThresh ≤ s.config.highThresh) {detection : Detection}
    (taken : isHigh s.config detection = true ∨ isLow s.config detection = true) :
    s.config.lowThresh < detection.confidence := by
  rcases taken with high | low
  · exact ordered.trans_lt (confidence_of_isHigh.mp high)
  · rw [isLow, Bool.and_eq_true, decide_eq_true_eq] at low
    exact low.2

theorem mem_createdFrom (d : ℕ) : d ∈ s.createdFrom m detections context ↔
    d ∈ indices (isHigh s.config) detections ∧
      d ∉ (s.appliedPairs m detections context).map Prod.fst := by
  rw [createdFrom, indices, List.mem_filter, List.mem_filter, Bool.and_eq_true, decide_eq_true_eq,
    and_assoc]

theorem update_associates (ordered : s.config.lowThresh ≤ s.config.highThresh) :
    Associates m s detections context := by
  have apart := appliedPairs_apart m s detections context
  constructor
  · exact List.pairwise_map.mpr (apart.imp (fun h => h.1))
  · exact List.pairwise_map.mpr (apart.imp (fun h => h.2))
  · intro d t member
    obtain ⟨detection, track, fits, taken, after⟩ := applied_spec m s detections context member
    refine ⟨detection, track, fits, above_low s ordered taken, after, ?_⟩
    change _ ∈ (s.grown m detections context).tracks.map _
    rw [grown, createTracks_tracks]
    exact List.mem_map_of_mem (List.mem_append_left _ (applied_kept m s detections context member
      after))
  · exact fun t free => untouched_spec m s detections context free
  · change (s.grown m detections context).tracks.map _ = _
    rw [grown, createTracks_tracks, unmatchedHigh_createdFrom]
    rfl
  · exact (kept_spec m s detections context).1
  · intro d member t detection track fits
    obtain ⟨listed, unused⟩ := (mem_createdFrom m s detections context d).mp member
    obtain ⟨other, present, high⟩ := (mem_indices detections _ d).mp listed
    cases Option.some.inj (present.symm.trans fits.present)
    obtain ⟨d', detection', member', present', high', heavier⟩ :=
      blocked m s detections context high unused fits
    exact ⟨d', detection', member', present', confidence_of_isHigh.mp high', heavier⟩
  · intro d detection present low member
    obtain ⟨listed, _⟩ := (mem_createdFrom m s detections context d).mp member
    obtain ⟨other, there, high⟩ := (mem_indices detections _ d).mp listed
    cases Option.some.inj (there.symm.trans present)
    exact absurd (confidence_of_isHigh.mp high) (not_lt.mpr low)
  · intro d t detection member present low d' detection' member' present'
    have nodup : ((s.appliedPairs m detections context).map Prod.snd).Nodup :=
      List.pairwise_map.mpr (apart.imp (fun h => h.2))
    cases List.inj_on_of_nodup_map nodup member member' rfl
    cases Option.some.inj (present.symm.trans present')
    exact low
  · exact noise_removed m s detections context ordered

/-- A box with a track, a faint one beside it and a new one. -/
theorem still_update_associates :
    let box (x : ℤ) (confidence : ℚ) : Detection :=
      { classId := 1, confidence := confidence, box := ⟨x, 10, 20, 20⟩ }
    let s : ByteTrackTracker Rect := { config := {} }
    Associates .exact (s.update .exact [box 10 (9 / 10)] {}).1
      [box 10 (9 / 10), box 12 (3 / 10), box 90 (9 / 10)] {} :=
  update_associates .exact _ _ _ (by decide +kernel)

end VisionLab.ByteTrackTracker
