import VisionLab.Tracking.KalmanBoxFilter
import VisionLab.Tracking.TrackHistory

/-! The boxes of live tracks. The tracker asks the filter of each track for a prediction in every
update, and tells it at most one measurement after that. -/
namespace VisionLab.ByteTrackTracker

open Kalman

variable [CvKalman] (m : Arithmetic) (s : ByteTrackTracker KalmanBox)
  (detections : List Detection) (context : TrackUpdateContext)

/-- The filter of a track after an update, by its filter before. -/
inductive Moved (before : KalmanBox) : KalmanBox → Prop
  | missed : Moved before (before.predict (deltaSeconds s.lastTimestamp context.timestamp))
  | matched (detection : Detection) (member : detection ∈ detections)
      (between : ∀ i,
        let ahead := before.predict (deltaSeconds s.lastTimestamp context.timestamp)
        let after := ahead.update detection.box
        min (ahead.m_filter.statePost (.inl i)) (xyahFromRect detection.box i) ≤
            after.m_filter.statePost (.inl i) ∧
          after.m_filter.statePost (.inl i) ≤
            max (ahead.m_filter.statePost (.inl i)) (xyahFromRect detection.box i)) :
      Moved before
        ((before.predict (deltaSeconds s.lastTimestamp context.timestamp)).update detection.box)

/-- Filters that the tracker can have: new ones, and those that were asked for a prediction first. -/
inductive Asked : KalmanBox → Prop
  | new (box : Rect) : Asked (KalmanBox.init box)
  | further (box : Rect) (first : ℚ) (calls : List BoxCall) :
    Asked (KalmanBox.after box (.predict first :: calls))

theorem Asked.predict {k : KalmanBox} (asked : Asked k) (dt : ℚ) : Asked (k.predict dt) := by
  cases asked with
  | new box => exact .further box dt []
  | further box first calls =>
    have next := Asked.further box first (calls ++ [.predict dt])
    rwa [← List.cons_append, KalmanBox.after_concat] at next

theorem Asked.update {k : KalmanBox} (asked : Asked k) (dt : ℚ) (box : Rect) :
    Asked ((k.predict dt).update box) := by
  cases asked with
  | new start => exact .further start dt [.update box]
  | further start first calls =>
    have next := Asked.further start first (calls ++ [.predict dt] ++ [.update box])
    rwa [← List.cons_append, KalmanBox.after_concat, ← List.cons_append,
      KalmanBox.after_concat] at next

theorem asked_between {k : KalmanBox} (asked : Asked k) (dt : ℚ) (box : Rect) (i : Fin 4) :
    min ((k.predict dt).m_filter.statePost (.inl i)) (xyahFromRect box i) ≤
        ((k.predict dt).update box).m_filter.statePost (.inl i) ∧
      ((k.predict dt).update box).m_filter.statePost (.inl i) ≤
        max ((k.predict dt).m_filter.statePost (.inl i)) (xyahFromRect box i) := by
  cases asked with
  | new start => exact (KalmanBox.coordinate_update start dt [] box i).1
  | further start first calls =>
    have corrected := (KalmanBox.coordinate_update start first (calls ++ [.predict dt]) box i).1
    rw [← List.cons_append, KalmanBox.after_concat] at corrected
    exact corrected

theorem rectFromState_visible (state : BoxState → ℚ) :
    1 ≤ (rectFromState state).width ∧ 1 ≤ (rectFromState state).height :=
  ⟨le_max_left .., le_max_left ..⟩

theorem Asked.visible {k : KalmanBox} (asked : Asked k) :
    1 ≤ k.m_box.width ∧ 1 ≤ k.m_box.height := by
  cases asked with
  | new box => exact rectFromState_visible _
  | further box first calls =>
    rw [(KalmanBox.after_uncoupled_axes box first calls).choose_spec.2]
    exact rectFromState_visible _

theorem kept_cell {kept : InternalTrack KalmanBox}
    (member : kept ∈ (s.kept m detections context).tracks) :
    ∃ earlier ∈ s.tracks, kept.id = earlier.id ∧
      (kept.kalman = (s.ahead context earlier).kalman ∨ ∃ detection ∈ detections,
        kept.kalman = (s.ahead context earlier).kalman.update detection.box) := by
  rw [kept_eq, survive_eq] at member
  obtain ⟨cell, there, survives⟩ := List.mem_filterMap.mp member
  obtain ⟨t, here⟩ := List.mem_iff_getElem?.mp there
  obtain ⟨earlier, before⟩ := cell_track m s detections context here
  have present := predicted_getElem? s context before
  refine ⟨earlier, List.mem_of_getElem? before, ?_⟩
  by_cases free : ∀ d, (d, t) ∉ s.appliedPairs m detections context
  · rw [untouched_cell m s detections context free, present] at here
    obtain rfl := Option.some.inj here
    change fate s.config (s.ahead context earlier, false) = some kept at survives
    simp only [fate, Bool.false_eq_true, if_false] at survives
    split at survives
    · cases survives
    · split at survives
      · cases survives
      · obtain rfl := Option.some.inj survives
        exact ⟨rfl, Or.inl rfl⟩
  · obtain ⟨d, applied⟩ := not_forall_not.mp free
    obtain ⟨detection, track, fits, marked⟩ := applied_cell m s detections context applied
    obtain rfl := Option.some.inj (present.symm.trans fits.predicted)
    obtain rfl := Option.some.inj (marked.symm.trans here)
    obtain rfl := Option.some.inj survives
    exact ⟨rfl, Or.inr ⟨detection, List.mem_of_getElem? fits.present, rfl⟩⟩

theorem unmatchedHigh_subset :
    ∀ detection ∈ s.unmatchedHigh m detections context, detection ∈ detections := by
  intro detection member
  rw [unmatchedHigh_createdFrom] at member
  obtain ⟨d, from_, rfl⟩ := List.mem_map.mp member
  have inside := List.mem_range.mp (List.mem_filter.mp from_).1
  rw [List.getD_eq_getElem _ _ inside]
  exact List.getElem_mem inside

/-- Where the filters of the tracks after an update come from. -/
theorem update_filter (later : InternalTrack KalmanBox)
    (member : later ∈ (s.update m detections context).1.tracks) :
    (∃ detection ∈ detections, later.kalman = KalmanBox.init detection.box) ∨
      ∃ earlier ∈ s.tracks, later.id = earlier.id ∧
        (later.kalman = (s.ahead context earlier).kalman ∨ ∃ detection ∈ detections,
          later.kalman = (s.ahead context earlier).kalman.update detection.box) := by
  obtain ⟨track, grown_, rfl⟩ := List.mem_map.mp member
  rw [grown, createTracks_tracks, List.mem_append] at grown_
  rcases grown_ with kept_ | created
  · obtain ⟨earlier, before, id, moved⟩ := kept_cell m s detections context kept_
    exact Or.inr ⟨earlier, before, id, moved⟩
  · obtain ⟨i, bound, rfl⟩ := List.mem_mapIdx.mp created
    refine Or.inl ⟨_, ?_, rfl⟩
    exact unmatchedHigh_subset m s detections context _ (List.getElem_mem bound)

section Run

variable {m s} {frames : List (List Detection × TrackUpdateContext)}

theorem stateAt_asked (started : Started s) (k : ℕ) :
    ∀ track ∈ (stateAt m s frames k).tracks, Asked track.kalman := by
  induction k with
  | zero =>
    intro track member
    have none_yet : (stateAt m s frames 0).tracks = [] := started.tracks
    rw [none_yet] at member
    cases member
  | succ k ih =>
    cases there : frames[k]? with
    | none =>
      have ended : stateAt m s frames (k + 1) = stateAt m s frames k := by
        have short := List.getElem?_eq_none_iff.mp there
        rw [stateAt, stateAt, List.take_of_length_le short, List.take_of_length_le (by omega)]
      rw [ended]
      exact ih
    | some frame =>
      intro later member
      rw [stateAt_succ there] at member
      obtain ⟨detection, -, new⟩ | ⟨earlier, before, -, moved⟩ := update_filter m _ _ _ later member
      · rw [new]
        exact .new detection.box
      · obtain missed | ⟨detection, -, matched⟩ := moved
        · rw [missed]
          exact (ih earlier before).predict _
        · rw [matched]
          exact (ih earlier before).update _ _

variable (m) in
/-- In every run every live track shows a box that can be seen. In each update its filter is new, or
it made one prediction from where it was, or it was told one detection of the frame after that, and
then each coordinate lies between the predicted one and the detected one. -/
theorem live_boxes (started : Started s) {k : ℕ}
    {frame : List Detection × TrackUpdateContext} (there : frames[k]? = some frame)
    (later : InternalTrack KalmanBox)
    (member : later ∈ (stateAt m s frames (k + 1)).tracks) :
    (1 ≤ later.kalman.m_box.width ∧ 1 ≤ later.kalman.m_box.height) ∧
      ((∃ detection ∈ frame.1, later.kalman = KalmanBox.init detection.box) ∨
        ∃ earlier ∈ (stateAt m s frames k).tracks, later.id = earlier.id ∧
          Moved (stateAt m s frames k) frame.1 frame.2 earlier.kalman later.kalman) := by
  refine ⟨(stateAt_asked started (k + 1) later member).visible, ?_⟩
  rw [stateAt_succ there] at member
  obtain new | ⟨earlier, before, id, moved⟩ := update_filter m _ _ _ later member
  · exact Or.inl new
  · refine Or.inr ⟨earlier, before, id, ?_⟩
    obtain missed | ⟨detection, present, matched⟩ := moved
    · rw [missed]
      exact .missed
    · rw [matched]
      exact .matched detection present
        (asked_between (stateAt_asked started k earlier before) _ detection.box)

end Run

def kalmanTracker : ByteTrackTracker KalmanBox := { config := {} }

omit [CvKalman] in
theorem live_boxes_exact :
    letI := exactKalman
    ∃ later ∈ (stateAt .exact kalmanTracker stillFrames 1).tracks,
      (1 ≤ later.kalman.m_box.width ∧ 1 ≤ later.kalman.m_box.height) ∧
        ((∃ detection ∈ [still], later.kalman = KalmanBox.init detection.box) ∨
          ∃ earlier ∈ (stateAt .exact kalmanTracker stillFrames 0).tracks, later.id = earlier.id ∧
            Moved (stateAt .exact kalmanTracker stillFrames 0) [still] { frameId := 1 }
              earlier.kalman later.kalman) := by
  let : CvKalman := exactKalman
  have alive : 0 < (stateAt .exact kalmanTracker stillFrames 1).tracks.length := by decide +kernel
  obtain ⟨later, member⟩ := List.exists_mem_of_length_pos alive
  exact ⟨later, member, live_boxes .exact (.constructed _) (k := 0) rfl later member⟩

end VisionLab.ByteTrackTracker
