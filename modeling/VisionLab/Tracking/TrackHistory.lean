import VisionLab.Tracking.Association

/-! The history of a live track: the update that created it, the last one that matched it, and what
its fields say about both. -/
namespace VisionLab.ByteTrackTracker

variable {κ : Type} [KalmanBoxFilter κ]

section Step

variable (m : Arithmetic) (s : ByteTrackTracker κ) (detections : List Detection)
  (context : TrackUpdateContext)

def ahead (track : InternalTrack κ) : InternalTrack κ :=
  predictTrack (deltaSeconds s.lastTimestamp context.timestamp) track

def Matches (id : ℕ) : Prop :=
  ∃ d t track, (d, t) ∈ s.appliedPairs m detections context ∧ s.tracks[t]? = some track ∧
    track.id = id

def Creates (id : ℕ) : Prop :=
  s.nextId ≤ id ∧ id < (s.update m detections context).1.nextId

/-- A live track after an update: matched, missed and lost, or new. -/
inductive Step (later : InternalTrack κ) : Prop
  | matched (earlier : InternalTrack κ) (detection : Detection) (member : earlier ∈ s.tracks)
      (matches_ : Matches m s detections context earlier.id)
      (same : later = appendTrajectory s.config context
        (applyDetection s.config context detection (s.ahead context earlier)))
  | missed (earlier : InternalTrack κ) (member : earlier ∈ s.tracks)
      (position : ∃ t, s.tracks[t]? = some earlier ∧
        ∀ d, (d, t) ∉ s.appliedPairs m detections context)
      (visible : earlier.state ≠ .tentative)
      (young : earlier.timeSinceUpdate + 1 ≤ s.config.maxLostFrames)
      (same : later = appendTrajectory s.config context
        { s.ahead context earlier with
          state := .lost, timeSinceUpdate := earlier.timeSinceUpdate + 1 })
  | created (id : ℕ) (detection : Detection) (creates : Creates m s detections context id)
      (same : later = appendTrajectory s.config context
        (newTrack s.config context id detection))

theorem cell_track {t : ℕ} {cell : Cell κ}
    (here : (s.secondCells m detections context)[t]? = some cell) :
    ∃ earlier, s.tracks[t]? = some earlier := by
  have length : (s.secondCells m detections context).length = s.tracks.length := by
    simp [secondCells, firstCells, startCells, play, predicted]
  have bound := (List.getElem?_eq_some_iff.mp here).1
  exact ⟨_, List.getElem?_eq_getElem (length ▸ bound)⟩

theorem predicted_getElem? {t : ℕ} {earlier : InternalTrack κ}
    (here : s.tracks[t]? = some earlier) :
    (s.predicted context)[t]? = some (s.ahead context earlier) := by
  simp [predicted, ahead, here]

theorem kept_step {kept : InternalTrack κ} (member : kept ∈ (s.kept m detections context).tracks) :
    Step m s detections context (appendTrajectory s.config context kept) := by
  rw [kept_eq, survive_eq] at member
  obtain ⟨cell, there, survives⟩ := List.mem_filterMap.mp member
  obtain ⟨t, here⟩ := List.mem_iff_getElem?.mp there
  obtain ⟨earlier, before⟩ := cell_track m s detections context here
  have present := predicted_getElem? s context before
  by_cases free : ∀ d, (d, t) ∉ s.appliedPairs m detections context
  · rw [untouched_cell m s detections context free, present] at here
    obtain rfl := Option.some.inj here
    change fate s.config (s.ahead context earlier, false) = some kept at survives
    by_cases visible : (s.ahead context earlier).state = .tentative
    · rw [fate_tentative s.config visible] at survives
      cases survives
    · by_cases old : s.config.maxLostFrames < (s.ahead context earlier).timeSinceUpdate + 1
      · rw [fate_expired s.config visible old] at survives
        cases survives
      · rw [fate_lost s.config visible old] at survives
        exact .missed earlier (List.mem_of_getElem? before) ⟨t, before, free⟩ visible
          (not_lt.mp old) (by rw [← Option.some.inj survives]; rfl)
  · obtain ⟨d, applied⟩ := not_forall_not.mp free
    obtain ⟨detection, track, fits, marked⟩ := applied_cell m s detections context applied
    obtain rfl := Option.some.inj (present.symm.trans fits.predicted)
    obtain rfl := Option.some.inj (marked.symm.trans here)
    rw [fate_used] at survives
    exact .matched earlier detection (List.mem_of_getElem? before)
      ⟨d, t, earlier, applied, before, rfl⟩ (by rw [← Option.some.inj survives])

/-- The one statement about the tracks of an update that the history needs. -/
theorem update_step {later : InternalTrack κ}
    (member : later ∈ (s.update m detections context).1.tracks) :
    Step m s detections context later := by
  obtain ⟨track, grown_, rfl⟩ := List.mem_map.mp member
  rw [grown, createTracks_tracks, List.mem_append] at grown_
  rcases grown_ with kept_ | created
  · exact kept_step m s detections context kept_
  · obtain ⟨i, bound, rfl⟩ := List.mem_mapIdx.mp created
    have next : (s.update m detections context).1.nextId =
        s.nextId + (s.unmatchedHigh m detections context).length := by
      simp only [update, grown, createTracks_nextId, kept_nextId]
    simp only [kept_config, kept_nextId]
    exact .created (s.nextId + i) _ ⟨by omega, by omega⟩ rfl

end Step

/- What the state of a track says about its counters. -/

structure Phase (config : TrackerConfig) (track : InternalTrack κ) : Prop where
  tentative : track.state = .tentative ↔ track.hits < config.minHits
  unbroken : track.state = .tentative → track.timeSinceUpdate = 0 ∧ track.hits = track.age
  confirmed : track.state = .confirmed → track.timeSinceUpdate = 0
  lost : track.state = .lost → config.minHits ≤ track.hits ∧ 1 ≤ track.timeSinceUpdate ∧
    track.timeSinceUpdate ≤ config.maxLostFrames

omit [KalmanBoxFilter κ] in
theorem Phase.waited {config : TrackerConfig} {track : InternalTrack κ} (phase : Phase config track) :
    0 ≤ track.timeSinceUpdate := by
  cases state : track.state with
  | tentative => exact (phase.unbroken state).1.ge
  | confirmed => exact (phase.confirmed state).ge
  | lost => exact le_trans (by omega) (phase.lost state).2.1

theorem Phase.step {m : Arithmetic} {s : ByteTrackTracker κ} {detections : List Detection}
    {context : TrackUpdateContext} (phases : ∀ track ∈ s.tracks, Phase s.config track)
    {later : InternalTrack κ} (step : Step m s detections context later) :
    Phase s.config later := by
  cases step with
  | matched earlier detection member _ same =>
    have phase := phases earlier member
    subst same
    by_cases enough : s.config.minHits ≤ earlier.hits + 1
    · constructor <;> simp [appendTrajectory, applyDetection, ahead, predictTrack, enough]
    · have before : earlier.state = .tentative := phase.tentative.mpr (by omega)
      have unbroken := phase.unbroken before
      constructor <;>
        simp [appendTrajectory, applyDetection, ahead, predictTrack, enough, before]
      · omega
      · omega
  | missed earlier member _ visible young same =>
    have phase := phases earlier member
    have hits : ¬earlier.hits < s.config.minHits := fun few => visible (phase.tentative.mpr few)
    have waited := phase.waited
    subst same
    constructor <;> simp [appendTrajectory, ahead, predictTrack] <;> omega
  | created id detection _ same =>
    subst same
    by_cases enough : s.config.minHits ≤ 1
    · constructor <;> simp [appendTrajectory, newTrack, enough]
    · constructor <;> simp [appendTrajectory, newTrack, enough]
      · omega

/- The last elements of a list. -/

/-- The last `limit` elements, or all of them where there are fewer. -/
def recent {α : Type} (limit : ℕ) (l : List α) : List α := l.drop (l.length - limit)

theorem recent_length {α : Type} (limit : ℕ) (l : List α) :
    (recent limit l).length = min l.length limit := by
  simp only [recent, List.length_drop]
  omega

theorem recent_concat {α : Type} (limit : ℕ) (l : List α) (x : α) :
    recent limit (recent limit l ++ [x]) = recent limit (l ++ [x]) := by
  by_cases few : l.length ≤ limit
  · have all : recent limit l = l := by simp [recent, Nat.sub_eq_zero_of_le few]
    rw [all]
  · have cut : recent limit l ++ [x] = (l ++ [x]).drop (l.length - limit) := by
      rw [recent, List.drop_append_of_le_length (by omega)]
    rw [cut, recent, recent, List.drop_drop]
    congr 1
    simp only [List.length_drop, List.length_append, List.length_singleton]
    omega

theorem recent_map {α β : Type} (limit : ℕ) (f : α → β) (l : List α) :
    (recent limit l).map f = recent limit (l.map f) := by
  simp [recent]

/- Runs. -/

section Run

variable (m : Arithmetic) (s : ByteTrackTracker κ)
  (frames : List (List Detection × TrackUpdateContext))

def stateAt (k : ℕ) : ByteTrackTracker κ := (runUpdates m s (frames.take k)).1

def CreatedIn (id k : ℕ) : Prop :=
  ∃ frame, frames[k]? = some frame ∧ Creates m (stateAt m s frames k) frame.1 frame.2 id

def TouchedIn (id k : ℕ) : Prop :=
  ∃ frame, frames[k]? = some frame ∧ (Creates m (stateAt m s frames k) frame.1 frame.2 id ∨
    Matches m (stateAt m s frames k) frame.1 frame.2 id)

def sample (context : TrackUpdateContext) (track : InternalTrack κ) : TrackPoint :=
  ⟨context.frameId, context.timestamp, centroidOf (KalmanBoxFilter.box track.kalman),
    KalmanBoxFilter.box track.kalman⟩

def sampleIn (id k : ℕ) : Option TrackPoint :=
  frames[k]?.bind fun frame =>
    ((stateAt m s frames (k + 1)).tracks.find? (fun track => decide (track.id = id))).map
      (sample frame.2)

/-- The history of a track that is alive after `k` updates: update `born` created it, and update
`last` is the last one that created or matched it. -/
structure Life (k : ℕ) (track : InternalTrack κ) (born last : ℕ) : Prop where
  created : CreatedIn m s frames track.id born
  touched : TouchedIn m s frames track.id last
  order : born ≤ last ∧ last < k
  untouched : ∀ j, last < j → j < k → ¬TouchedIn m s frames track.id j
  age : track.age = (k : ℤ) - born
  timeSinceUpdate : track.timeSinceUpdate = (k : ℤ) - 1 - last
  trajectory : track.trajectory.map some = recent s.config.maxTrajectoryPoints
    ((List.range' born (k - born)).map (sampleIn m s frames track.id))
  classId : ∀ j, born ≤ j → j < k → ∃ then_ ∈ (stateAt m s frames (j + 1)).tracks,
    then_.id = track.id ∧ then_.classId = track.classId

variable {m s frames}

theorem stateAt_succ {k : ℕ} {frame : List Detection × TrackUpdateContext}
    (there : frames[k]? = some frame) : stateAt m s frames (k + 1) =
      ((stateAt m s frames k).update m frame.1 frame.2).1 := by
  unfold stateAt
  induction frames generalizing s k with
  | nil => simp at there
  | cons first frames ih =>
    cases k with
    | zero =>
      obtain rfl := Option.some.inj there
      rfl
    | succ k => exact ih there

theorem stateAt_config (k : ℕ) : (stateAt m s frames k).config = s.config := by
  unfold stateAt
  induction frames generalizing s k with
  | nil => simp [runUpdates]
  | cons frame frames ih =>
    cases k with
    | zero => rfl
    | succ k => exact (ih k).trans (update_config m s frame.1 frame.2)

variable (m frames) in
theorem stateAt_live (live : Live s) (k : ℕ) : Live (stateAt m s frames k) :=
  runUpdates_live m live _

theorem sampleIn_eq (live : Live s) {k : ℕ} {frame : List Detection × TrackUpdateContext}
    (there : frames[k]? = some frame) {later : InternalTrack κ}
    (member : later ∈ (stateAt m s frames (k + 1)).tracks) :
    sampleIn m s frames later.id k = some (sample frame.2 later) := by
  have distinct := (stateAt_live m frames live (k + 1)).distinct
  cases found : (stateAt m s frames (k + 1)).tracks.find?
      (fun track => decide (track.id = later.id)) with
  | none => exact absurd (List.find?_eq_none.mp found later member) (by simp)
  | some other =>
    have same : other.id = later.id := by simpa using List.find?_some found
    have one := List.inj_on_of_nodup_map distinct (List.mem_of_find?_eq_some found) member same
    simp [sampleIn, there, found, one]

theorem trajectory_step {born k : ℕ} (born_le : born ≤ k) {limit : ℕ} {id : ℕ}
    {before : List TrackPoint} {point : TrackPoint}
    (here : sampleIn m s frames id k = some point)
    (trajectory : before.map some = recent limit
      ((List.range' born (k - born)).map (sampleIn m s frames id))) :
    (recent limit (before ++ [point])).map some = recent limit
      ((List.range' born (k + 1 - born)).map (sampleIn m s frames id)) := by
  have grows : k + 1 - born = k - born + 1 := by omega
  have last : born + (k - born) = k := by omega
  rw [recent_map, List.map_append, trajectory, grows, List.range'_1_concat, List.map_append,
    last, List.map_singleton, List.map_singleton, here, recent_concat]

theorem appendTrajectory_trajectory (config : TrackerConfig) (context : TrackUpdateContext)
    (track : InternalTrack κ) : (appendTrajectory config context track).trajectory =
      recent config.maxTrajectoryPoints (track.trajectory ++ [sample context track]) := rfl

theorem Life.next (live : Live s) {k : ℕ} {frame : List Detection × TrackUpdateContext}
    (there : frames[k]? = some frame) {earlier base : InternalTrack κ} {born last last' : ℕ}
    (life : Life m s frames k earlier born last)
    (member : appendTrajectory s.config frame.2 base ∈ (stateAt m s frames (k + 1)).tracks)
    (id : base.id = earlier.id) (classId : base.classId = earlier.classId)
    (age : base.age = earlier.age + 1) (path : base.trajectory = earlier.trajectory)
    (touched : TouchedIn m s frames earlier.id last') (order : born ≤ last' ∧ last' < k + 1)
    (untouched : ∀ j, last' < j → j < k + 1 → ¬TouchedIn m s frames earlier.id j)
    (waited : base.timeSinceUpdate = (k : ℤ) - last') :
    Life m s frames (k + 1) (appendTrajectory s.config frame.2 base) born last' := by
  have sampled := sampleIn_eq live there member
  have born_le : born ≤ k := by have := life.order; omega
  have same : (appendTrajectory s.config frame.2 base).id = earlier.id := id
  constructor
  · exact same ▸ life.created
  · exact same ▸ touched
  · exact order
  · exact same ▸ untouched
  · have := life.age
    change base.age = _
    push_cast
    omega
  · change base.timeSinceUpdate = _
    push_cast
    omega
  · rw [appendTrajectory_trajectory, path, same]
    exact trajectory_step born_le (same ▸ sampled) life.trajectory
  · intro j low high
    by_cases here : j = k
    · subst here
      exact ⟨_, member, rfl, rfl⟩
    · obtain ⟨then_, alive, own, class_⟩ := life.classId j low (by omega)
      exact ⟨then_, alive, own.trans id.symm, class_.trans classId.symm⟩

theorem Life.first (live : Live s) {k : ℕ} {frame : List Detection × TrackUpdateContext}
    (there : frames[k]? = some frame) {id : ℕ} {detection : Detection}
    (creates : Creates m (stateAt m s frames k) frame.1 frame.2 id)
    (member : appendTrajectory s.config frame.2 (newTrack s.config frame.2 id detection) ∈
      (stateAt m s frames (k + 1)).tracks) :
    Life m s frames (k + 1)
      (appendTrajectory s.config frame.2 (newTrack s.config frame.2 id detection)) k k := by
  have sampled := sampleIn_eq live there member
  have one : k + 1 - k = 1 := by omega
  constructor
  · exact ⟨frame, there, creates⟩
  · exact ⟨frame, there, .inl creates⟩
  · omega
  · intro j low high
    omega
  · simp [appendTrajectory, newTrack]
  · simp [appendTrajectory, newTrack]
  · rw [appendTrajectory_trajectory, recent_map, one]
    exact congrArg (fun point => recent s.config.maxTrajectoryPoints [point]) sampled.symm
  · intro j low high
    obtain rfl : j = k := by omega
    exact ⟨_, member, rfl, rfl⟩

theorem life_step (live : Live s) {k : ℕ} {frame : List Detection × TrackUpdateContext}
    (there : frames[k]? = some frame)
    (lives : ∀ track ∈ (stateAt m s frames k).tracks, ∃ born last,
      Life m s frames k track born last)
    {later : InternalTrack κ} (member : later ∈ (stateAt m s frames (k + 1)).tracks) :
    ∃ born last, Life m s frames (k + 1) later born last := by
  have carried := member
  rw [stateAt_succ there] at carried
  have step := update_step m (stateAt m s frames k) frame.1 frame.2 carried
  have now := stateAt_live m frames live k
  cases step with
  | matched earlier detection before matches_ same =>
    obtain ⟨born, last, life⟩ := lives earlier before
    have order := life.order
    rw [stateAt_config] at same
    subst same
    refine ⟨born, k, Life.next live there life member rfl rfl rfl rfl
      ⟨frame, there, .inr matches_⟩ ⟨by omega, by omega⟩ ?_ ?_⟩
    · intro j low high
      omega
    · exact (sub_self _).symm
  | missed earlier before position visible young same =>
    obtain ⟨born, last, life⟩ := lives earlier before
    have order := life.order
    have waited := life.timeSinceUpdate
    -- neither created nor matched here: the identifier is in use, and its position is free
    have untouched : ¬TouchedIn m s frames earlier.id k := by
      rintro ⟨other, here, creates | ⟨d, t, track, applied, present, own⟩⟩
      · have used := (now.issued earlier before).2
        exact absurd creates.1 (not_le.mpr used)
      · obtain rfl := Option.some.inj (there.symm.trans here)
        obtain ⟨u, place, free⟩ := position
        have one := List.inj_on_of_nodup_map now.distinct (List.mem_of_getElem? present) before own
        subst one
        have tu : t = u := (List.getElem?_inj (List.getElem?_eq_some_iff.mp present).1
          (List.Nodup.of_map _ now.distinct)).mp (present.trans place.symm)
        exact free d (tu ▸ applied)
    rw [stateAt_config] at same
    subst same
    refine ⟨born, last, Life.next live there life member rfl rfl rfl rfl life.touched
      ⟨order.1, by omega⟩ ?_ ?_⟩
    · intro j low high
      by_cases here : j = k
      · exact here ▸ untouched
      · exact life.untouched j low (by omega)
    · change earlier.timeSinceUpdate + 1 = _
      omega
  | created id detection creates same =>
    rw [stateAt_config] at same
    subst same
    exact ⟨k, k, Life.first live there creates member⟩

omit [KalmanBoxFilter κ] in
theorem Started.tracks (started : Started s) : s.tracks = [] := by
  cases started <;> rfl

theorem stateAt_phases (started : Started s) (k : ℕ) :
    ∀ track ∈ (stateAt m s frames k).tracks, Phase s.config track := by
  unfold stateAt
  generalize frames.take k = updates
  have none_yet : ∀ track ∈ s.tracks, Phase s.config track := by simp [started.tracks]
  clear started
  induction updates generalizing s with
  | nil => exact none_yet
  | cons frame updates ih =>
    rw [← update_config m s frame.1 frame.2]
    refine ih fun later member => ?_
    rw [update_config]
    exact Phase.step none_yet (update_step m s frame.1 frame.2 member)

theorem stateAt_lives (started : Started s) {k : ℕ} (reached : k ≤ frames.length) :
    ∀ track ∈ (stateAt m s frames k).tracks, ∃ born last, Life m s frames k track born last := by
  induction k with
  | zero =>
    intro track member
    have empty : (stateAt m s frames 0).tracks = [] := started.tracks
    rw [empty] at member
    cases member
  | succ k ih =>
    have there : frames[k]? = some frames[k] := List.getElem?_eq_getElem reached
    exact fun later member => life_step started.live there (ih (by omega)) member

variable (m) in
/-- After any number of updates every live track is in a phase that agrees with its counters, and
its counters, its trajectory and its class are those of its history. -/
theorem track_lifecycle (started : Started s)
    (frames : List (List Detection × TrackUpdateContext)) (k : ℕ) (reached : k ≤ frames.length)
    (track : InternalTrack κ) (alive : track ∈ (stateAt m s frames k).tracks) :
    Phase s.config track ∧
      ((track.trajectory.length : ℤ) = min track.age s.config.maxTrajectoryPoints) ∧
      ∃ born last, Life m s frames k track born last := by
  obtain ⟨born, last, life⟩ := stateAt_lives started reached track alive
  refine ⟨stateAt_phases started k track alive, ?_, born, last, life⟩
  have length := congrArg List.length life.trajectory
  rw [recent_length, List.length_map, List.length_map, List.length_range'] at length
  have age := life.age
  have order := life.order
  omega

end Run

/- A box that stands still for two updates and is then missed. -/

def still : Detection := { classId := 1, confidence := 9 / 10, box := ⟨10, 10, 20, 20⟩ }

def stillTracker : ByteTrackTracker Rect := { config := { minHits := 2, maxTrajectoryPoints := 2 } }

def stillFrames : List (List Detection × TrackUpdateContext) :=
  [([still], { frameId := 1 }), ([still], { frameId := 2 }), ([], { frameId := 3 })]

theorem still_track_lifecycle : ∃ track ∈ (stateAt .exact stillTracker stillFrames 3).tracks,
    track.state = .lost ∧ Phase stillTracker.config track ∧
      ((track.trajectory.length : ℤ) = min track.age stillTracker.config.maxTrajectoryPoints) ∧
      ∃ born last, Life .exact stillTracker stillFrames 3 track born last := by
  have lost : ∃ track ∈ (stateAt .exact stillTracker stillFrames 3).tracks,
      track.state = .lost := by decide +kernel
  obtain ⟨track, alive, state⟩ := lost
  exact ⟨track, alive, state, track_lifecycle .exact (.constructed _) stillFrames 3 (by decide)
    track alive⟩

end VisionLab.ByteTrackTracker
