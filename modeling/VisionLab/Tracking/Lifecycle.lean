import Mathlib.Data.List.Nodup
import Mathlib.Order.Interval.Set.OrdConnected
import VisionLab.Tracking.ByteTrackTracker

/-! The life of a track. An update changes tracks, drops some of them and appends new ones; it
never gives an identifier twice and never makes a visible track tentative again. -/
namespace VisionLab.ByteTrackTracker

section Survival

variable {κ : Type}

def Continues (later earlier : InternalTrack κ) : Prop :=
  later.id = earlier.id ∧ (earlier.state ≠ .tentative → later.state ≠ .tentative)

/-- Some of the tracks in `before`, in their order and each possibly changed. -/
def Survivors (after before : List (InternalTrack κ)) : Prop :=
  List.SublistForall₂ Continues after before

theorem Continues.refl (track : InternalTrack κ) : Continues track track := ⟨rfl, id⟩

theorem Continues.trans {a b c : InternalTrack κ} (h : Continues a b) (h' : Continues b c) :
    Continues a c := ⟨h.1.trans h'.1, fun visible => h.2 (h'.2 visible)⟩

instance : Std.Refl (Continues (κ := κ)) := ⟨Continues.refl⟩
instance : IsTrans (InternalTrack κ) Continues := ⟨fun _ _ _ => Continues.trans⟩

theorem Survivors.refl (tracks : List (InternalTrack κ)) : Survivors tracks tracks :=
  List.SublistForall₂.is_refl.refl tracks

theorem Survivors.trans {a b c : List (InternalTrack κ)} (h : Survivors a b)
    (h' : Survivors b c) : Survivors a c := List.SublistForall₂.is_trans.trans a b c h h'

theorem Survivors.map (change : InternalTrack κ → InternalTrack κ)
    (same : ∀ track, Continues (change track) track) (tracks : List (InternalTrack κ)) :
    Survivors (tracks.map change) tracks := by
  induction tracks with
  | nil => exact .nil
  | cons track tracks ih => exact .cons (same track) ih

theorem Survivors.modify (change : InternalTrack κ → InternalTrack κ)
    (same : ∀ track, Continues (change track) track) (tracks : List (InternalTrack κ)) (i : ℕ) :
    Survivors (tracks.modify i change) tracks := by
  induction tracks generalizing i with
  | nil => rw [List.modify_nil]; exact .nil
  | cons track tracks ih =>
    cases i with
    | zero => exact .cons (same track) (Survivors.refl tracks)
    | succ i =>
      rw [List.modify_succ_cons]
      exact .cons (Continues.refl track) (ih i)

theorem Survivors.ids {after before : List (InternalTrack κ)} (h : Survivors after before) :
    (after.map InternalTrack.id).Sublist (before.map InternalTrack.id) := by
  induction h with
  | nil => exact List.nil_sublist _
  | cons same _ ih =>
    rw [List.map_cons, List.map_cons, same.1]
    exact ih.cons_cons _
  | cons_right _ ih => exact ih.cons _

theorem Survivors.mem {after before : List (InternalTrack κ)} (h : Survivors after before) :
    ∀ later ∈ after, ∃ earlier ∈ before, Continues later earlier := by
  induction h with
  | nil => intro later hl; cases hl
  | cons same _ ih =>
    intro later hl
    rcases List.mem_cons.mp hl with rfl | hl
    · exact ⟨_, List.mem_cons_self, same⟩
    · obtain ⟨earlier, he, h⟩ := ih later hl
      exact ⟨earlier, List.mem_cons_of_mem _ he, h⟩
  | cons_right _ ih =>
    intro later hl
    obtain ⟨earlier, he, h⟩ := ih later hl
    exact ⟨earlier, List.mem_cons_of_mem _ he, h⟩

theorem survive_survivors (config : TrackerConfig) (cells : List (InternalTrack κ × Bool))
    (stats : TrackerStats) : Survivors (survive config cells stats).1 (cells.map Prod.fst) := by
  induction cells generalizing stats with
  | nil => exact .nil
  | cons cell rest ih =>
    obtain ⟨track, used⟩ := cell
    cases used with
    | true => exact .cons (Continues.refl track) (ih stats)
    | false =>
      unfold survive
      dsimp only
      split
      · exact .cons_right (ih _)
      · split
        · exact .cons_right (ih _)
        · refine .cons ⟨rfl, ?_⟩ (ih _)
          intro _ h
          cases h

theorem survive_counts (config : TrackerConfig) (cells : List (InternalTrack κ × Bool))
    (stats : TrackerStats) :
    (survive config cells stats).2.createdTracks = stats.createdTracks ∧
      (survive config cells stats).2.removedTracks + (survive config cells stats).1.length =
        stats.removedTracks + cells.length := by
  induction cells generalizing stats with
  | nil => exact ⟨rfl, rfl⟩
  | cons cell rest ih =>
    obtain ⟨track, used⟩ := cell
    cases used with
    | true =>
      have counts := ih stats
      refine ⟨counts.1, ?_⟩
      simp only [survive, List.length_cons]
      omega
    | false =>
      unfold survive
      dsimp only
      split
      · have counts := ih { stats with removedTracks := stats.removedTracks + 1 }
        refine ⟨counts.1, counts.2.trans ?_⟩
        simp only [List.length_cons]
        omega
      · generalize lost : (if track.state = TrackState.lost then stats
          else { stats with lostTracks := stats.lostTracks + 1 }) = stats'
        have created : stats'.createdTracks = stats.createdTracks := by
          rw [← lost]; split <;> rfl
        have removed : stats'.removedTracks = stats.removedTracks := by
          rw [← lost]; split <;> rfl
        split
        · have counts := ih { stats' with removedTracks := stats'.removedTracks + 1 }
          refine ⟨counts.1.trans created, counts.2.trans ?_⟩
          simp only [List.length_cons, removed]
          omega
        · have counts := ih stats'
          refine ⟨counts.1.trans created, ?_⟩
          simp only [List.length_cons]
          omega

/- One step. -/

/-- What a step does to the list of tracks and to the counters: `old` is what it keeps and `new`
is what it creates. -/
structure Updated (before after : ByteTrackTracker κ) (old new : List (InternalTrack κ)) :
    Prop where
  tracks : after.tracks = old ++ new
  survivors : Survivors old before.tracks
  fresh : new.map InternalTrack.id = List.range' before.nextId new.length
  nextId : after.nextId = before.nextId + new.length
  created : after.stats.createdTracks = before.stats.createdTracks + new.length
  removed : after.stats.removedTracks + old.length =
    before.stats.removedTracks + before.tracks.length

/- The invariant of a run. -/

structure Live (s : ByteTrackTracker κ) : Prop where
  increasing : (s.tracks.map InternalTrack.id).Pairwise (· < ·)
  issued : ∀ track ∈ s.tracks, 1 ≤ track.id ∧ track.id < s.nextId
  created : s.stats.createdTracks + 1 = s.nextId
  alive : s.stats.createdTracks = s.stats.removedTracks + s.tracks.length

theorem reset_live (s : ByteTrackTracker κ) : Live s.reset := by
  constructor
  · exact List.Pairwise.nil
  · intro track h
    cases h
  · rfl
  · rfl

theorem Live.distinct {s : ByteTrackTracker κ} (live : Live s) :
    (s.tracks.map InternalTrack.id).Nodup := live.increasing.imp (fun less => Nat.ne_of_lt less)

theorem Updated.issued {before after : ByteTrackTracker κ} {old new : List (InternalTrack κ)}
    (h : Updated before after old new) : ∀ track ∈ new,
      before.nextId ≤ track.id ∧ track.id < after.nextId := by
  intro track ht
  have member := List.mem_map_of_mem (f := InternalTrack.id) ht
  rw [h.fresh, List.mem_range'_1, ← h.nextId] at member
  exact member

theorem Updated.live {before after : ByteTrackTracker κ} {old new : List (InternalTrack κ)}
    (h : Updated before after old new) (live : Live before) : Live after := by
  have issued : ∀ track ∈ old, 1 ≤ track.id ∧ track.id < before.nextId := by
    intro track ht
    obtain ⟨earlier, he, same⟩ := h.survivors.mem track ht
    rw [same.1]
    exact live.issued earlier he
  have first : 1 ≤ before.nextId := live.created ▸ Nat.le_add_left 1 _
  constructor
  · rw [h.tracks, List.map_append, List.pairwise_append]
    refine ⟨live.increasing.sublist h.survivors.ids, ?_, ?_⟩
    · rw [h.fresh]
      exact List.pairwise_lt_range'
    · intro i hi j hj
      obtain ⟨a, ha, rfl⟩ := List.mem_map.mp hi
      obtain ⟨b, hb, rfl⟩ := List.mem_map.mp hj
      exact (issued a ha).2.trans_le (h.issued b hb).1
  · intro track ht
    rw [h.tracks] at ht
    rcases List.mem_append.mp ht with ht | ht
    · exact ⟨(issued track ht).1, (issued track ht).2.trans_le (h.nextId ▸ Nat.le_add_right _ _)⟩
    · exact ⟨first.trans (h.issued track ht).1, (h.issued track ht).2⟩
  · rw [h.created, h.nextId, ← live.created]
    omega
  · have removed := h.removed
    have alive := live.alive
    rw [h.created, h.tracks, List.length_append]
    omega

/- The visible tracks of a state, and what an update makes of one. -/

def Visible (s : ByteTrackTracker κ) (id : ℕ) : Prop :=
  ∃ track ∈ s.tracks, track.id = id ∧ track.state ≠ .tentative

def Gone (s : ByteTrackTracker κ) (id : ℕ) : Prop :=
  id < s.nextId ∧ ∀ track ∈ s.tracks, track.id ≠ id

theorem Updated.gone {before after : ByteTrackTracker κ} {old new : List (InternalTrack κ)}
    (h : Updated before after old new) {id : ℕ} (gone : Gone before id) : Gone after id := by
  refine ⟨gone.1.trans_le (h.nextId ▸ Nat.le_add_right _ _), ?_⟩
  intro track ht same
  rw [h.tracks] at ht
  rcases List.mem_append.mp ht with ht | ht
  · obtain ⟨earlier, he, continues⟩ := h.survivors.mem track ht
    exact gone.2 earlier he (continues.1.symm.trans same)
  · have := (h.issued track ht).1
    have := gone.1
    omega

theorem Updated.visible {before after : ByteTrackTracker κ} {old new : List (InternalTrack κ)}
    (h : Updated before after old new) (live : Live before) {id : ℕ} (visible : Visible before id) :
    Visible after id ∨ Gone after id := by
  obtain ⟨track, ht, rfl, shown⟩ := visible
  by_cases there : ∃ later ∈ after.tracks, later.id = track.id
  · obtain ⟨later, hl, same⟩ := there
    refine Or.inl ⟨later, hl, same, ?_⟩
    rw [h.tracks] at hl
    rcases List.mem_append.mp hl with hl | hl
    · obtain ⟨earlier, he, continues⟩ := h.survivors.mem later hl
      have unique := List.inj_on_of_nodup_map live.distinct he ht (continues.1.symm.trans same)
      exact continues.2 (unique ▸ shown)
    · have := (h.issued later hl).1
      have := (live.issued track ht).2
      omega
  · refine Or.inr ⟨?_, fun later hl same => there ⟨later, hl, same⟩⟩
    exact (live.issued track ht).2.trans_le (h.nextId ▸ Nat.le_add_right _ _)

theorem not_visible_of_gone {s : ByteTrackTracker κ} {id : ℕ} (gone : Gone s id) :
    ¬ Visible s id := by
  rintro ⟨track, ht, same, _⟩
  exact gone.2 track ht same

end Survival

variable {κ : Type} [KalmanBoxFilter κ]

/- The association keeps the tracks in place. -/

theorem applyDetection_continues (config : TrackerConfig) (context : TrackUpdateContext)
    (detection : Detection) (track : InternalTrack κ) :
    Continues (applyDetection config context detection track) track := by
  refine ⟨rfl, fun visible => ?_⟩
  unfold applyDetection
  dsimp only
  split
  · exact TrackState.noConfusion
  · exact visible

structure Follows (after before : Round κ) : Prop where
  tracks : Survivors after.tracks before.tracks
  length : after.tracks.length = before.tracks.length
  flags : after.trackUsed.length = before.trackUsed.length

theorem applyMatches_follows (config : TrackerConfig) (detections : List Detection)
    (context : TrackUpdateContext) (detIndices : List ℕ) (detPos trackPos : Association → ℕ)
    (found : List Association) (round : Round κ) :
    Follows (found.foldl (fun round association => applyMatch config detections context detIndices
      round (detPos association) (trackPos association)) round) round := by
  induction found generalizing round with
  | nil => exact ⟨Survivors.refl _, rfl, rfl⟩
  | cons association found ih =>
    rw [List.foldl_cons]
    generalize next : applyMatch config detections context detIndices round
      (detPos association) (trackPos association) = applied
    have rest := ih applied
    subst next
    refine ⟨rest.tracks.trans (Survivors.modify _ ?_ _ _), ?_, ?_⟩
    · exact applyDetection_continues config context _
    · rw [rest.length, applyMatch, List.length_modify]
    · rw [rest.flags, applyMatch, List.length_set]

theorem associate_follows (m : Arithmetic) (config : TrackerConfig) (detections : List Detection)
    (context : TrackUpdateContext) (detIndices : List ℕ) (round : Round κ) :
    Follows (associate m config detections context detIndices round) round :=
  applyMatches_follows config detections context detIndices _ _ _ round

variable (m : Arithmetic) (s : ByteTrackTracker κ) (detections : List Detection)
  (context : TrackUpdateContext)

theorem secondRound_follows : Follows (s.secondRound m detections context)
    { tracks := s.predicted context
      trackUsed := List.replicate s.tracks.length false
      detUsed := [] } := by
  have first := associate_follows m s.config detections context (highIndices s.config detections)
    { tracks := s.predicted context
      trackUsed := List.replicate s.tracks.length false
      detUsed := List.replicate (highIndices s.config detections).length false }
  have second := associate_follows m s.config detections context (lowIndices s.config detections)
    { s.firstRound m detections context with
      detUsed := List.replicate (lowIndices s.config detections).length false }
  exact ⟨second.tracks.trans first.tracks, second.length.trans first.length,
    second.flags.trans first.flags⟩

theorem kept_spec : Survivors (s.kept m detections context).tracks s.tracks ∧
    (s.kept m detections context).stats.createdTracks = s.stats.createdTracks ∧
    (s.kept m detections context).stats.removedTracks +
      (s.kept m detections context).tracks.length = s.stats.removedTracks + s.tracks.length := by
  have follows := secondRound_follows m s detections context
  generalize matched : s.secondRound m detections context = round at follows
  have length : round.tracks.length = s.tracks.length := by
    rw [follows.length]
    exact List.length_map _
  have flags : round.trackUsed.length = s.tracks.length := by
    rw [follows.flags]
    exact List.length_replicate
  have cells : (round.tracks.zip round.trackUsed).map Prod.fst = round.tracks :=
    List.map_fst_zip (by omega)
  have survivors := survive_survivors s.config (round.tracks.zip round.trackUsed) s.stats
  have counts := survive_counts s.config (round.tracks.zip round.trackUsed) s.stats
  have predicted : Survivors (s.predicted context) s.tracks :=
    Survivors.map (predictTrack _) (fun track => ⟨rfl, id⟩) s.tracks
  rw [cells] at survivors
  rw [List.length_zip, length, flags, Nat.min_self] at counts
  unfold kept
  rw [matched]
  exact ⟨survivors.trans (follows.tracks.trans predicted), counts⟩

theorem createTracks_updated (created : List Detection) (before after : ByteTrackTracker κ)
    (old new : List (InternalTrack κ)) (h : Updated before after old new) :
    ∃ new', Updated before (created.foldl (createTrack context) after) old new' := by
  induction created generalizing after new with
  | nil => exact ⟨new, h⟩
  | cons detection created ih =>
    apply ih (createTrack context after detection)
      (new ++ [newTrack after.config context after.nextId detection])
    · refine ⟨?_, h.survivors, ?_, ?_, ?_, h.removed⟩
      · simp only [createTrack, h.tracks, List.append_assoc]
      · rw [List.map_append, h.fresh, List.length_append, List.length_singleton,
          List.range'_1_concat, ← h.nextId]
        rfl
      · simp only [createTrack, h.nextId, List.length_append, List.length_singleton, Nat.add_assoc]
      · simp only [createTrack, h.created, List.length_append, List.length_singleton,
          Nat.add_assoc]

theorem grown_config : (s.grown m detections context).config = s.config := by
  have created : ∀ (t : ByteTrackTracker κ) (unmatched : List Detection),
      (unmatched.foldl (createTrack context) t).config = t.config := by
    intro t unmatched
    induction unmatched generalizing t with
    | nil => rfl
    | cons detection unmatched ih => exact ih (createTrack context t detection)
  simp [grown, created]

theorem update_config : (s.update m detections context).1.config = s.config :=
  grown_config m s detections context

/-- The one statement about an update that the results below use. -/
theorem update_updated : ∃ old new, Updated s (s.update m detections context).1 old new := by
  obtain ⟨survivors, created, removed⟩ := kept_spec m s detections context
  obtain ⟨new, h⟩ := createTracks_updated context (s.unmatchedHigh m detections context) s
    (s.kept m detections context) (s.kept m detections context).tracks []
    ⟨(List.append_nil _).symm, survivors, rfl, rfl, created, removed⟩
  have extend : ∀ tracks : List (InternalTrack κ),
      (tracks.map (appendTrajectory s.config context)).map InternalTrack.id =
        tracks.map InternalTrack.id := fun tracks => by rw [List.map_map]; rfl
  refine ⟨(s.kept m detections context).tracks.map (appendTrajectory s.config context),
    new.map (appendTrajectory s.config context), ?_, ?_, ?_, ?_, ?_, ?_⟩
  · rw [← List.map_append, ← h.tracks]
    rfl
  · exact (Survivors.map (appendTrajectory s.config context) (fun track => ⟨rfl, id⟩) _).trans
      h.survivors
  · rw [extend, List.length_map]
    exact h.fresh
  · rw [List.length_map]
    exact h.nextId
  · rw [List.length_map]
    exact h.created
  · rw [List.length_map]
    exact h.removed

theorem update_published : (s.update m detections context).2 =
    published (s.update m detections context).1.tracks := rfl

variable {s}

theorem update_live (live : Live s) : Live (s.update m detections context).1 := by
  obtain ⟨old, new, h⟩ := update_updated m s detections context
  exact h.live live

theorem mem_published (tracks : List (InternalTrack κ)) (id : ℕ) :
    id ∈ (published tracks).map Track.trackId ↔
      ∃ track ∈ tracks, track.id = id ∧ track.state ≠ .tentative := by
  simp only [published, List.map_map, List.mem_map, List.mem_filter, decide_eq_true_eq]
  constructor
  · rintro ⟨track, ⟨ht, visible⟩, rfl⟩
    exact ⟨track, ht, rfl, visible⟩
  · rintro ⟨track, ht, rfl, visible⟩
    exact ⟨track, ⟨ht, visible⟩, rfl⟩

theorem update_returns (id : ℕ) : id ∈ (s.update m detections context).2.map Track.trackId ↔
    Visible (s.update m detections context).1 id := by
  rw [update_published]
  exact mem_published _ id

/- Runs. -/

/-- The updates of a run, counted from 0, in which a track is returned. -/
def returnedIn (outputs : List (List Track)) (id : ℕ) : Set ℕ :=
  {i | ∃ output, outputs[i]? = some output ∧ id ∈ output.map Track.trackId}

theorem runUpdates_live (live : Live s) (frames : List (List Detection × TrackUpdateContext)) :
    Live (runUpdates m s frames).1 := by
  induction frames generalizing s with
  | nil => exact live
  | cons frame frames ih => exact ih (update_live m frame.1 frame.2 live)

theorem runUpdates_gone {id : ℕ} (gone : Gone s id)
    (frames : List (List Detection × TrackUpdateContext)) :
    ∀ i, i ∉ returnedIn (runUpdates m s frames).2 id := by
  induction frames generalizing s with
  | nil => rintro i ⟨output, present, _⟩; cases present
  | cons frame frames ih =>
    obtain ⟨old, new, h⟩ := update_updated m s frame.1 frame.2
    rintro (_ | i) ⟨output, present, member⟩
    · rw [← Option.some.inj present] at member
      exact not_visible_of_gone (h.gone gone) ((update_returns m frame.1 frame.2 id).mp member)
    · exact ih (h.gone gone) i ⟨output, present, member⟩

/-- From a state where a track is visible, it is returned up to some update and never after. -/
theorem runUpdates_visible {id : ℕ} (live : Live s) (visible : Visible s id)
    (frames : List (List Detection × TrackUpdateContext)) (i j : ℕ) (earlier : i ≤ j)
    (returned : j ∈ returnedIn (runUpdates m s frames).2 id) :
    i ∈ returnedIn (runUpdates m s frames).2 id := by
  induction frames generalizing s i j with
  | nil => obtain ⟨output, present, _⟩ := returned; cases present
  | cons frame frames ih =>
    obtain ⟨old, new, h⟩ := update_updated m s frame.1 frame.2
    rcases h.visible live visible with shown | gone
    · cases i with
      | zero => exact ⟨_, rfl, (update_returns m frame.1 frame.2 id).mpr shown⟩
      | succ i =>
        cases j with
        | zero => omega
        | succ j => exact ih (h.live live) shown i j (by omega) returned
    · exfalso
      cases j with
      | zero =>
        obtain ⟨output, present, member⟩ := returned
        rw [← Option.some.inj present] at member
        exact not_visible_of_gone gone ((update_returns m frame.1 frame.2 id).mp member)
      | succ j => exact runUpdates_gone m gone frames j returned

theorem runUpdates_contiguous (id : ℕ) (live : Live s)
    (frames : List (List Detection × TrackUpdateContext)) :
    (returnedIn (runUpdates m s frames).2 id).OrdConnected := by
  induction frames generalizing s with
  | nil => exact ⟨fun i hi => by obtain ⟨output, present, _⟩ := hi; cases present⟩
  | cons frame frames ih =>
    have next := update_live m frame.1 frame.2 live
    constructor
    rintro (_ | i) hi (_ | k) hk (_ | j) ⟨lower, upper⟩
    · exact hi
    · omega
    · exact hi
    · obtain ⟨output, present, member⟩ := hi
      rw [← Option.some.inj present] at member
      have shown := (update_returns m frame.1 frame.2 id).mp member
      exact runUpdates_visible m next shown frames j k (by omega) hk
    · omega
    · omega
    · omega
    · exact (ih next).out (x := i) (y := k) hi hk ⟨by omega, by omega⟩

inductive Started : ByteTrackTracker κ → Prop
  | constructed (config : TrackerConfig) : Started { config := config }
  | reset (s : ByteTrackTracker κ) : Started s.reset

omit [KalmanBoxFilter κ] in
theorem Started.live (started : Started s) : Live s := by
  cases started with
  | constructed config => exact reset_live { config := config }
  | reset s => exact reset_live s

/-- What an update leaves behind: the live tracks and the list it returns agree with the counters,
and identifiers are given in increasing order. -/
structure Accounted (s : ByteTrackTracker κ) (returned : List Track) : Prop where
  distinct : (s.tracks.map InternalTrack.id).Nodup
  issued : ∀ track ∈ s.tracks, 1 ≤ track.id ∧ track.id < s.nextId
  increasing : (returned.map Track.trackId).Pairwise (· < ·)
  created : s.stats.createdTracks = s.nextId - 1
  alive : s.stats.createdTracks - s.stats.removedTracks = s.tracks.length
  balance : s.stats.removedTracks ≤ s.stats.createdTracks
  active : s.stats.activeTracks = returned.length

theorem update_accounted (live : Live s) :
    Accounted (s.update m detections context).1 (s.update m detections context).2 := by
  have after := update_live m detections context live
  have created := after.created
  have alive := after.alive
  constructor
  · exact after.distinct
  · exact after.issued
  · rw [update_published, published, List.map_map]
    exact after.increasing.sublist (List.filter_sublist.map InternalTrack.id)
  · omega
  · omega
  · omega
  · rfl

/-- Identifiers are never reused and the returns of a track are never interrupted. -/
theorem track_identity (started : Started s)
    (frames : List (List Detection × TrackUpdateContext)) :
    Accounted ((runUpdates m s frames).1.update m detections context).1
      ((runUpdates m s frames).1.update m detections context).2 ∧
    ∀ id, (returnedIn (runUpdates m s frames).2 id).OrdConnected :=
  ⟨update_accounted m detections context (runUpdates_live m started.live frames),
    fun id => runUpdates_contiguous m id started.live frames⟩

/-- A box that stands still, is missed in one frame and comes back. -/
theorem still_track_identity :
    let box : Detection := { classId := 1, confidence := 9 / 10, box := ⟨10, 10, 20, 20⟩ }
    let s : ByteTrackTracker Rect := { config := { minHits := 1 } }
    let frames : List (List Detection × TrackUpdateContext) := [([box], {}), ([], {})]
    Accounted ((runUpdates .exact s frames).1.update .exact [box] {}).1
      ((runUpdates .exact s frames).1.update .exact [box] {}).2 ∧
    ∀ id, (returnedIn (runUpdates .exact s frames).2 id).OrdConnected :=
  track_identity .exact _ _ (.constructed _) _

end VisionLab.ByteTrackTracker
