import VisionLab.Lib.Ages
import VisionLab.Tracking.TrackHistory

/-! How many tracks there can be. An update puts no more tracks at the beginning of their wait than
it has detections, and no track waits longer than the configuration says. -/
namespace VisionLab.ByteTrackTracker

section Cells

variable {κ : Type}

/-- For how many updates each track has waited for a detection. -/
def waits (tracks : List (InternalTrack κ)) : List ℕ :=
  tracks.map (fun track => track.timeSinceUpdate.toNat)

def Turned (dt : ℚ) [KalmanBoxFilter κ] (earlier : InternalTrack κ) (cell : Cell κ) : Prop :=
  (cell.2 = true ∧ cell.1.timeSinceUpdate = 0) ∨ cell = (predictTrack dt earlier, false)

variable {config : TrackerConfig} {tracks : List (InternalTrack κ)} {cells : List (Cell κ)}

theorem fates_fresh (waited : ∀ cell ∈ cells, 0 ≤ cell.1.timeSinceUpdate) :
    (waits (cells.filterMap (fate config))).count 0 ≤ cells.countP Prod.snd := by
  induction cells with
  | nil => exact le_refl _
  | cons cell cells ih =>
    obtain ⟨first, rest⟩ := List.forall_mem_cons.mp waited
    have behind := ih rest
    obtain ⟨track, used⟩ := cell
    cases used with
    | true =>
      rw [List.filterMap_cons_some (fate_used config), List.countP_cons_of_pos rfl]
      simp only [waits, List.map_cons, List.count_cons] at behind ⊢
      split <;> omega
    | false =>
      rw [List.countP_cons_of_neg Bool.false_ne_true]
      by_cases tentative : track.state = .tentative
      · rwa [List.filterMap_cons_none (fate_tentative config tentative)]
      · by_cases old : config.maxLostFrames < track.timeSinceUpdate + 1
        · rwa [List.filterMap_cons_none (fate_expired config tentative old)]
        · rw [List.filterMap_cons_some (fate_lost config tentative old)]
          have waiting : (track.timeSinceUpdate + 1).toNat ≠ 0 := by
            simp only at first
            omega
          simpa [waits, List.count_cons, waiting] using behind

theorem fates_older [KalmanBoxFilter κ] {dt : ℚ} (turned : List.Forall₂ (Turned dt) tracks cells)
    (waited : ∀ track ∈ tracks, 0 ≤ track.timeSinceUpdate) (age : ℕ) :
    (waits (cells.filterMap (fate config))).count (age + 1) ≤ (waits tracks).count age := by
  induction turned with
  | nil => exact le_refl _
  | @cons earlier cell tracks cells here _ ih =>
    obtain ⟨first, rest⟩ := List.forall_mem_cons.mp waited
    have behind := ih rest
    have more : (waits tracks).count age ≤ (waits (earlier :: tracks)).count age :=
      List.count_le_count_cons
    obtain ⟨track, used⟩ := cell
    rcases here with ⟨marked, fresh⟩ | same
    · obtain rfl : used = true := marked
      simp only at fresh
      rw [List.filterMap_cons_some (fate_used config)]
      simp only [waits, List.map_cons, fresh, List.count_cons] at behind more ⊢
      exact (by simpa using behind.trans more)
    · cases same
      by_cases tentative : (predictTrack dt earlier).state = .tentative
      · rw [List.filterMap_cons_none (fate_tentative config tentative)]
        exact behind.trans more
      · by_cases old : config.maxLostFrames < (predictTrack dt earlier).timeSinceUpdate + 1
        · rw [List.filterMap_cons_none (fate_expired config tentative old)]
          exact behind.trans more
        · rw [List.filterMap_cons_some (fate_lost config tentative old)]
          have next : (earlier.timeSinceUpdate + 1).toNat = earlier.timeSinceUpdate.toNat + 1 := by
            omega
          simp only [waits, List.map_cons, predictTrack, next, List.count_cons] at behind ⊢
          simp only [beq_iff_eq, Nat.add_right_cancel_iff]
          omega

end Cells

variable {κ : Type} [KalmanBoxFilter κ] (m : Arithmetic) (s : ByteTrackTracker κ)
  (detections : List Detection) (context : TrackUpdateContext)

theorem secondCells_turned : List.Forall₂ (Turned (deltaSeconds s.lastTimestamp context.timestamp))
    s.tracks (s.secondCells m detections context) := by
  have length : (s.secondCells m detections context).length = s.tracks.length := by
    simp [secondCells, firstCells, startCells, play, predicted]
  refine List.forall₂_iff_get.mpr ⟨length.symm, ?_⟩
  intro t bound bound'
  have before : s.tracks[t]? = some (s.tracks.get ⟨t, bound⟩) := List.getElem?_eq_getElem bound
  have here : (s.secondCells m detections context)[t]? =
      some ((s.secondCells m detections context).get ⟨t, bound'⟩) :=
    List.getElem?_eq_getElem bound'
  have present := predicted_getElem? s context before
  by_cases free : ∀ d, (d, t) ∉ s.appliedPairs m detections context
  · rw [untouched_cell m s detections context free, present] at here
    exact Or.inr (Option.some.inj here).symm
  · obtain ⟨d, applied⟩ := not_forall_not.mp free
    obtain ⟨detection, track, -, marked⟩ := applied_cell m s detections context applied
    rw [← Option.some.inj (marked.symm.trans here)]
    exact Or.inl ⟨rfl, rfl⟩

theorem secondCells_marked :
    (s.secondCells m detections context).countP Prod.snd ≤
      (s.appliedPairs m detections context).length := by
  have marked : (s.secondCells m detections context).countP Prod.snd =
      (((s.secondCells m detections context).zipIdx.filter (fun x => x.1.2)).map Prod.snd).length := by
    conv_lhs => rw [← List.zipIdx_map_fst 0 (s.secondCells m detections context)]
    rw [List.countP_map, List.countP_eq_length_filter, List.length_map]
    rfl
  have positions : (((s.secondCells m detections context).zipIdx.filter
      (fun x => x.1.2)).map Prod.snd).Nodup := by
    have all : ((s.secondCells m detections context).zipIdx.map Prod.snd).Nodup := by
      rw [List.zipIdx_map_snd]
      exact List.nodup_range'
    exact all.sublist (List.filter_sublist.map Prod.snd)
  have applied : ((s.secondCells m detections context).zipIdx.filter (fun x => x.1.2)).map Prod.snd ⊆
      (s.appliedPairs m detections context).map Prod.snd := by
    intro t member
    obtain ⟨⟨cell, i⟩, listed, rfl⟩ := List.mem_map.mp member
    obtain ⟨there, used⟩ := List.mem_filter.mp listed
    have here := List.mk_mem_zipIdx_iff_getElem?.mp there
    by_contra unused
    have free : ∀ d, (d, i) ∉ s.appliedPairs m detections context :=
      fun d pair => unused (List.mem_map_of_mem (f := Prod.snd) pair)
    rw [untouched_cell m s detections context free] at here
    obtain ⟨track, -, same⟩ := Option.map_eq_some_iff.mp here
    rw [← same] at used
    cases used
  have few := (List.subperm_of_subset positions applied).length_le
  rwa [← marked, List.length_map] at few

/-- Every detection is applied once or makes one track, or is of no use. -/
theorem detections_spent : (s.appliedPairs m detections context).length +
    (s.unmatchedHigh m detections context).length ≤ detections.length := by
  have apart := appliedPairs_apart m s detections context
  have once : ((s.appliedPairs m detections context).map Prod.fst ++
      s.createdFrom m detections context).Nodup := by
    refine List.nodup_append.mpr ⟨?_, List.nodup_range.filter _, ?_⟩
    · exact List.pairwise_map.mpr (apart.imp (fun h => h.1))
    · intro d used e made same
      have unused := (List.mem_filter.mp made).2
      simp only [Bool.and_eq_true, decide_eq_true_eq] at unused
      exact unused.2 (same ▸ used)
  have inside : (s.appliedPairs m detections context).map Prod.fst ++
      s.createdFrom m detections context ⊆ List.range detections.length := by
    intro d member
    rcases List.mem_append.mp member with used | made
    · obtain ⟨⟨e, t⟩, pair, rfl⟩ := List.mem_map.mp used
      obtain ⟨detection, track, fits, -⟩ := applied_spec m s detections context pair
      exact List.mem_range.mpr (List.getElem?_eq_some_iff.mp fits.present).1
    · exact (List.mem_filter.mp made).1
  have total := (List.subperm_of_subset once inside).length_le
  simpa [unmatchedHigh_createdFrom] using total

theorem update_waits : waits (s.update m detections context).1.tracks =
    waits ((s.secondCells m detections context).filterMap (fate s.config)) ++
      List.replicate (s.unmatchedHigh m detections context).length 0 := by
  simp only [update, grown, createTracks_tracks, kept_eq, survive_eq, waits, List.map_append,
    List.map_map]
  refine congrArg₂ (· ++ ·) rfl (List.eq_replicate_iff.mpr ⟨by simp, ?_⟩)
  intro age member
  obtain ⟨track, made, rfl⟩ := List.mem_map.mp member
  obtain ⟨i, bound, rfl⟩ := List.mem_mapIdx.mp made
  rfl

/-- Few tracks, none of which waits too long or keeps too long a trajectory. -/
structure Compact (births : ℕ) (s : ByteTrackTracker κ) : Prop where
  waited : ∀ track ∈ s.tracks, 0 ≤ track.timeSinceUpdate
  ages : Ages.Bounded births s.config.maxLostFrames.toNat (waits s.tracks)
  trajectories : ∀ track ∈ s.tracks, track.trajectory.length ≤ s.config.maxTrajectoryPoints

omit [KalmanBoxFilter κ] in
theorem Compact.length_le {s : ByteTrackTracker κ} {births : ℕ} (h : s.Compact births) :
    s.tracks.length ≤ births * (s.config.maxLostFrames.toNat + 1) := by
  simpa [waits] using h.ages.length_le

omit [KalmanBoxFilter κ] in
theorem compact_of_empty {s : ByteTrackTracker κ} (empty : s.tracks = []) (births : ℕ) :
    s.Compact births := by
  refine ⟨by simp [empty], ?_, by simp [empty]⟩
  rw [waits, empty]
  exact .nil _ _

theorem published_length_le (tracks : List (InternalTrack κ)) :
    (published tracks).length ≤ tracks.length := by
  rw [published, List.length_map]
  exact List.length_filter_le _ _

theorem update_compact {s : ByteTrackTracker κ} {births : ℕ} (h : s.Compact births)
    (few : detections.length ≤ births) : (s.update m detections context).1.Compact births := by
  have config := update_config m s detections context
  have turned := secondCells_turned m s detections context
  have old : ∀ track ∈ (s.update m detections context).1.tracks,
      0 ≤ track.timeSinceUpdate ∧ track.timeSinceUpdate.toNat ≤ s.config.maxLostFrames.toNat ∧
        track.trajectory.length ≤ s.config.maxTrajectoryPoints := by
    intro track member
    cases update_step m s detections context member with
    | matched earlier detection _ _ same =>
      subst same
      simp only [appendTrajectory, applyDetection, List.length_drop]
      omega
    | missed earlier member _ _ young same =>
      have before := h.waited earlier member
      subst same
      simp only [appendTrajectory, List.length_drop]
      omega
    | created id detection _ same =>
      subst same
      simp only [appendTrajectory, newTrack, List.length_drop]
      omega
  have waited : ∀ cell ∈ s.secondCells m detections context, 0 ≤ cell.1.timeSinceUpdate := by
    intro cell member
    obtain ⟨t, here⟩ := List.mem_iff_get.mp member
    obtain ⟨length, each⟩ := List.forall₂_iff_get.mp turned
    have bound : t.1 < s.tracks.length := by
      rw [length]
      exact t.2
    rcases each t.1 bound t.2 with ⟨-, fresh⟩ | same
    · rw [← here]
      exact fresh.ge
    · rw [← here, same]
      exact h.waited (s.tracks.get ⟨t.1, bound⟩) (List.get_mem ..)
  refine ⟨fun track member => (old track member).1, ?_, ?_⟩
  · rw [config]
    refine h.ages.round ?_ ?_ ?_
    · intro age member
      obtain ⟨track, there, rfl⟩ := List.mem_map.mp member
      exact (old track there).2.1
    · have kept : (waits ((s.secondCells m detections context).filterMap (fate s.config))).count 0 ≤
          (s.appliedPairs m detections context).length :=
        (fates_fresh waited).trans (secondCells_marked m s detections context)
      have spent := detections_spent m s detections context
      rw [update_waits, List.count_append, List.count_replicate_self]
      omega
    · intro age
      have new : (List.replicate (s.unmatchedHigh m detections context).length 0).count
          (age + 1) = 0 := by simp [List.count_replicate]
      rw [update_waits, List.count_append, new, Nat.add_zero]
      exact fates_older turned h.waited age
  · rw [config]
    exact fun track member => (old track member).2.2

end VisionLab.ByteTrackTracker
