import Mathlib.Data.List.Nodup
import VisionLab.Plugin.PluginScan

/-! What a scan finds depends on the directory alone. The abstract catalogue knows no residents: it
asks every file for its verdict. The host with its residents refines it, because a resident is of an
accepted file and equivalent files have one verdict. -/
namespace VisionLab

structure Catalogue where
  metadata : List PluginMetadata := []
  errors : List String := []
  deriving DecidableEq, Repr

variable {δ : Type}

def LoadOutcome.metadata? : LoadOutcome δ → Option PluginMetadata
  | .plugin found => some found.metadata
  | .failed _ | .foreign => none

namespace PluginFiles

/-- Reading the metadata is a function of the file, whatever path leads to it. -/
def SameFile (files : PluginFiles δ) : Prop :=
  ∀ a b, files.equivalent a b = true → (files.load a).metadata? = (files.load b).metadata?

/-- The checks on one file, the ones that look at the catalogue left out. -/
def verdict (files : PluginFiles δ) (path : Path) : Except String PluginMetadata :=
  match files.load path with
  | .failed errorString => .error (path.text ++ ": " ++ errorString)
  | .foreign => .error (path.text ++ ": not a vision plugin (iid/interface)")
  | .plugin plugin =>
    if plugin.metadata.interfaceVersion ≠ 1 then
      .error (path.text ++ ": unsupported interfaceVersion")
    else if plugin.metadata.id = "" then .error (path.text ++ ": empty id")
    else .ok plugin.metadata

theorem verdict_eq_ok {files : PluginFiles δ} {path : Path} {m : PluginMetadata} :
    files.verdict path = .ok m ↔
      (files.load path).metadata? = some m ∧ m.interfaceVersion = 1 ∧ m.id ≠ "" := by
  unfold verdict
  cases files.load path with
  | failed errorString => simp [LoadOutcome.metadata?]
  | foreign => simp [LoadOutcome.metadata?]
  | plugin plugin =>
    simp only [LoadOutcome.metadata?, Option.some.injEq]
    constructor
    · intro accepted
      split at accepted
      · cases accepted
      · split at accepted
        · cases accepted
        · rename_i version named
          cases accepted
          exact ⟨rfl, not_not.mp version, named⟩
    · rintro ⟨rfl, version, named⟩
      rw [if_neg (not_not.mpr version), if_neg named]

end PluginFiles

namespace Catalogue

def report (text : String) (c : Catalogue) : Catalogue := { c with errors := c.errors ++ [text] }

def examine (files : PluginFiles δ) (path : Path) (c : Catalogue) : Catalogue :=
  if isNativeLibrary path then
    match files.verdict path with
    | .error text => c.report text
    | .ok m =>
      if c.metadata.any (fun other => other.id = m.id) then
        c.report (PluginHost.duplicate m.id path)
      else { c with metadata := c.metadata ++ [m] }
  else c

def examineAll (files : PluginFiles δ) : List Path → Catalogue → Catalogue
  | [], c => c
  | path :: rest, c =>
    match files.isRegularFile path with
    | none => c
    | some false => examineAll files rest c
    | some true => examineAll files rest (c.examine files path)

def ofDirectory (files : PluginFiles δ) (directory : Path) : Catalogue :=
  if files.isDirectory directory then examineAll files (files.entries directory) {} else {}

/-- Every id is there once, and none is empty. -/
structure Proper (c : Catalogue) : Prop where
  distinct : (c.metadata.map PluginMetadata.id).Nodup
  named : ∀ m ∈ c.metadata, m.id ≠ ""

theorem proper_empty : Proper {} := ⟨List.nodup_nil, fun _ member => absurd member List.not_mem_nil⟩

theorem Proper.examine {c : Catalogue} (proper : c.Proper) (files : PluginFiles δ) (path : Path) :
    (c.examine files path).Proper := by
  unfold Catalogue.examine
  split
  · split
    · exact ⟨proper.distinct, proper.named⟩
    · rename_i m accepted
      split
      · exact ⟨proper.distinct, proper.named⟩
      · rename_i fresh
        have other : m.id ∉ c.metadata.map PluginMetadata.id := by
          intro member
          obtain ⟨old, listed, same⟩ := List.mem_map.mp member
          exact fresh (List.any_eq_true.mpr ⟨old, listed, decide_eq_true same⟩)
        constructor
        · simp only [List.map_append, List.map_cons, List.map_nil]
          exact List.nodup_append.mpr ⟨proper.distinct, List.nodup_singleton _,
            fun a old b new same => other (List.mem_singleton.mp new ▸ same ▸ old)⟩
        · intro n member
          cases List.mem_append.mp member with
          | inl old => exact proper.named n old
          | inr new =>
            rw [List.mem_singleton.mp new]
            exact (PluginFiles.verdict_eq_ok.mp accepted).2.2
  · exact proper

theorem Proper.examineAll {c : Catalogue} (proper : c.Proper) (files : PluginFiles δ)
    (paths : List Path) : (Catalogue.examineAll files paths c).Proper := by
  induction paths generalizing c with
  | nil => exact proper
  | cons path rest ih =>
    simp only [Catalogue.examineAll]
    split
    · exact proper
    · exact ih proper
    · exact ih (proper.examine files path)

theorem proper_ofDirectory (files : PluginFiles δ) (directory : Path) :
    (ofDirectory files directory).Proper := by
  unfold ofDirectory
  split
  · exact proper_empty.examineAll files _
  · exact proper_empty

end Catalogue

namespace PluginHost

variable {files : PluginFiles δ} {h : PluginHost δ} {path : Path}

def view (h : PluginHost δ) : Catalogue := ⟨h.metadata, h.errors⟩

/-- The catalogue points into the residents, and a resident is of an accepted file. -/
structure Sound (files : PluginFiles δ) (h : PluginHost δ) : Prop where
  inside : ∀ i ∈ h.catalog, i < h.residents.length
  valid : ∀ r ∈ h.residents, files.verdict r.path = .ok r.plugin.metadata

theorem sound_empty (files : PluginFiles δ) : Sound files ({} : PluginHost δ) :=
  ⟨fun _ member => absurd member List.not_mem_nil, fun _ member => absurd member List.not_mem_nil⟩

/-- All that the scan of one library can do. -/
inductive Scanned (files : PluginFiles δ) (path : Path) (h : PluginHost δ) : PluginHost δ → Prop
  | refused {text : String} (verdict : files.verdict path = .error text) :
      Scanned files path h (h.report text)
  | doubled {m : PluginMetadata} (verdict : files.verdict path = .ok m)
      (known : h.catalogHasId m.id = true) :
      Scanned files path h (h.report (duplicate m.id path))
  | relisted {r : Resident δ} {i : ℕ} (verdict : files.verdict path = .ok r.plugin.metadata)
      (new : h.catalogHasId r.plugin.metadata.id = false) (found : h.residents[i]? = some r) :
      Scanned files path h { h with catalog := h.catalog ++ [i] }
  | loaded {plugin : Plugin δ} (verdict : files.verdict path = .ok plugin.metadata)
      (new : h.catalogHasId plugin.metadata.id = false) :
      Scanned files path h
        { h with
          catalog := h.catalog ++ [h.residents.length]
          residents := h.residents ++ [⟨plugin, path⟩] }

theorem scanned_loadFresh (files : PluginFiles δ) (path : Path) (h : PluginHost δ) :
    Scanned files path h (h.loadFresh files path) := by
  unfold loadFresh
  cases read : files.load path with
  | failed errorString => exact .refused (by simp only [PluginFiles.verdict, read])
  | foreign => exact .refused (by simp only [PluginFiles.verdict, read])
  | plugin plugin =>
    dsimp only
    split
    · rename_i version
      exact .refused (by simp only [PluginFiles.verdict, read, if_pos version])
    · rename_i version
      split
      · rename_i nameless
        exact .refused (by
          simp only [PluginFiles.verdict, read, if_neg version, if_pos nameless])
      · rename_i named
        have accepted : files.verdict path = .ok plugin.metadata := by
          simp only [PluginFiles.verdict, read, if_neg version, if_neg named]
        split
        · rename_i known
          exact .doubled accepted known
        · rename_i new
          exact .loaded accepted (Bool.not_eq_true _ ▸ new)

theorem scanned_scanFile (same : files.SameFile) (sound : Sound files h)
    (native : isNativeLibrary path = true) : Scanned files path h (h.scanFile files path) := by
  unfold scanFile
  rw [if_pos native]
  cases found : h.findResident files path with
  | none => exact scanned_loadFresh files path h
  | some i =>
    obtain ⟨bound, hit, -⟩ := List.findIdx?_eq_some_iff_getElem.mp found
    have resident := List.getElem?_eq_getElem bound
    have old := PluginFiles.verdict_eq_ok.mp (sound.valid _ (List.getElem_mem bound))
    have accepted : files.verdict path = .ok h.residents[i].plugin.metadata :=
      PluginFiles.verdict_eq_ok.mpr ⟨(same _ _ hit).symm.trans old.1, old.2⟩
    simp only [resident, relist]
    split
    · rename_i known
      exact .doubled accepted known
    · rename_i new
      exact .relisted accepted (Bool.not_eq_true _ ▸ new) resident

theorem Scanned.grows {h' : PluginHost δ} (scanned : Scanned files path h h') :
    h.residents <+: h'.residents := by
  cases scanned with
  | refused _ => exact List.prefix_refl _
  | doubled _ _ => exact List.prefix_refl _
  | relisted _ _ _ => exact List.prefix_refl _
  | loaded _ _ => exact List.prefix_append _ _

theorem Scanned.sound {h' : PluginHost δ} (scanned : Scanned files path h h')
    (sound : Sound files h) : Sound files h' := by
  cases scanned with
  | refused _ => exact ⟨sound.inside, sound.valid⟩
  | doubled _ _ => exact ⟨sound.inside, sound.valid⟩
  | relisted _ _ found =>
    refine ⟨?_, sound.valid⟩
    intro i member
    cases List.mem_append.mp member with
    | inl old => exact sound.inside i old
    | inr new =>
      rw [List.mem_singleton.mp new]
      exact (List.getElem?_eq_some_iff.mp found).1
  | loaded accepted _ =>
    constructor
    · intro i member
      simp only [List.length_append, List.length_singleton]
      cases List.mem_append.mp member with
      | inl old => exact Nat.lt_succ_of_lt (sound.inside i old)
      | inr new =>
        rw [List.mem_singleton.mp new]
        exact Nat.lt_succ_self _
    · intro r member
      cases List.mem_append.mp member with
      | inl old => exact sound.valid r old
      | inr new =>
        rw [List.mem_singleton.mp new]
        exact accepted

theorem metadata_relist {r : Resident δ} {i : ℕ} (found : h.residents[i]? = some r) :
    ({ h with catalog := h.catalog ++ [i] } : PluginHost δ).metadata =
      h.metadata ++ [r.plugin.metadata] := by
  simp only [metadata, listed, List.filterMap_append, List.filterMap_cons, List.filterMap_nil, found,
    List.map_append, List.map_cons, List.map_nil]

theorem metadata_append (inside : ∀ i ∈ h.catalog, i < h.residents.length)
    (more : List (Resident δ)) :
    ({ h with residents := h.residents ++ more } : PluginHost δ).metadata = h.metadata := by
  have same : h.catalog.filterMap (fun i => (h.residents ++ more)[i]?) = h.listed := by
    apply List.filterMap_congr
    intro i member
    exact List.getElem?_append_left (inside i member)
  simp only [metadata, listed] at same ⊢
  rw [same]

theorem Scanned.view_eq {h' : PluginHost δ} (scanned : Scanned files path h h')
    (sound : Sound files h) (native : isNativeLibrary path = true) :
    h'.view = h.view.examine files path := by
  cases scanned with
  | refused verdict => simp only [Catalogue.examine, if_pos native, verdict]; rfl
  | doubled verdict known =>
    have hit : h.view.metadata.any (fun other => other.id = _) = true := known
    simp only [Catalogue.examine, if_pos native, verdict, hit, if_true]
    rfl
  | relisted verdict new found =>
    have miss : h.metadata.any (fun other => other.id = _) = false := new
    simp only [Catalogue.examine, if_pos native, verdict, view, miss, Bool.false_eq_true, if_false,
      metadata_relist found]
  | @loaded plugin verdict new =>
    have miss : h.metadata.any (fun other => other.id = _) = false := new
    have grown := metadata_relist
      (h := { h with residents := h.residents ++ [⟨plugin, path⟩] }) (List.getElem?_concat_length)
    rw [metadata_append sound.inside] at grown
    simp only [Catalogue.examine, if_pos native, verdict, view, miss, Bool.false_eq_true, if_false]
    exact congrArg (Catalogue.mk · h.errors) grown

section Scan

variable (same : files.SameFile)
include same

theorem scanFile_step (sound : Sound files h) (path : Path) :
    Sound files (h.scanFile files path) ∧ h.residents <+: (h.scanFile files path).residents ∧
      (h.scanFile files path).view = h.view.examine files path := by
  by_cases native : isNativeLibrary path = true
  · have scanned := scanned_scanFile same sound native
    exact ⟨scanned.sound sound, scanned.grows, scanned.view_eq sound native⟩
  · have skipped : h.scanFile files path = h := if_neg native
    have ignored : h.view.examine files path = h.view := if_neg native
    rw [skipped, ignored]
    exact ⟨sound, List.prefix_refl _, rfl⟩

theorem scanEntries_step (sound : Sound files h) (paths : List Path) :
    Sound files (h.scanEntries files paths) ∧
      h.residents <+: (h.scanEntries files paths).residents ∧
      (h.scanEntries files paths).view = Catalogue.examineAll files paths h.view := by
  induction paths generalizing h with
  | nil => exact ⟨sound, List.prefix_refl _, rfl⟩
  | cons path rest ih =>
    simp only [scanEntries, Catalogue.examineAll]
    cases files.isRegularFile path with
    | none => exact ⟨sound, List.prefix_refl _, rfl⟩
    | some regular =>
      cases regular with
      | false => exact ih sound
      | true =>
        obtain ⟨kept, grown, shown⟩ := scanFile_step same sound path
        obtain ⟨kept', grown', shown'⟩ := ih kept
        exact ⟨kept', grown.trans grown', shown ▸ shown'⟩

/-- A scan shows the catalogue of the directory, whatever is resident. -/
theorem scan_step (sound : Sound files h) (directory : Path) :
    Sound files (h.scan files directory) ∧ h.residents <+: (h.scan files directory).residents ∧
      (h.scan files directory).view = Catalogue.ofDirectory files directory := by
  have cleared : Sound files ({ h with catalog := [], errors := [] } : PluginHost δ) :=
    ⟨fun _ member => absurd member List.not_mem_nil, sound.valid⟩
  simp only [scan, Catalogue.ofDirectory]
  split
  · exact scanEntries_step same cleared _
  · exact ⟨cleared, List.prefix_refl _, rfl⟩

/-- What every history of calls keeps. -/
structure Kept (files : PluginFiles δ) (before h : PluginHost δ) : Prop where
  sound : Sound files h
  proper : h.view.Proper
  grown : before.residents <+: h.residents

theorem kept_step {before : PluginHost δ} (kept : Kept files before h) (call : Call) :
    Kept files before (step files h call) := by
  cases call with
  | scan directory =>
    obtain ⟨sound, grown, shown⟩ := scan_step same kept.sound directory
    exact ⟨sound, shown ▸ Catalogue.proper_ofDirectory files directory, kept.grown.trans grown⟩
  | createDetector pluginId request =>
    exact ⟨⟨kept.sound.inside, kept.sound.valid⟩, ⟨kept.proper.distinct, kept.proper.named⟩,
      kept.grown⟩

theorem kept_run (sound : Sound files h) (proper : h.view.Proper) (calls : List Call) :
    Kept files h (Machine.run (step files) h calls) :=
  Machine.run_invariant (P := Kept files h) ⟨sound, proper, List.prefix_refl _⟩
    (fun _ call kept => kept_step same kept call) calls

end Scan

/-- After any calls a scan shows what the first scan of a new manager would, ids name one plugin
each, and the pointers of the catalogue outlive whatever comes. -/
theorem scan_any_history (files : PluginFiles δ) (same : files.SameFile) (calls : List Call) :
    (∀ directory,
      ((Machine.run (step files) {} calls).scan files directory).metadata =
        (({} : PluginHost δ).scan files directory).metadata ∧
      ((Machine.run (step files) {} calls).scan files directory).errors =
        (({} : PluginHost δ).scan files directory).errors) ∧
    ((Machine.run (step files) {} calls).metadata.map PluginMetadata.id).Nodup ∧
    (∀ m ∈ (Machine.run (step files) {} calls).metadata, m.id ≠ "") ∧
    ∀ more, (Machine.run (step files) {} calls).residents <+:
        (Machine.run (step files) (Machine.run (step files) {} calls) more).residents ∧
      ∀ i ∈ (Machine.run (step files) {} calls).catalog, ∃ r,
        (Machine.run (step files) {} calls).residents[i]? = some r ∧
        (Machine.run (step files) (Machine.run (step files) {} calls) more).residents[i]? =
          some r := by
  have kept := kept_run same (sound_empty files) Catalogue.proper_empty calls
  refine ⟨?_, kept.proper.distinct, kept.proper.named, ?_⟩
  · intro directory
    have here := (scan_step same kept.sound directory).2.2
    have fresh := (scan_step same (sound_empty files) directory).2.2
    have equal := here.trans fresh.symm
    exact ⟨congrArg Catalogue.metadata equal, congrArg Catalogue.errors equal⟩
  · intro more
    have later := (kept_run same kept.sound kept.proper more).grown
    refine ⟨later, ?_⟩
    intro i member
    have resident := List.getElem?_eq_getElem (kept.sound.inside i member)
    exact ⟨_, resident, (List.prefix_iff_getElem?.mp later i (kept.sound.inside i member))⟩

/-- Two folders with the same three libraries, one of which does not load and two of which bear one
id, and a text. -/
def linkedFiles : PluginFiles Unit where
  isDirectory _ := true
  entries directory :=
    [directory.child "broken.so" (by decide), directory.child "dummy.so" (by decide),
      directory.child "copy.so" (by decide), directory.child "notes.txt" (by decide)]
  isRegularFile _ := some true
  equivalent a b := a.names.getLast? = b.names.getLast?
  load path :=
    if path.names.getLast? = some "broken.so" then .failed "file too short"
    else .plugin ⟨{ id := "vision.dummy" }, fun _ => none⟩

theorem linkedFiles_same : linkedFiles.SameFile := by
  intro a b same
  have last : a.names.getLast? = b.names.getLast? := of_decide_eq_true same
  simp only [linkedFiles, last]

/-- One folder, a detector of no plugin, the other folder, and the first one again. -/
theorem scan_any_history_linked :
    let calls :=
      [.scan .here,
        .createDetector "vision.other" ⟨"models", .onnxRuntimeCpu, .fp32, 0, 1 / 4, 9 / 20⟩,
        .scan (Path.here.child "plugins" (by decide))]
    let again := (Machine.run (step linkedFiles) {} calls).scan linkedFiles .here
    again.metadata = (({} : PluginHost Unit).scan linkedFiles .here).metadata ∧
      again.errors = (({} : PluginHost Unit).scan linkedFiles .here).errors ∧
      again.metadata = [{ id := "vision.dummy" }] ∧ again.errors.length = 2 := by
  intro calls again
  obtain ⟨metadata, errors⟩ := (scan_any_history linkedFiles linkedFiles_same calls).1 .here
  exact ⟨metadata, errors, by decide +kernel, by decide +kernel⟩

end PluginHost

end VisionLab
