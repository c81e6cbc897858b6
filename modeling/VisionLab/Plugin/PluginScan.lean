import VisionLab.Core.Path
import VisionLab.Inference.InferenceEnv
import VisionLab.Lib.Machine
import VisionLab.Utilities.CameraManager

/-! The plugin manager's scan of a directory. A plugin once loaded stays resident for good, and a
later scan that meets its file takes the resident in place of loading the file again. The catalogue
points into the residents. -/
namespace VisionLab

/-- What loading a library and asking its root object gives. -/
inductive LoadOutcome (δ : Type) where
  | failed (errorString : String)
  | foreign
  | plugin (plugin : Plugin δ)

/-- What the file system and the loader answer. No file changes between two scans. -/
structure PluginFiles (δ : Type) where
  isDirectory : Path → Bool
  /-- The entries in the order of the directory, none where it cannot be opened. -/
  entries : Path → List Path
  /-- `none` stands for an error of the question itself. -/
  isRegularFile : Path → Option Bool
  equivalent : Path → Path → Bool
  load : Path → LoadOutcome δ

structure Resident (δ : Type) where
  plugin : Plugin δ
  path : Path

structure PluginHost (δ : Type) where
  residents : List (Resident δ) := []
  catalog : List ℕ := []
  errors : List String := []

def Path.text (p : Path) : String := p.root ++ "/".intercalate p.names

def isNativeLibrary (path : Path) : Bool :=
  let ext := asciiLower path.extension
  ext = ".dll" || ext = ".so" || ext = ".dylib"

variable {δ : Type}

namespace PluginHost

def listed (h : PluginHost δ) : List (Resident δ) := h.catalog.filterMap (fun i => h.residents[i]?)

def metadata (h : PluginHost δ) : List PluginMetadata := h.listed.map (fun r => r.plugin.metadata)

def manager (h : PluginHost δ) : PluginManager δ where
  catalog := h.listed.map Resident.plugin
  errors := h.errors

def findResident (files : PluginFiles δ) (path : Path) (h : PluginHost δ) : Option ℕ :=
  h.residents.findIdx? (fun r => files.equivalent r.path path)

def catalogHasId (id : String) (h : PluginHost δ) : Bool := h.metadata.any (fun m => m.id = id)

def report (text : String) (h : PluginHost δ) : PluginHost δ :=
  { h with errors := h.errors ++ [text] }

def duplicate (id : String) (path : Path) : String := "duplicate id '" ++ id ++ "': " ++ path.text

def relist (i : ℕ) (existing : Resident δ) (path : Path) (h : PluginHost δ) : PluginHost δ :=
  if h.catalogHasId existing.plugin.metadata.id then
    h.report (duplicate existing.plugin.metadata.id path)
  else { h with catalog := h.catalog ++ [i] }

def loadFresh (files : PluginFiles δ) (path : Path) (h : PluginHost δ) : PluginHost δ :=
  match files.load path with
  | .failed errorString => h.report (path.text ++ ": " ++ errorString)
  | .foreign => h.report (path.text ++ ": not a vision plugin (iid/interface)")
  | .plugin plugin =>
    if plugin.metadata.interfaceVersion ≠ 1 then
      h.report (path.text ++ ": unsupported interfaceVersion")
    else if plugin.metadata.id = "" then h.report (path.text ++ ": empty id")
    else if h.catalogHasId plugin.metadata.id then h.report (duplicate plugin.metadata.id path)
    else
      { h with
        catalog := h.catalog ++ [h.residents.length]
        residents := h.residents ++ [⟨plugin, path⟩] }

def scanFile (files : PluginFiles δ) (path : Path) (h : PluginHost δ) : PluginHost δ :=
  if isNativeLibrary path then
    match h.findResident files path with
    | some i =>
      match h.residents[i]? with
      | some existing => h.relist i existing path
      | none => h
    | none => h.loadFresh files path
  else h

/- An error about one entry ends the loop: the error code is looked at before the next one. -/
def scanEntries (files : PluginFiles δ) : List Path → PluginHost δ → PluginHost δ
  | [], h => h
  | path :: rest, h =>
    match files.isRegularFile path with
    | none => h
    | some false => scanEntries files rest h
    | some true => scanEntries files rest (h.scanFile files path)

def scan (files : PluginFiles δ) (directory : Path) (h : PluginHost δ) : PluginHost δ :=
  let cleared := { h with catalog := [], errors := [] }
  if files.isDirectory directory then scanEntries files (files.entries directory) cleared
  else cleared

def createDetector (pluginId : String) (request : DetectorCreateRequest) (h : PluginHost δ) :
    Option δ × PluginHost δ :=
  let created := h.manager.createDetector pluginId request
  (created.1, { h with errors := created.2.errors })

inductive Call where
  | scan (directory : Path)
  | createDetector (pluginId : String) (request : DetectorCreateRequest)

def step (files : PluginFiles δ) (h : PluginHost δ) : Call → PluginHost δ
  | .scan directory => h.scan files directory
  | .createDetector pluginId request => (h.createDetector pluginId request).2

end PluginHost

end VisionLab
