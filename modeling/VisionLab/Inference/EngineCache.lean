import VisionLab.Core.Path
import VisionLab.Inference.InferenceTypes
import VisionLab.Lib.Texts

/-! The cache of built engines: a file next to the model whose name says what it was built from,
for which device and how. -/
namespace VisionLab

structure ModelConfig where
  modelPath : Path
  inputWidth : ℤ := 320
  inputHeight : ℤ := 320
  deviceId : ℤ := 0
  precision : InferencePrecision := .fp32

/-- What the file system knows of a model file; the time is in seconds. -/
structure FileStatus where
  size : ℕ
  mtime : ℤ
  deriving DecidableEq, Repr

/-- The headers and the devices of the machine, with `none` for a device without properties. -/
structure BuildHost where
  major : ℕ
  minor : ℕ
  patch : ℕ
  deviceName : ℤ → Option String

namespace EngineCache

def slugStep (slug : List Char) (c : Char) : List Char :=
  if c.isAlphanum then slug ++ [c]
  else if slug ≠ [] ∧ slug.getLast? ≠ some '-' then slug ++ ['-']
  else slug

def gpuSlug (host : BuildHost) (deviceId : ℤ) : String :=
  match host.deviceName deviceId with
  | none => "gpu"
  | some name =>
    let slug := (name.toList.foldl slugStep []).rdropWhile (fun c => c = '-')
    if slug = [] then "gpu" else String.ofList slug

def trtVersionString (host : BuildHost) : String :=
  toString host.major ++ "." ++ toString host.minor ++ "." ++ toString host.patch

def precisionTag (precision : InferencePrecision) : String :=
  if precision = .fp16 then "fp16" else "fp32"

def cacheFileName (host : BuildHost) (file : FileStatus) (config : ModelConfig) : String :=
  config.modelPath.stem ++ "-s" ++ toString file.size ++ "-t" ++ toString file.mtime ++
    "-g" ++ gpuSlug host config.deviceId ++ "-v" ++ trtVersionString host ++
    "-p" ++ precisionTag config.precision ++
    "-1x3x" ++ toString config.inputHeight ++ "x" ++ toString config.inputWidth ++ ".engine"

theorem slugStep_plain {slug : List Char} (plain : '/' ∉ slug) (c : Char) :
    '/' ∉ slugStep slug c := by
  unfold slugStep
  split
  · rename_i alphanum
    have other : '/' ≠ c := by
      intro same
      rw [← same] at alphanum
      exact absurd alphanum (by decide)
    simp only [List.mem_append, List.mem_singleton, plain, other, or_false, not_false_iff]
  · split
    · simp only [List.mem_append, List.mem_singleton, plain, false_or]
      decide
    · exact plain

theorem gpuSlug_plain (host : BuildHost) (deviceId : ℤ) :
    '/' ∉ (gpuSlug host deviceId).toList := by
  unfold gpuSlug
  split
  · decide
  · rename_i name _
    have built : '/' ∉ name.toList.foldl slugStep [] := by
      induction name.toList using List.reverseRecOn with
      | nil => exact List.not_mem_nil
      | append_singleton before c ih =>
        rw [List.foldl_concat]
        exact slugStep_plain ih c
    dsimp only
    split
    · decide
    · rw [String.toList_ofList]
      exact fun member => built ((List.rdropWhile_prefix _ _).subset member)

theorem cacheFileName_plain (host : BuildHost) (file : FileStatus) (config : ModelConfig) :
    '/' ∉ (cacheFileName host file config).toList := by
  have stem := config.modelPath.plain_stem
  have slug := gpuSlug_plain host config.deviceId
  have nat : ∀ n : ℕ, '/' ∉ (toString n).toList := fun n => Texts.notMem_nat (by decide)
  have int : ∀ n : ℤ, '/' ∉ (toString n).toList :=
    fun n => Texts.notMem_int (by decide) (by decide)
  have tag : '/' ∉ (precisionTag config.precision).toList := by
    unfold precisionTag
    split <;> decide
  simp only [cacheFileName, trtVersionString, String.toList_append, List.mem_append, stem, slug, nat,
    int, tag, false_or, or_false]
  decide

theorem cacheFolder_plain : '/' ∉ ".trt-cache".toList := by decide

def cacheFilePath (host : BuildHost) (file : FileStatus) (config : ModelConfig) : Path :=
  (config.modelPath.parentPath.child ".trt-cache" cacheFolder_plain).child
    (cacheFileName host file config) (cacheFileName_plain host file config)

section Name

variable {host : BuildHost} {file file' : FileStatus} {config config' : ModelConfig}

theorem precisionTag_inj (known : config.precision = .fp32 ∨ config.precision = .fp16)
    (known' : config'.precision = .fp32 ∨ config'.precision = .fp16)
    (same : precisionTag config.precision = precisionTag config'.precision) :
    config.precision = config'.precision := by
  cases known with
  | inl single =>
    cases known' with
    | inl single' => rw [single, single']
    | inr half' =>
      rw [single, half'] at same
      exact absurd same (by decide)
  | inr half =>
    cases known' with
    | inl single' =>
      rw [half, single'] at same
      exact absurd same (by decide)
    | inr half' => rw [half, half']

theorem precisionTag_length (precision : InferencePrecision) :
    (precisionTag precision).toList.length = 4 := by
  unfold precisionTag
  split <;> decide

/-- The name as letters: each number stands behind a letter that is in no number. -/
theorem cacheFileName_toList (host : BuildHost) (file : FileStatus) (config : ModelConfig) :
    (cacheFileName host file config).toList =
      ((((((config.modelPath.stem.toList ++ ['-']) ++ 's' :: (toString file.size).toList) ++ ['-'])
        ++ 't' :: (toString file.mtime).toList) ++
        ("-g" ++ gpuSlug host config.deviceId ++ "-v" ++ trtVersionString host ++ "-p").toList ++
        (precisionTag config.precision).toList ++ "-1x3".toList)
        ++ 'x' :: (toString config.inputHeight).toList)
        ++ 'x' :: ((toString config.inputWidth).toList) ++ ".engine".toList := by
  simp only [cacheFileName, String.toList_append, List.append_assoc]
  rfl

/-- The name is read from the right, number by number. -/
theorem cacheFileName_inj
    (slug : gpuSlug host config.deviceId = gpuSlug host config'.deviceId)
    (known : config.precision = .fp32 ∨ config.precision = .fp16)
    (known' : config'.precision = .fp32 ∨ config'.precision = .fp16)
    (same : cacheFileName host file config = cacheFileName host file' config') :
    config.modelPath.stem = config'.modelPath.stem ∧ file.size = file'.size ∧
      file.mtime = file'.mtime ∧ config.precision = config'.precision ∧
      config.inputHeight = config'.inputHeight ∧ config.inputWidth = config'.inputWidth := by
  have free_x : ∀ n : ℤ, 'x' ∉ (toString n).toList :=
    fun n => Texts.notMem_int (by decide) (by decide)
  have free_t : ∀ n : ℤ, 't' ∉ (toString n).toList :=
    fun n => Texts.notMem_int (by decide) (by decide)
  have free_s : ∀ n : ℕ, 's' ∉ (toString n).toList := fun n => Texts.notMem_nat (by decide)
  have letters := congrArg String.toList same
  simp only [cacheFileName_toList, slug] at letters
  have shape := List.append_cancel_right letters
  obtain ⟨upToHeight, width⟩ := Texts.split_last (free_x _) (free_x _) shape
  obtain ⟨upToTag, height⟩ := Texts.split_last (free_x _) (free_x _) upToHeight
  obtain ⟨upToKey, tag⟩ := List.append_inj' (List.append_cancel_right upToTag)
    (by rw [precisionTag_length, precisionTag_length])
  obtain ⟨upToTime, time⟩ :=
    Texts.split_last (free_t _) (free_t _) (List.append_cancel_right upToKey)
  obtain ⟨upToStem, size⟩ :=
    Texts.split_last (free_s _) (free_s _) (List.append_cancel_right upToTime)
  exact ⟨String.toList_inj.mp (List.append_cancel_right upToStem), Texts.nat_injective size,
    Texts.int_injective time, precisionTag_inj known known' (String.toList_inj.mp tag),
    Texts.int_injective height, Texts.int_injective width⟩

end Name

/-- Two builds share a cache file only if they are of the same file, for the same precision and the
same input. -/
theorem cacheFilePath_injective (host : BuildHost) (file file' : FileStatus)
    (config config' : ModelConfig)
    (slug : gpuSlug host config.deviceId = gpuSlug host config'.deviceId)
    (known : config.precision = .fp32 ∨ config.precision = .fp16)
    (known' : config'.precision = .fp32 ∨ config'.precision = .fp16)
    (same : cacheFilePath host file config = cacheFilePath host file' config') :
    config.modelPath.parentPath = config'.modelPath.parentPath ∧
      config.modelPath.stem = config'.modelPath.stem ∧ file.size = file'.size ∧
      file.mtime = file'.mtime ∧ config.precision = config'.precision ∧
      config.inputHeight = config'.inputHeight ∧ config.inputWidth = config'.inputWidth := by
  obtain ⟨root, folders, name⟩ := Path.child_inj same
  refine ⟨Path.ext root ?_, cacheFileName_inj slug known known' name⟩
  have cacheFolder : ∀ p : Path,
      Path.closed (p.parentPath.child ".trt-cache" cacheFolder_plain).names =
        p.names.dropLast ++ [".trt-cache"] := by
    intro p
    change Path.closed (Path.closed p.names.dropLast ++ [".trt-cache"]) = _
    rw [Path.closed_dropLast p.inner, Path.closed_concat _ (by decide)]
  rw [cacheFolder, cacheFolder] at folders
  exact List.append_cancel_right folders

def twinHost : BuildHost where
  major := 10
  minor := 3
  patch := 0
  deviceName := fun _ => some "RTX 4090 (24 GB)"

theorem tinyModel_plain : ∀ name ∈ ["models", "yolo-s12-t3.onnx"], '/' ∉ name.toList := by decide

theorem tinyModel_inner : "" ∉ ["models", "yolo-s12-t3.onnx"].dropLast := by decide

def tinyModel (deviceId : ℤ) : ModelConfig where
  modelPath := ⟨"", ["models", "yolo-s12-t3.onnx"], tinyModel_plain, tinyModel_inner⟩
  deviceId := deviceId
  precision := .fp16

example : gpuSlug twinHost 0 = "RTX-4090-24-GB" := by decide +kernel

theorem cacheFilePath_injective_twins :
    gpuSlug twinHost 0 = gpuSlug twinHost 1 ∧
      cacheFilePath twinHost ⟨9, -5⟩ (tinyModel 0) = cacheFilePath twinHost ⟨9, -5⟩ (tinyModel 1) ∧
      (tinyModel 0).modelPath.stem = (tinyModel 1).modelPath.stem :=
  ⟨rfl, rfl, (cacheFilePath_injective twinHost ⟨9, -5⟩ ⟨9, -5⟩ (tinyModel 0) (tinyModel 1) rfl
    (Or.inr rfl) (Or.inr rfl) rfl).2.1⟩

end EngineCache

end VisionLab
