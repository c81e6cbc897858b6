import VisionLab.Inference.InferenceTypes
import VisionLab.Lib.Numerals

/-! The inference settings of the environment: what is taken from them, and the warnings about the
rest. The device is read by two different functions on the two sides. -/
namespace VisionLab

/-- The three variables, with `none` for one that is not set. -/
structure InferenceEnv where
  backend : Option String := none
  precision : Option String := none
  device : Option String := none
  deriving DecidableEq, Repr

inductive InferenceVariable where
  | backend | precision | device
  deriving DecidableEq, Repr

def InferenceEnv.value (env : InferenceEnv) : InferenceVariable → Option String
  | .backend => env.backend
  | .precision => env.precision
  | .device => env.device

def asciiLower (text : String) : String := String.ofList (text.toList.map Char.toLower)

def parseInferenceBackend (text : String) : Option InferenceBackend :=
  let key := asciiLower text
  if key = "onnx-cpu" ∨ key = "onnxruntime-cpu" then some .onnxRuntimeCpu
  else if key = "onnx-cuda" ∨ key = "onnxruntime-cuda" then some .onnxRuntimeCuda
  else if key = "tensorrt" ∨ key = "trt" then some .tensorRT
  else none

def parseInferencePrecision (text : String) : Option InferencePrecision :=
  let key := asciiLower text
  if key = "fp32" then some .fp32
  else if key = "fp16" then some .fp16
  else none

def takenDevice (device : String) : Option ℤ :=
  let (parsed, ending) := Numerals.strtol device.toList
  if ending ≠ device.toList ∧ ending = [] ∧ 0 ≤ parsed ∧ parsed ≤ 1000000 then some parsed
  else none

def inferenceSelectionFromEnv (env : InferenceEnv) : InferenceSelection where
  backend := (env.backend.bind parseInferenceBackend).getD .onnxRuntimeCpu
  precision := (env.precision.bind parseInferencePrecision).getD .fp32
  deviceId := (env.device.bind takenDevice).getD 0

def InferenceEnv.takes (env : InferenceEnv) : InferenceVariable → Bool
  | .backend => (env.backend.bind parseInferenceBackend).isSome
  | .precision => (env.precision.bind parseInferencePrecision).isSome
  | .device => (env.device.bind takenDevice).isSome

structure EnvWarning where
  about : InferenceVariable
  head : String
  value : String
  tail : String
  deriving DecidableEq, Repr

/-- The warnings in the order of the log. A variable that is not set reads as an empty text; the flag
is the one of `Numerals.toInt`. -/
def warnInvalidInferenceEnv (skips : Bool) (env : InferenceEnv) : List EnvWarning :=
  let backend := env.backend.getD ""
  let precision := env.precision.getD ""
  let device := env.device.getD ""
  (if backend ≠ "" ∧ (parseInferenceBackend backend).isNone then
    [{ about := .backend
       head := "CameraManager: unknown VISIONLAB_INFERENCE_BACKEND"
       value := backend
       tail := "- using onnx-cpu" : EnvWarning }] else []) ++
  (if precision ≠ "" ∧ (parseInferencePrecision precision).isNone then
    [{ about := .precision
       head := "CameraManager: unknown VISIONLAB_INFERENCE_PRECISION"
       value := precision
       tail := "- using fp32" }] else []) ++
  (if device ≠ "" ∧
      (Numerals.toInt skips device.toList).all (fun parsed => decide (parsed < 0)) = true then
    [{ about := .device
       head := "CameraManager: invalid VISIONLAB_INFERENCE_DEVICE"
       value := device
       tail := "- using 0" }] else [])

/-- A variable that holds a text and is not taken is the one that is warned about. -/
def Reported (skips : Bool) (env : InferenceEnv) : Prop :=
  ∀ name, name ∈ (warnInvalidInferenceEnv skips env).map EnvWarning.about ↔
    (env.value name).getD "" ≠ "" ∧ env.takes name = false

/-- The text names a device that Qt can read and the factory does not take: a number over a million,
or one with white space behind it. -/
def DeviceOutOfReach (skips : Bool) (device : List Char) : Prop :=
  ∃ n rest, Numerals.scan device = some (n, rest) ∧ 0 ≤ n ∧ n ≤ 2 ^ 31 - 1 ∧
    ((rest = [] ∧ 1000000 < n) ∨ (rest ≠ [] ∧ skips = true ∧ rest.all Numerals.isSpace = true))

def DeviceInReach (device : List Char) : Prop :=
  ∃ n, Numerals.scan device = some (n, []) ∧ 0 ≤ n ∧ n ≤ 1000000

theorem takenDevice_isSome (device : String) :
    (takenDevice device).isSome = true ↔ DeviceInReach device.toList := by
  have whole (n : ℤ) := Numerals.strtol_whole device.toList n 1000000 (by decide)
  unfold takenDevice DeviceInReach
  simp only [← whole]
  split
  · rename_i taken
    simp only [Option.isSome_some, true_iff]
    exact ⟨_, taken.1, taken.2.1, taken.2.2.1, taken.2.2.2, rfl⟩
  · rename_i refused
    simp only [Option.isSome_none, Bool.false_eq_true, false_iff, not_exists]
    rintro n ⟨moved, ended, low, high, -⟩
    exact refused ⟨moved, ended, low, high⟩

theorem toInt_all_negative (skips : Bool) (device : List Char) :
    (Numerals.toInt skips device).all (fun parsed => decide (parsed < 0)) = true ↔
      ¬ (DeviceInReach device ∨ DeviceOutOfReach skips device) := by
  have quiet : (Numerals.toInt skips device).all (fun parsed => decide (parsed < 0)) = true ↔
      ∀ n, Numerals.toInt skips device = some n → n < 0 := by
    simp only [Option.all_eq_true, decide_eq_true_eq]
  rw [quiet]
  constructor
  · intro negative reach
    cases reach with
    | inl inside =>
      obtain ⟨n, found, low, high⟩ := inside
      have read : Numerals.toInt skips device = some n :=
        Numerals.toInt_eq_some.mpr ⟨[], found, Or.inl rfl, by omega, by omega⟩
      exact absurd (negative n read) (by omega)
    | inr outside =>
      obtain ⟨n, rest, found, low, high, why⟩ := outside
      have ended : rest = [] ∨ (skips = true ∧ rest.all Numerals.isSpace = true) :=
        why.imp (fun large => large.1) (fun blank => blank.2)
      have read : Numerals.toInt skips device = some n :=
        Numerals.toInt_eq_some.mpr ⟨rest, found, ended, by omega, high⟩
      exact absurd (negative n read) (by omega)
  · intro neither n read
    obtain ⟨rest, found, ended, -, high⟩ := Numerals.toInt_eq_some.mp read
    by_contra positive
    apply neither
    by_cases nothing : rest = []
    · subst nothing
      by_cases small : n ≤ 1000000
      · exact Or.inl ⟨n, found, by omega, small⟩
      · exact Or.inr ⟨n, [], found, by omega, high, Or.inl ⟨rfl, by omega⟩⟩
    · exact Or.inr ⟨n, rest, found, by omega, high,
        Or.inr ⟨nothing, ended.resolve_left nothing⟩⟩

theorem not_inReach_of_outOfReach {skips : Bool} {device : List Char}
    (out : DeviceOutOfReach skips device) : ¬ DeviceInReach device := by
  rintro ⟨n, found, -, small⟩
  obtain ⟨m, rest, found', -, -, why⟩ := out
  rw [found] at found'
  cases found'
  cases why with
  | inl large => omega
  | inr blank => exact blank.1 rfl

variable {skips : Bool} {env : InferenceEnv}

theorem isSome_bind {α : Type} (parse : String → Option α) (empty : parse "" = none)
    (text : Option String) : (text.bind parse).isSome = (parse (text.getD "")).isSome := by
  cases text with
  | none => simp only [Option.bind_none, Option.getD_none, empty]
  | some text => rfl

theorem mem_warning {p : Prop} [Decidable p] {warning : EnvWarning} {name : InferenceVariable} :
    name ∈ (if p then [warning] else []).map EnvWarning.about ↔ p ∧ name = warning.about := by
  split
  · rename_i given
    simp only [List.map_cons, List.map_nil, List.mem_singleton, given, true_and]
  · rename_i missing
    simp only [List.map_nil, List.not_mem_nil, missing, false_and]

theorem warned_backend :
    .backend ∈ (warnInvalidInferenceEnv skips env).map EnvWarning.about ↔
      env.backend.getD "" ≠ "" ∧ (parseInferenceBackend (env.backend.getD "")).isNone = true := by
  simp only [warnInvalidInferenceEnv, List.map_append, List.mem_append, mem_warning, and_true,
    reduceCtorEq, and_false, or_false]

theorem warned_precision :
    .precision ∈ (warnInvalidInferenceEnv skips env).map EnvWarning.about ↔
      env.precision.getD "" ≠ "" ∧
        (parseInferencePrecision (env.precision.getD "")).isNone = true := by
  simp only [warnInvalidInferenceEnv, List.map_append, List.mem_append, mem_warning, and_true,
    reduceCtorEq, and_false, or_false, false_or]

theorem warned_device :
    .device ∈ (warnInvalidInferenceEnv skips env).map EnvWarning.about ↔
      env.device.getD "" ≠ "" ∧ ¬ (DeviceInReach (env.device.getD "").toList ∨
        DeviceOutOfReach skips (env.device.getD "").toList) := by
  simp only [warnInvalidInferenceEnv, List.map_append, List.mem_append, mem_warning, and_true,
    reduceCtorEq, and_false, false_or, toInt_all_negative]

theorem takes_device : env.takes .device = false ↔
    ¬ DeviceInReach (env.device.getD "").toList := by
  simp only [InferenceEnv.takes, isSome_bind takenDevice (by decide),
    ← takenDevice_isSome, Bool.not_eq_true]

/-- The selection has what the variable says where it takes it, and the default where it does not. -/
structure InferenceEnv.Selected (env : InferenceEnv) : Prop where
  backend : if env.takes .backend
    then env.backend.bind parseInferenceBackend = some (inferenceSelectionFromEnv env).backend
    else (inferenceSelectionFromEnv env).backend = .onnxRuntimeCpu
  precision : if env.takes .precision
    then env.precision.bind parseInferencePrecision = some (inferenceSelectionFromEnv env).precision
    else (inferenceSelectionFromEnv env).precision = .fp32
  device : if env.takes .device
    then env.device.bind takenDevice = some (inferenceSelectionFromEnv env).deviceId
    else (inferenceSelectionFromEnv env).deviceId = 0

theorem selected_getD {α : Type} (taken : Option α) (default : α) :
    if taken.isSome then taken = some (taken.getD default) else taken.getD default = default := by
  cases taken <;> rfl

theorem env_selected (env : InferenceEnv) : env.Selected :=
  ⟨selected_getD _ _, selected_getD _ _, selected_getD _ _⟩

/-- The warnings are right exactly for the texts whose device both functions read alike. -/
theorem reported_iff_device (skips : Bool) (env : InferenceEnv) :
    (Reported skips env ↔ ¬ DeviceOutOfReach skips (env.device.getD "").toList) ∧
      env.Selected := by
  refine ⟨?_, env_selected env⟩
  constructor
  · intro reported out
    have quiet := reported .device
    rw [warned_device, takes_device] at quiet
    have some_ : env.device.getD "" ≠ "" := by
      intro empty
      obtain ⟨n, rest, found, -⟩ := out
      rw [empty] at found
      cases found
    have loud := quiet.mpr ⟨some_, not_inReach_of_outOfReach out⟩
    exact loud.2 (Or.inr out)
  · intro within name
    cases name with
    | backend =>
      rw [warned_backend]
      simp only [InferenceEnv.takes, InferenceEnv.value, Option.isSome_eq_false_iff,
        isSome_bind parseInferenceBackend (by decide)]
    | precision =>
      rw [warned_precision]
      simp only [InferenceEnv.takes, InferenceEnv.value, Option.isSome_eq_false_iff,
        isSome_bind parseInferencePrecision (by decide)]
    | device =>
      rw [warned_device, takes_device]
      simp only [within, or_false, InferenceEnv.value]

/-- A device of two millions is ignored without a word. -/
theorem not_reported_two_million :
    ¬ Reported false { device := some "2000000" } ∧
      ¬ Reported true { device := some "2000000" } := by
  constructor
  · intro reported
    exact absurd ((reported .device).mpr (by decide +kernel)) (by decide +kernel)
  · intro reported
    exact absurd ((reported .device).mpr (by decide +kernel)) (by decide +kernel)

end VisionLab
