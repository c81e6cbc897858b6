import VisionLab.Inference.TensorRTEngine

/-! The two engines on ONNX Runtime, on the processor and on CUDA. They differ in what they take and
in their texts. The runtime is known by what it answers, and fails by throwing. -/
namespace VisionLab

structure OrtTensor where
  name : String
  float : Bool := true
  shape : List ℤ
  deriving DecidableEq, Repr

/-- A loaded model; what describes a tensor may throw. -/
structure OrtSession where
  inputs : List (Except Message OrtTensor)
  outputs : List (Except Message OrtTensor)

/-- A tensor that a run gives, with as many numbers as its shape says. -/
structure OrtValue (F : Type) where
  float : Bool
  view : TensorView F
  counted : view.Whole

structure OrtKind where
  backend : InferenceBackend
  backendId : String
  onlyBackend : String
  onlyPrecision : String
  oneInput : String
  floatInput : String
  failure : Message → ℤ → String
  device : ℤ → DeviceInfo

structure OrtEngine where
  error : String := ""
  ready : Bool := false
  deviceId : ℤ := 0
  inputMeta : TensorMetadata := {}
  outputMeta : List TensorMetadata := []
  deriving DecidableEq, Repr

namespace OrtEngine

open EngineFiles

def cudaFailure (message : String) (deviceId : ℤ) : String :=
  let error :=
    if "CUDA".toList <:+: message.toList ∨ "cuda".toList <:+: message.toList then message
    else "CUDA EP failed: " ++ message
  error ++ " (device " ++ toString deviceId ++ ")"

def onnxRuntimeEngine : OrtKind where
  backend := .onnxRuntimeCpu
  backendId := "onnxruntime-cpu"
  onlyBackend := "OnnxRuntimeEngine only supports InferenceBackend::OnnxRuntimeCpu"
  onlyPrecision := "OnnxRuntimeEngine CPU only supports InferencePrecision::Fp32"
  oneInput := "OnnxRuntimeEngine expects exactly one model input"
  floatInput := "OnnxRuntimeEngine expects float32 input"
  failure := fun what _ => what.val
  device := fun _ => { name := "CPU" }

def onnxRuntimeCudaEngine : OrtKind where
  backend := .onnxRuntimeCuda
  backendId := "onnxruntime-cuda"
  onlyBackend := "OnnxRuntimeCudaEngine only supports InferenceBackend::OnnxRuntimeCuda"
  onlyPrecision := "OnnxRuntimeCudaEngine only supports InferencePrecision::Fp32"
  oneInput := "OnnxRuntimeCudaEngine expects exactly one model input"
  floatInput := "OnnxRuntimeCudaEngine expects float32 input"
  failure := fun what deviceId => cudaFailure what.val deviceId
  device := fun deviceId => { name := "CUDA", deviceId := deviceId, gpu := true }

section Initialize

variable (kind : OrtKind) (config : EngineConfig)

/-- What the runtime throws, as the engine tells it. -/
def explain {α : Type} (answer : Except Message α) : Except String α :=
  answer.mapError (fun what => kind.failure what config.deviceId)

def outputMetadataOf (tensor : OrtTensor) : TensorMetadata where
  name := tensor.name
  shape := tensor.shape
  dtype := if tensor.float then "float32" else "unsupported"

def load (loaded : Except Message OrtSession) :
    Except String (TensorMetadata × List TensorMetadata) := do
  let session ← explain kind config loaded
  match session.inputs with
  | [first] =>
    let input ← explain kind config first
    if !input.float then .error kind.floatInput
    else if elementCount input.shape < 0 then .error "dynamic input shape is not supported"
    else if session.outputs = [] then .error "model has no outputs"
    else do
      let outputs ← session.outputs.mapM (explain kind config)
      .ok (⟨input.name, input.shape, "float32"⟩, outputs.map outputMetadataOf)
  | _ => .error kind.oneInput

def attempt (loaded : Except Message OrtSession) :
    Action (Except String (TensorMetadata × List TensorMetadata)) :=
  if config.backend ≠ kind.backend then return .error kind.onlyBackend
  else if config.precision ≠ .fp32 then return .error kind.onlyPrecision
  else do
    let present ← modelPresent config.modelPath
    if !present then return .error (joinError "model file not found: " config.modelPath)
    else return load kind config loaded

def initializeEngine (loaded : Except Message OrtSession) : Action (Bool × OrtEngine) := do
  match ← attempt kind config loaded with
  | .error reason => return (false, { error := reason, deviceId := config.deviceId })
  | .ok tensors =>
    return (true,
      { ready := true
        deviceId := config.deviceId
        inputMeta := tensors.1
        outputMeta := tensors.2 })

end Initialize

section Infer

variable {F : Type} (kind : OrtKind)

def takeOutput (e : OrtEngine) (answer : Except Message (OrtValue F)) :
    Except String (TensorView F) :=
  match answer with
  | .error what => .error (kind.failure what e.deviceId)
  | .ok value =>
    if !value.float then .error "non-float32 output is not supported"
    else .ok value.view

def infer (ran : Except Message (List (Except Message (OrtValue F)))) (input : TensorView F)
    (e : OrtEngine) : InferResult F :=
  if !e.ready then { error := if e.error = "" then "engine not ready" else e.error }
  else if input.shape ≠ e.inputMeta.shape ∨ (input.data.length : ℤ) ≠ elementCount input.shape then
    { error := "input shape does not match model" }
  else
    match ran with
    | .error what => { error := kind.failure what e.deviceId }
    | .ok values =>
      match values.mapM (takeOutput kind e) with
      | .error reason => { error := reason }
      | .ok outputs => { ok := true, outputs := outputs }

end Infer

end OrtEngine

end VisionLab
