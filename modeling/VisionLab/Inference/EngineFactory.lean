import VisionLab.Inference.OnnxRuntimeEngine

/-! The engines behind their port, as the factory makes them. -/
namespace VisionLab

/-- An engine for a backend that this build does not have. -/
structure UnavailableInferenceEngine where
  backendId : String
  displayName : String
  deriving DecidableEq, Repr

def UnavailableInferenceEngine.error (engine : UnavailableInferenceEngine) : String :=
  engine.displayName ++ " is not available"

inductive IInferenceEngine (ε : Type) where
  | onnxRuntimeCpu (engine : OrtEngine)
  | onnxRuntimeCuda (engine : OrtEngine)
  | tensorRT (engine : TensorRTEngine ε)
  | unavailable (engine : UnavailableInferenceEngine)

structure Libraries (ε ν : Type) where
  onnxRuntime : EngineConfig → Except Message OrtSession
  tensorRT : TensorRT ε ν
  status : Except Message FileStatus

structure Answers (F : Type) where
  onnxRuntime : Except Message (List (Except Message (OrtValue F)))
  tensorRT : TensorRTEngine.Inference F

/-- The factory; a build may come without TensorRT. -/
def createInferenceEngine (ε : Type) (hasTensorRT : Bool) (config : EngineConfig) :
    IInferenceEngine ε :=
  match config.backend with
  | .onnxRuntimeCpu => .onnxRuntimeCpu {}
  | .onnxRuntimeCuda => .onnxRuntimeCuda {}
  | .tensorRT =>
    if hasTensorRT then .tensorRT {}
    else .unavailable ⟨"tensorrt", "TensorRT not enabled at build time"⟩
  | .unnamed _ => .unavailable ⟨"unknown", "requested backend"⟩

namespace IInferenceEngine

open EngineFiles OrtEngine

variable {ε ν F : Type}

def isReady : IInferenceEngine ε → Bool
  | .onnxRuntimeCpu engine | .onnxRuntimeCuda engine => engine.ready
  | .tensorRT engine => engine.ready
  | .unavailable _ => false

def lastError : IInferenceEngine ε → String
  | .onnxRuntimeCpu engine | .onnxRuntimeCuda engine => engine.error
  | .tensorRT engine => engine.error
  | .unavailable engine => engine.error

def backendId : IInferenceEngine ε → String
  | .onnxRuntimeCpu _ => onnxRuntimeEngine.backendId
  | .onnxRuntimeCuda _ => onnxRuntimeCudaEngine.backendId
  | .tensorRT _ => "tensorrt"
  | .unavailable engine => engine.backendId

def device : IInferenceEngine ε → DeviceInfo
  | .onnxRuntimeCpu engine => onnxRuntimeEngine.device engine.deviceId
  | .onnxRuntimeCuda engine => onnxRuntimeCudaEngine.device engine.deviceId
  | .tensorRT engine => { name := "CUDA", deviceId := engine.deviceId, gpu := true }
  | .unavailable engine => { name := engine.backendId, gpu := true }

def inputMetadata : IInferenceEngine ε → TensorMetadata
  | .onnxRuntimeCpu engine | .onnxRuntimeCuda engine => engine.inputMeta
  | .tensorRT engine => engine.inputMetadata
  | .unavailable _ => {}

def outputMetadata : IInferenceEngine ε → List TensorMetadata
  | .onnxRuntimeCpu engine | .onnxRuntimeCuda engine => engine.outputMeta
  | .tensorRT engine => engine.outputMetadata
  | .unavailable _ => []

def initializeEngine (lib : Libraries ε ν) (config : EngineConfig) :
    IInferenceEngine ε → Action (Bool × IInferenceEngine ε)
  | .onnxRuntimeCpu _ => do
    let (ok, engine) ← OrtEngine.initializeEngine onnxRuntimeEngine config (lib.onnxRuntime config)
    return (ok, .onnxRuntimeCpu engine)
  | .onnxRuntimeCuda _ => do
    let (ok, engine) ←
      OrtEngine.initializeEngine onnxRuntimeCudaEngine config (lib.onnxRuntime config)
    return (ok, .onnxRuntimeCuda engine)
  | .tensorRT _ => do
    let (ok, engine) ← TensorRTEngine.initializeEngine lib.tensorRT config lib.status
    return (ok, .tensorRT engine)
  | .unavailable engine => return (false, .unavailable engine)

def infer (x : Answers F) (input : TensorView F) :
    IInferenceEngine ε → InferResult F × IInferenceEngine ε
  | .onnxRuntimeCpu engine =>
    (OrtEngine.infer onnxRuntimeEngine x.onnxRuntime input engine, .onnxRuntimeCpu engine)
  | .onnxRuntimeCuda engine =>
    (OrtEngine.infer onnxRuntimeCudaEngine x.onnxRuntime input engine, .onnxRuntimeCuda engine)
  | .tensorRT engine =>
    ((engine.infer x.tensorRT input).1, .tensorRT (engine.infer x.tensorRT input).2)
  | .unavailable engine => ({ error := engine.error }, .unavailable engine)

/-- Every engine warms up alike: with zeros, and without a look at the results. -/
def warmup (x : ℕ → Answers F) (zero : F) (iterations : ℤ) (e : IInferenceEngine ε) :
    IInferenceEngine ε :=
  if e.isReady = false ∨ elementCount e.inputMetadata.shape ≤ 0 then e
  else
    (List.range iterations.toNat).foldl
      (fun engine i => (infer (x i) (.zeros zero e.inputMetadata.shape) engine).2) e

end IInferenceEngine

end VisionLab
