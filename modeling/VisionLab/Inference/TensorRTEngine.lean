import VisionLab.Inference.EngineCache
import VisionLab.Inference.EngineFiles
import VisionLab.Inference.Tensors

/-! The TensorRT engine. It loads a built engine from the cache, or builds one from the model and
writes it there, and answers frames with it. CUDA and TensorRT are known by what they answer; none
of their functions throws. -/
namespace VisionLab

structure EngineConfig extends ModelConfig where
  backend : InferenceBackend := .onnxRuntimeCpu

inductive TensorIOMode where
  | none | input | output
  deriving DecidableEq, Repr

/-- A tensor at the edge of an engine or of a network; it has no dimensions if their number is
negative. -/
structure IOTensor where
  name : Option String := none
  mode : TensorIOMode := .none
  float : Bool := true
  dims : Option (List ℤ) := none
  deriving DecidableEq, Repr

/-- CUDA and TensorRT on a machine, for engines in `ε` and networks in `ν`. The texts are those of
failures, and what the logger has gathered where it is asked. -/
structure TensorRT (ε ν : Type) extends BuildHost where
  deviceCount : Except Message ℤ
  setDevice : ℤ → Except Message Unit
  streamCreate : Except Message Unit
  createInferBuilder : Bool
  platformHasFastFp16 : Bool
  createInferRuntime : Bool
  deserializeCudaEngine : List UInt8 → Option ε
  ioTensors : ε → List IOTensor
  createNetworkV2 : Bool
  createParser : Bool
  parse : List UInt8 → Except (List String) ν
  inputs : ν → List IOTensor
  outputs : ν → List IOTensor
  createBuilderConfig : Bool
  buildSerializedNetwork : ν → Bool → Option (List UInt8)
  createExecutionContext : ε → Bool
  malloc : ℕ → Except Message Unit
  messages : String

structure EngineIo where
  inputName : String := ""
  inputMeta : TensorMetadata := {}
  outputNames : List String := []
  outputMeta : List TensorMetadata := []
  deriving DecidableEq, Repr

/-- All that the engine owns while it is ready. The buffers are known by their sizes. -/
structure LoadedEngine (ε : Type) where
  engine : ε
  io : EngineIo
  inputBuffer : ℕ
  outputBuffers : List ℕ

structure TensorRTEngine (ε : Type) where
  error : String := ""
  ready : Bool := false
  deviceId : ℤ := 0
  loaded : Option (LoadedEngine ε) := none

namespace TensorRTEngine

open Files EngineFiles

def dimsToShape (dims : Option (List ℤ)) : List ℤ := dims.getD []

def hasDynamicDim (dims : Option (List ℤ)) : Bool :=
  match dims with
  | none => true
  | some dims => dims.any (fun dim => dim < 0)

/-- The one input there may be: a batch of one image with three channels. -/
def inputShape (config : ModelConfig) : List ℤ := [1, 3, config.inputHeight, config.inputWidth]

def metadataOf (name : String) (tensor : IOTensor) : TensorMetadata where
  name := name
  shape := dimsToShape tensor.dims
  dtype := "float32"

def readTensor (config : ModelConfig) (io : EngineIo) (tensor : IOTensor) : Except String EngineIo :=
  match tensor.name with
  | none => .error "engine I/O tensor is unnamed"
  | some name =>
    if !tensor.float then .error "deserialized engine tensor is not float32"
    else if hasDynamicDim tensor.dims then .error "dynamic engine tensor shape is not supported"
    else
      match tensor.mode with
      | .input =>
        if io.inputName ≠ "" then .error "TensorRTEngine expects exactly one model input"
        else if dimsToShape tensor.dims ≠ inputShape config then
          .error "deserialized engine input is not static 1x3xHxW float32 matching ModelConfig"
        else .ok { io with inputName := name, inputMeta := metadataOf name tensor }
      | .output =>
        .ok
          { io with
            outputNames := io.outputNames ++ [name]
            outputMeta := io.outputMeta ++ [metadataOf name tensor] }
      | .none => .ok io

def readEngineIo (tensors : List IOTensor) (config : ModelConfig) : Except String EngineIo := do
  let io ← tensors.foldlM (readTensor config) {}
  if io.inputName = "" then .error "deserialized engine has no input"
  else if io.outputNames = [] then .error "deserialized engine has no outputs"
  else .ok io

def parserErrors (errors : List String) : String :=
  errors.foldl (fun text desc => if text = "" then desc else text ++ "; " ++ desc) ""

section Initialize

variable {ε ν : Type} (trt : TensorRT ε ν) (config : EngineConfig)

def fail (message : String) : String := if message = "" then trt.messages else message

def selectDevice : Except String Unit :=
  match trt.deviceCount with
  | .error what => .error ("CUDA device query failed: " ++ what.val)
  | .ok deviceCount =>
    if deviceCount < 1 then .error "no CUDA device"
    else if config.deviceId < 0 ∨ deviceCount ≤ config.deviceId then
      .error ("invalid CUDA device id " ++ toString config.deviceId)
    else
      match trt.setDevice config.deviceId with
      | .error what =>
        .error ("failed to select CUDA device " ++ toString config.deviceId ++ ": " ++ what.val)
      | .ok _ => .ok ()

def createRuntime : Except String Unit :=
  match trt.streamCreate with
  | .error what => .error ("CUDA stream create failed: " ++ what.val)
  | .ok _ =>
    if !trt.createInferBuilder then .error "createInferBuilder failed"
    else if config.precision = .fp16 ∧ !trt.platformHasFastFp16 then
      .error "Fp16 is not supported on this device"
    else if !trt.createInferRuntime then .error "createInferRuntime failed"
    else .ok ()

def openEngine (blob : List UInt8) : Except String (ε × EngineIo) :=
  match trt.deserializeCudaEngine blob with
  | none => .error "deserializeCudaEngine failed"
  | some engine => (readEngineIo (trt.ioTensors engine) config.toModelConfig).map (engine, ·)

def cachedEngine (cachePath : Path) : Action (Option (ε × EngineIo)) := do
  let present ← exists_ cachePath
  if !present then return none
  else
    match ← readBinaryFile cachePath with
    | .ok blob =>
      match openEngine trt config blob with
      | .ok opened => return some opened
      | .error _ =>
        discardCache cachePath
        return none
    | .error _ =>
      discardCache cachePath
      return none

def checkInput (inputs : List IOTensor) : Except String Unit :=
  match inputs with
  | [input] =>
    if input.name.isNone then .error "model input tensor is missing"
    else if !input.float then .error "TensorRTEngine expects float32 input"
    else if hasDynamicDim input.dims then .error "dynamic input shape is not supported"
    else if dimsToShape input.dims ≠ inputShape config.toModelConfig then
      .error "input must be static 1x3xHxW matching ModelConfig.inputHeight/inputWidth"
    else .ok ()
  | _ => .error "TensorRTEngine expects exactly one model input"

def checkOutput (output : IOTensor) : Except String Unit :=
  if output.name.isNone then .error "model output tensor is missing"
  else if !output.float then .error "TensorRTEngine expects float32 outputs"
  else if hasDynamicDim output.dims then .error "dynamic output shape is not supported"
  else .ok ()

def parseModel (onnxBytes : List UInt8) : Except String ν :=
  if !trt.createNetworkV2 then .error "createNetworkV2 failed"
  else if !trt.createParser then .error "createParser failed"
  else
    match trt.parse onnxBytes with
    | .ok network => .ok network
    | .error errors =>
      let message := parserErrors errors
      let message := if message = "" then trt.messages else message
      .error (if message = "" then joinError "ONNX parse failed: " config.modelPath else message)

def planOf (onnxBytes : List UInt8) : Except String (List UInt8) := do
  let network ← parseModel trt config onnxBytes
  checkInput config (trt.inputs network)
  if trt.outputs network = [] then .error "model has no outputs"
  else do
    (trt.outputs network).forM checkOutput
    if !trt.createBuilderConfig then .error "createBuilderConfig failed"
    else
      match trt.buildSerializedNetwork network (config.precision = .fp16) with
      | none | some [] =>
        .error (if trt.messages = "" then "buildSerializedNetwork failed" else trt.messages)
      | some plan => .ok plan

def buildEngine (cachePath : Path) : Action (Except String (ε × EngineIo)) := do
  match ← readBinaryFile config.modelPath with
  | .error reason => return .error reason
  | .ok onnxBytes =>
    match planOf trt config onnxBytes with
    | .error reason => return .error reason
    | .ok plan =>
      match ← persistCache cachePath plan with
      | .error reason => return .error reason
      | .ok _ => return openEngine trt config plan

def deviceBuffer (bytes : ℕ) : Except String ℕ :=
  if bytes = 0 then .error "CudaDeviceBuffer size must be > 0"
  else
    match trt.malloc bytes with
    | .error what => .error what.val
    | .ok _ => .ok bytes

def floatBytes (count : ℤ) : ℕ := Word.unsigned 64 (count * 4)

def outputBuffer (metadata : TensorMetadata) : Except String ℕ :=
  if elementCount metadata.shape ≤ 0 then .error "output element count is invalid"
  else
    match deviceBuffer trt (floatBytes (elementCount metadata.shape)) with
    | .error reason => .error ("output CUDA buffer: " ++ reason)
    | .ok buffer => .ok buffer

def makeReady (opened : ε × EngineIo) : Except String (LoadedEngine ε) :=
  if !trt.createExecutionContext opened.1 then .error "createExecutionContext failed"
  else
    match deviceBuffer trt (floatBytes (elementCount opened.2.inputMeta.shape)) with
    | .error reason => .error ("input CUDA buffer: " ++ reason)
    | .ok inputBuffer => do
      let outputBuffers ← opened.2.outputMeta.mapM (outputBuffer trt)
      .ok
        { engine := opened.1
          io := opened.2
          inputBuffer := inputBuffer
          outputBuffers := outputBuffers }

def load (status : Except Message FileStatus) : Action (Except String (LoadedEngine ε)) :=
  match createRuntime trt config with
  | .error reason => return .error reason
  | .ok _ =>
    match status with
    | .error what => return .error what.val
    | .ok file => do
      let cachePath := EngineCache.cacheFilePath trt.toBuildHost file config.toModelConfig
      match ← cachedEngine trt config cachePath with
      | some opened => return (makeReady trt opened).mapError (fail trt)
      | none =>
        match ← buildEngine trt config cachePath with
        | .error reason => return .error (fail trt reason)
        | .ok opened => return (makeReady trt opened).mapError (fail trt)

def attempt (status : Except Message FileStatus) : Action (Except String (LoadedEngine ε)) :=
  if config.backend ≠ .tensorRT then
    return .error "TensorRTEngine only supports InferenceBackend::TensorRT"
  else if config.precision ≠ .fp32 ∧ config.precision ≠ .fp16 then
    return .error "TensorRTEngine does not support InferencePrecision::Int8"
  else do
    let present ← modelPresent config.modelPath
    if !present then return .error (joinError "model file not found: " config.modelPath)
    else
      match selectDevice trt config with
      | .error reason => return .error reason
      | .ok _ => load trt config status

/-- Whatever the engine was before, it is what this attempt makes of it. -/
def initializeEngine (status : Except Message FileStatus) : Action (Bool × TensorRTEngine ε) := do
  match ← attempt trt config status with
  | .error reason => return (false, { error := reason, deviceId := config.deviceId })
  | .ok loaded => return (true, { ready := true, deviceId := config.deviceId, loaded := some loaded })

end Initialize

section Infer

variable {ε F : Type}

/-- What CUDA and TensorRT answer while the engine works on one input, and what the allocator does
when an output is given its size. -/
structure Inference (F : Type) where
  copyIn : Except Message Unit
  setTensorAddress : String → Bool
  enqueueV3 : Bool
  messages : String
  computeSync : Except Message Unit
  resize : ℕ → Except Message Unit
  copyOut : ℕ → Except Message Unit
  output : ℕ → ℕ → F
  copySync : Except Message Unit

/-- How the work on an input ends without a result. -/
inductive Trouble where
  | failed (reason : String)
  | threw (what : String)
  deriving DecidableEq, Repr

/-- `copyFromHost` and `copyToHost` take a whole buffer only. -/
def copyBuffer (buffer bytes : ℕ) (copied : Except Message Unit) : Except Trouble Unit :=
  if bytes ≠ buffer then .error (.failed "copy size does not match buffer")
  else
    match copied with
    | .error what => .error (.failed what.val)
    | .ok _ => .ok ()

def setAddress (x : Inference F) (side name : String) : Except Trouble Unit :=
  if !x.setTensorAddress name then
    .error (.failed ("setTensorAddress failed for " ++ side ++ " " ++ name))
  else .ok ()

def compute (x : Inference F) (loaded : LoadedEngine ε) (input : TensorView F) :
    Except Trouble Unit := do
  copyBuffer loaded.inputBuffer (floatBytes input.data.length) x.copyIn
  setAddress x "input" loaded.io.inputName
  loaded.io.outputNames.forM (setAddress x "output")
  if !x.enqueueV3 then
    .error (.failed
      (if x.messages = "" then "enqueueV3 failed" else "enqueueV3 failed" ++ ": " ++ x.messages))
  else
    match x.computeSync with
    | .error what => .error (.failed ("cudaStreamSynchronize after enqueue failed: " ++ what.val))
    | .ok _ => .ok ()

def copyOutput (x : Inference F) (output : (TensorMetadata × ℕ) × ℕ) :
    Except Trouble (TensorView F) :=
  match x.resize output.2 with
  | .error what => .error (.threw what.val)
  | .ok _ => do
    let count := (elementCount output.1.1.shape).toNat
    copyBuffer output.1.2 (floatBytes count) (x.copyOut output.2)
    .ok { data := (List.range count).map (x.output output.2), shape := output.1.1.shape }

def work (x : Inference F) (loaded : LoadedEngine ε) (input : TensorView F) :
    Except Trouble (List (TensorView F)) := do
  compute x loaded input
  let outputs ← (loaded.io.outputMeta.zip loaded.outputBuffers).zipIdx.mapM (copyOutput x)
  match x.copySync with
  | .error what => .error (.failed ("cudaStreamSynchronize after D2H failed: " ++ what.val))
  | .ok _ => .ok outputs

def infer (x : Inference F) (input : TensorView F) (e : TensorRTEngine ε) :
    InferResult F × TensorRTEngine ε :=
  match e.ready, e.loaded with
  | true, some loaded =>
    if input.shape ≠ loaded.io.inputMeta.shape ∨
        (input.data.length : ℤ) ≠ elementCount input.shape then
      ({ error := "input shape does not match model" }, e)
    else
      match work x loaded input with
      | .ok outputs => ({ ok := true, outputs := outputs }, e)
      | .error (.failed reason) => ({ error := reason }, e)
      -- the engine is given up, and says why from now on
      | .error (.threw what) => ({ error := what }, { error := what, deviceId := e.deviceId })
  | _, _ => ({ error := if e.error = "" then "engine not ready" else e.error }, e)

def inputMetadata (e : TensorRTEngine ε) : TensorMetadata :=
  (e.loaded.map (fun loaded => loaded.io.inputMeta)).getD {}

def outputMetadata (e : TensorRTEngine ε) : List TensorMetadata :=
  (e.loaded.map (fun loaded => loaded.io.outputMeta)).getD []

end Infer

end TensorRTEngine

end VisionLab
