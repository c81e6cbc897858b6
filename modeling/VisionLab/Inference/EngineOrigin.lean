import VisionLab.Inference.TensorRTEngine

/-! Where an engine that is ready comes from. Whatever lies under the name of its cache, and wherever
earlier processes have ended, it is one whose tensors were checked, and the cache holds either what
it held before or a plan that was built from the model. -/
namespace VisionLab

namespace EngineCache

theorem cacheFilePath_names (host : BuildHost) (file : FileStatus) (config : ModelConfig) :
    (cacheFilePath host file config).names =
      config.modelPath.names.dropLast ++ [".trt-cache"] ++ [cacheFileName host file config] := by
  change Path.closed (Path.closed config.modelPath.names.dropLast ++ [".trt-cache"]) ++ _ = _
  rw [Path.closed_dropLast config.modelPath.inner, Path.closed_concat _ (by decide)]

theorem cacheFilePath_last (host : BuildHost) (file : FileStatus) (config : ModelConfig) :
    (cacheFilePath host file config).names.getLast? = some (cacheFileName host file config) := by
  rw [cacheFilePath_names, List.getLast?_concat]

theorem modelPath_ne_cache (host : BuildHost) (file : FileStatus) (config : ModelConfig) :
    config.modelPath ≠ cacheFilePath host file config ∧
      config.modelPath ≠ EngineFiles.tmpPath (cacheFilePath host file config) := by
  have deeper : ∀ path : Path, path.names.length = config.modelPath.names.dropLast.length + 2 →
      config.modelPath ≠ path := by
    intro path depth same
    rw [← same, List.length_dropLast] at depth
    omega
  have depth := congrArg List.length (cacheFilePath_names host file config)
  simp only [List.length_append, List.length_singleton] at depth
  refine ⟨deeper _ depth, deeper _ ?_⟩
  simp only [EngineFiles.tmpPath, Path.plus, List.length_append, List.length_dropLast,
    List.length_singleton] at depth ⊢
  omega

theorem cache_ne_tmpPath (host host' : BuildHost) (file file' : FileStatus)
    (config config' : ModelConfig) :
    cacheFilePath host file config ≠ EngineFiles.tmpPath (cacheFilePath host' file' config') := by
  intro same
  have ends := congrArg (fun path : Path => path.names.getLast?) same
  simp only [cacheFilePath_last, EngineFiles.tmpPath, Path.plus, List.getLast?_concat,
    Option.getD_some, Option.some.injEq] at ends
  have different : ∀ front front' : String, front ++ ".engine" ≠ front' ++ ".tmp" := by
    intro front front' same
    have letters := congrArg String.toList same
    have split : ".engine".toList = ".en".toList ++ "gine".toList := rfl
    rw [String.toList_append, String.toList_append, split, ← List.append_assoc] at letters
    exact absurd (List.append_inj' letters rfl).2 (by decide)
  exact different _ _ ends

end EngineCache

namespace TensorRTEngine

open Files EngineFiles Crash

variable {ε ν : Type} {trt : TensorRT ε ν} {config : EngineConfig} {may : Mishap → Prop}
  {d₀ d : EngineDisk} {cache : Path}

def isInput (tensor : IOTensor) : Bool := tensor.mode = .input && tensor.name ≠ some ""

def isOutput (tensor : IOTensor) : Bool := tensor.mode = .output

/-- The tensors of an engine read as `io`. An input without a letter in its name counts as none. -/
structure Fits (config : ModelConfig) (tensors : List IOTensor) (io : EngineIo) : Prop where
  static : ∀ tensor ∈ tensors,
    tensor.name.isSome = true ∧ tensor.float = true ∧ hasDynamicDim tensor.dims = false
  shaped : ∀ tensor ∈ tensors, tensor.mode = .input → dimsToShape tensor.dims = inputShape config
  inputs : (tensors.filter isInput).map IOTensor.name =
    if io.inputName = "" then [] else [some io.inputName]
  inputMeta : io.inputName ≠ "" → io.inputMeta = ⟨io.inputName, inputShape config, "float32"⟩
  outputs : io.outputMeta =
    (tensors.filter isOutput).map (fun tensor => metadataOf (tensor.name.getD "") tensor)
  outputNames : io.outputNames = io.outputMeta.map TensorMetadata.name

theorem readTensor_fits {config : ModelConfig} {tensors : List IOTensor} {io after : EngineIo}
    {tensor : IOTensor} (fits : Fits config tensors io)
    (read : readTensor config io tensor = .ok after) : Fits config (tensors ++ [tensor]) after := by
  obtain ⟨static, shaped, inputs, inputMeta, outputs, outputNames⟩ := fits
  unfold readTensor at read
  split at read
  · cases read
  · rename_i name named
    split at read
    · cases read
    · rename_i float
      split at read
      · cases read
      · rename_i fixed
        have static' : ∀ other ∈ tensors ++ [tensor], other.name.isSome = true ∧
            other.float = true ∧ hasDynamicDim other.dims = false := by
          intro other member
          cases List.mem_append.mp member with
          | inl before => exact static other before
          | inr own =>
            rw [List.mem_singleton.mp own, named]
            exact ⟨rfl, by simpa using float, by simpa using fixed⟩
        have shaped' : (tensor.mode = .input → dimsToShape tensor.dims = inputShape config) →
            ∀ other ∈ tensors ++ [tensor], other.mode = .input →
              dimsToShape other.dims = inputShape config := by
          intro fit other member
          cases List.mem_append.mp member with
          | inl before => exact shaped other before
          | inr own =>
            rw [List.mem_singleton.mp own]
            exact fit
        split at read
        · rename_i input
          split at read
          · cases read
          · rename_i first
            split at read
            · cases read
            · rename_i shape
              cases read
              have fresh : io.inputName = "" := by simpa using first
              have fit : dimsToShape tensor.dims = inputShape config := by simpa using shape
              constructor
              · exact static'
              · exact shaped' (fun _ => fit)
              · rw [if_pos fresh, List.map_eq_nil_iff] at inputs
                simp only [List.filter_append, inputs, List.nil_append]
                by_cases silent : name = ""
                · simp [isInput, named, silent]
                · simp [isInput, input, named, silent]
              · intro _
                simp only [metadataOf, fit]
              · simpa [isOutput, input] using outputs
              · exact outputNames
        · rename_i output
          cases read
          constructor
          · exact static'
          · exact shaped' (fun input => by rw [output] at input; cases input)
          · simpa [isInput, output] using inputs
          · exact inputMeta
          · simp only [List.filter_append, List.map_append, ← outputs]
            simp [isOutput, output, named]
          · simp [outputNames, metadataOf]
        · rename_i neither
          cases read
          constructor
          · exact static'
          · exact shaped' (fun input => by rw [neither] at input; cases input)
          · simpa [isInput, neither] using inputs
          · exact inputMeta
          · simpa [isOutput, neither] using outputs
          · exact outputNames

theorem foldlM_fits {config : ModelConfig} {tensors : List IOTensor} {io : EngineIo}
    (read : tensors.foldlM (readTensor config) {} = .ok io) : Fits config tensors io := by
  induction tensors using List.reverseRecOn generalizing io with
  | nil =>
    cases read
    constructor <;> simp
  | append_singleton tensors tensor ih =>
    rw [List.foldlM_append] at read
    obtain ⟨between, before, last⟩ := Checked.bind_eq_ok.mp read
    rw [List.foldlM_cons] at last
    obtain ⟨after, own, ended⟩ := Checked.bind_eq_ok.mp last
    cases ended
    exact readTensor_fits (ih before) own

theorem readEngineIo_fits {config : ModelConfig} {tensors : List IOTensor} {io : EngineIo}
    (read : readEngineIo tensors config = .ok io) :
    Fits config tensors io ∧ io.inputName ≠ "" ∧ io.outputNames ≠ [] := by
  obtain ⟨found, loop, rest⟩ := Checked.bind_eq_ok.mp read
  split at rest
  · cases rest
  · rename_i named
    split at rest
    · cases rest
    · rename_i some_
      cases rest
      exact ⟨foldlM_fits loop, named, some_⟩

/- Every failure is explained. -/

section Spoken

variable (trt config)

theorem readTensor_spoken (config : ModelConfig) (io : EngineIo) (tensor : IOTensor) :
    Spoken (readTensor config io tensor) := by
  unfold readTensor
  split
  · exact .error (by decide)
  · refine .unless (by decide) (.unless (by decide) ?_)
    split
    · exact .unless (by decide) (.unless (by decide) (.ok _))
    · exact .ok _
    · exact .ok _

theorem openEngine_spoken (blob : List UInt8) : Spoken (openEngine trt config blob) := by
  unfold openEngine
  split
  · exact .error (by decide)
  · refine Checked.FailsIn.map _ ((Checked.FailsIn.foldlM (readTensor_spoken _) _ _).bind ?_)
    intro io _
    refine Checked.FailsIn.ite (fun _ => .error (by decide)) (fun _ => ?_)
    exact Checked.FailsIn.ite (fun _ => .error (by decide)) (fun _ => .ok io)

theorem createRuntime_spoken : Spoken (createRuntime trt config) := by
  unfold createRuntime
  split
  · exact .error (spoken_append (by decide) _)
  · exact .unless (by decide) (.unless (by decide) (.unless (by decide) (.ok ())))

theorem selectDevice_spoken : Spoken (selectDevice trt config) := by
  have front : "failed to select CUDA device " ≠ "" := by decide
  unfold selectDevice
  split
  · exact .error (spoken_append (by decide) _)
  · refine .unless (by decide) (.unless (spoken_append (by decide) _) ?_)
    split
    · exact .error (spoken_append (spoken_append (spoken_append front _) _) _)
    · exact .ok ()

theorem parseModel_spoken (bytes : List UInt8) : Spoken (parseModel trt config bytes) := by
  unfold parseModel
  refine .unless (by decide) (.unless (by decide) ?_)
  split
  · exact .ok _
  · exact .error (spoken_or (joinError_ne (by decide) _) _)

theorem checkInput_spoken (inputs : List IOTensor) : Spoken (checkInput config inputs) := by
  unfold checkInput
  split
  · exact .unless (by decide) (.unless (by decide) (.unless (by decide)
      (.unless (by decide) (.ok ()))))
  · exact .error (by decide)

theorem checkOutput_spoken (output : IOTensor) : Spoken (checkOutput output) := by
  unfold checkOutput
  exact .unless (by decide) (.unless (by decide) (.unless (by decide) (.ok ())))

theorem planOf_spoken (bytes : List UInt8) : Spoken (planOf trt config bytes) := by
  refine (parseModel_spoken trt config bytes).bind ?_
  intro network _
  refine (checkInput_spoken config _).bind ?_
  intro _ _
  refine Checked.FailsIn.ite (fun _ => .error (by decide)) (fun _ => ?_)
  refine (Checked.FailsIn.forM checkOutput_spoken _).bind ?_
  intro _ _
  refine Checked.FailsIn.ite (fun _ => .error (by decide)) (fun _ => ?_)
  have said : "buildSerializedNetwork failed" ≠ "" := by decide
  have told := spoken_or said trt.messages
  split
  · exact .error told
  · exact .error told
  · exact .ok _

end Spoken

structure Sized (loaded : LoadedEngine ε) : Prop where
  input : loaded.inputBuffer = floatBytes (elementCount loaded.io.inputMeta.shape)
  inputCount : loaded.inputBuffer ≠ 0
  outputs : loaded.outputBuffers =
    loaded.io.outputMeta.map (fun metadata => floatBytes (elementCount metadata.shape))
  outputCounts : ∀ metadata ∈ loaded.io.outputMeta, 0 < elementCount metadata.shape

theorem deviceBuffer_eq_ok {bytes buffer : ℕ} (made : deviceBuffer trt bytes = .ok buffer) :
    buffer = bytes ∧ bytes ≠ 0 := by
  unfold deviceBuffer at made
  split at made
  · cases made
  · rename_i some_
    split at made
    · cases made
    · cases made
      exact ⟨rfl, some_⟩

theorem outputBuffer_eq_ok {metadata : TensorMetadata} {buffer : ℕ}
    (made : outputBuffer trt metadata = .ok buffer) :
    buffer = floatBytes (elementCount metadata.shape) ∧ 0 < elementCount metadata.shape := by
  unfold outputBuffer at made
  split at made
  · cases made
  · rename_i positive
    split at made
    · cases made
    · rename_i allocated
      cases made
      exact ⟨(deviceBuffer_eq_ok allocated).1, by omega⟩

theorem makeReady_eq_ok {opened : ε × EngineIo} {loaded : LoadedEngine ε}
    (made : makeReady trt opened = .ok loaded) :
    loaded.engine = opened.1 ∧ loaded.io = opened.2 ∧ Sized loaded := by
  unfold makeReady at made
  split at made
  · cases made
  · split at made
    · cases made
    · rename_i allocated
      obtain ⟨buffers, outputs, ended⟩ := Checked.bind_eq_ok.mp made
      cases ended
      refine ⟨rfl, rfl, (deviceBuffer_eq_ok allocated).1, ?_, ?_, ?_⟩
      · rw [(deviceBuffer_eq_ok allocated).1]
        exact (deviceBuffer_eq_ok allocated).2
      · exact Checked.eq_map_of_mapM outputs (fun _ _ made => (outputBuffer_eq_ok made).1)
      · intro metadata member
        obtain ⟨buffer, made⟩ := Checked.exists_mapM.mp ⟨buffers, outputs⟩ metadata member
        exact (outputBuffer_eq_ok made).2

theorem makeReady_spoken (opened : ε × EngineIo) : Spoken (makeReady trt opened) := by
  unfold makeReady
  refine Checked.FailsIn.ite (fun _ => .error (by decide)) (fun _ => ?_)
  split
  · exact .error (spoken_append (by decide) _)
  · refine (Checked.FailsIn.mapM ?_ _).bind (fun _ _ => .ok _)
    intro metadata
    refine Checked.FailsIn.ite (fun _ => .error (by decide)) (fun _ => ?_)
    split
    · exact .error (spoken_append (by decide) _)
    · exact .ok _

/-- A plan that TensorRT builds from the model as it lies on the disk. -/
def Planned (trt : TensorRT ε ν) (config : EngineConfig) (d : EngineDisk) (plan : List UInt8) : Prop :=
  ∃ onnxBytes, d config.modelPath = some onnxBytes ∧ planOf trt config onnxBytes = .ok plan

theorem planOf_ne_nil {onnxBytes plan : List UInt8} (built : planOf trt config onnxBytes = .ok plan) :
    plan ≠ [] := by
  obtain ⟨network, -, rest⟩ := Checked.bind_eq_ok.mp built
  obtain ⟨-, -, rest⟩ := Checked.bind_eq_ok.mp rest
  split at rest
  · cases rest
  · obtain ⟨-, -, rest⟩ := Checked.bind_eq_ok.mp rest
    split at rest
    · cases rest
    · split at rest
      · cases rest
      · cases rest
      · rename_i some_ _
        cases rest
        rintro rfl
        exact some_ rfl

/-- Why what lies under the name of the cache is not taken. -/
def Stale (trt : TensorRT ε ν) (config : EngineConfig) (may : Mishap → Prop)
    (content : Option (List UInt8)) : Prop :=
  content = none ∨ content = some [] ∨
    (∃ blob reason, content = some blob ∧ openEngine trt config blob = .error reason) ∨
    may .look ∨ may .read ∨ may .size

/-- The cache is taken as it is, or what is there is dirty and goes. -/
theorem always_cachedEngine {I : EngineDisk → Prop} {Q : Option (ε × EngineIo) → EngineDisk → Prop}
    (now : I d)
    (hit : ∀ blob opened, d cache = some blob → blob ≠ [] →
      openEngine trt config blob = .ok opened → Q (some opened) d)
    (miss : ∀ content, content = d cache ∨ content = none → Stale trt config may (d cache) →
      I (Function.update d cache content) ∧ Q none (Function.update d cache content)) :
    Always (Effect may) I Q (cachedEngine trt config cache) d := by
  have kept := miss (d cache) (Or.inl rfl)
  rw [Function.update_eq_self] at kept
  have dirty : Stale trt config may (d cache) →
      Always (Effect may) I Q (discardCache cache >>= fun _ => pure none) d :=
    fun stale => always_bind.mpr (always_remove now
      ⟨(miss none (Or.inr rfl) stale).1, miss none (Or.inr rfl) stale⟩ (fun _ => ⟨now, kept stale⟩))
  refine always_exists now ?_ (fun h => kept (Or.inr (Or.inr (Or.inr (Or.inl h)))))
  cases there : d cache with
  | none => exact kept (Or.inl there)
  | some content =>
    refine always_readBinaryFile now ?_ ?_
    · intro blob read some_
      cases opens : openEngine trt config blob with
      | ok opened =>
        simp only [opens]
        exact ⟨now, hit blob opened read some_ opens⟩
      | error reason =>
        simp only [opens]
        exact dirty (Or.inr (Or.inr (Or.inl ⟨blob, reason, read, opens⟩)))
    · intro text _ why
      refine dirty ?_
      obtain missing | empty | h | h := why
      · exact Or.inl missing
      · exact Or.inr (Or.inl empty)
      · exact Or.inr (Or.inr (Or.inr (Or.inr (Or.inl h))))
      · exact Or.inr (Or.inr (Or.inr (Or.inr (Or.inr h))))

theorem always_buildEngine {Q : Except String (ε × EngineIo) → EngineDisk → Prop}
    (left : Left may (Planned trt config d₀) cache d₀ d)
    (model : d config.modelPath = d₀ config.modelPath)
    (built : ∀ plan opened after, Left may (Planned trt config d₀) cache d₀ after →
      Planned trt config d₀ plan → openEngine trt config plan = .ok opened →
      Stored may (Eq plan) (after cache) → Q (.ok opened) after)
    (fails : ∀ reason after, Left may (Planned trt config d₀) cache d₀ after → reason ≠ "" →
      Q (.error reason) after) :
    Always (Effect may) (Left may (Planned trt config d₀) cache d₀) Q
      (buildEngine trt config cache) d := by
  refine always_readBinaryFile left ?_ ?_
  · intro onnxBytes read _
    cases planned : planOf trt config onnxBytes with
    | error reason =>
      simp only [planned]
      exact ⟨left, fails reason d left (planOf_spoken trt config onnxBytes reason planned)⟩
    | ok plan =>
      simp only [planned]
      have plans : Planned trt config d₀ plan := ⟨onnxBytes, model ▸ read, planned⟩
      refine always_bind.mpr ((persistCache_left (.refl d) (rfl : plan = plan)).mono ?_ ?_)
      · intro after further
        refine left.trans further ?_
        rintro _ rfl
        exact plans
      · rintro result after further ⟨stored, spoken⟩
        have left' : Left may (Planned trt config d₀) cache d₀ after := by
          refine left.trans further ?_
          rintro _ rfl
          exact plans
        cases result with
        | error reason => exact ⟨left', fails reason after left' (spoken reason rfl)⟩
        | ok done =>
          refine ⟨left', ?_⟩
          cases opens : openEngine trt config plan with
          | error reason => exact fails reason after left' (openEngine_spoken trt config plan reason opens)
          | ok opened => exact built plan opened after left' plans opens (stored rfl)
  · exact fun text spoken _ => ⟨left, fails text d left spoken⟩

/-- What an engine that is ready was made of: a blob that was in the cache, and then nothing on the
disk is touched, or a plan that is in the cache now, where there was nothing of use. -/
inductive Origin (trt : TensorRT ε ν) (config : EngineConfig) (may : Mishap → Prop) (cache : Path)
    (d₀ : EngineDisk) (opened : ε × EngineIo) (d : EngineDisk) : Prop
  | hit (blob : List UInt8) (cached : d₀ cache = some blob) (some_ : blob ≠ [])
      (opens : openEngine trt config blob = .ok opened) (untouched : d = d₀)
  | built (plan : List UInt8) (planned : Planned trt config d₀ plan)
      (opens : openEngine trt config plan = .ok opened) (stale : Stale trt config may (d₀ cache))
      (stored : Stored may (Eq plan) (d cache))

/-- What a start asks of its configuration and of the machine. -/
structure Supported (trt : TensorRT ε ν) (config : EngineConfig) (d : EngineDisk) : Prop where
  backend : config.backend = .tensorRT
  precision : config.precision = .fp32 ∨ config.precision = .fp16
  named : config.modelPath.isEmpty = false
  model : d config.modelPath ≠ none
  device : selectDevice trt config = .ok ()
  runtime : createRuntime trt config = .ok ()

/-- How a start may end on the disk `d`, if it began on `d₀`. -/
inductive Ended (trt : TensorRT ε ν) (config : EngineConfig) (may : Mishap → Prop) (cache : Path)
    (d₀ : EngineDisk) : Except String (LoadedEngine ε) → EngineDisk → Prop
  | failed {reason : String} {d : EngineDisk} (spoken : reason ≠ "") :
    Ended trt config may cache d₀ (.error reason) d
  | ready {loaded : LoadedEngine ε} {d : EngineDisk} (supported : Supported trt config d₀)
      (made : makeReady trt (loaded.engine, loaded.io) = .ok loaded)
      (origin : Origin trt config may cache d₀ (loaded.engine, loaded.io) d) :
    Ended trt config may cache d₀ (.ok loaded) d

theorem fail_spoken {reason : String} (spoken : reason ≠ "") : fail trt reason ≠ "" := by
  rw [fail, if_neg spoken]
  exact spoken

theorem ended_of_opened {opened : ε × EngineIo} (supported : Supported trt config d₀)
    (origin : Origin trt config may cache d₀ opened d) :
    Ended trt config may cache d₀ ((makeReady trt opened).mapError (fail trt)) d := by
  cases made : makeReady trt opened with
  | error reason => exact .failed (fail_spoken (makeReady_spoken opened reason made))
  | ok loaded =>
    obtain ⟨engine, io, -⟩ := makeReady_eq_ok made
    have same : opened = (loaded.engine, loaded.io) := by rw [engine, io]
    rw [same] at made origin
    exact .ready supported made origin

theorem load_ended {status : Except Message FileStatus} (supported : createRuntime trt config = .ok () →
    Supported trt config d₀)
    (named : ∀ file, status = .ok file →
      EngineCache.cacheFilePath trt.toBuildHost file config.toModelConfig = cache) :
    Always (Effect may) (Left may (Planned trt config d₀) cache d₀) (Ended trt config may cache d₀)
      (load trt config status) d₀ := by
  have left : Left may (Planned trt config d₀) cache d₀ d₀ := .refl d₀
  unfold load
  split
  · rename_i reason failed
    exact ⟨left, .failed (createRuntime_spoken trt config reason failed)⟩
  · rename_i runtime
    have fine := supported runtime
    split
    · rename_i what
      exact ⟨left, .failed what.property⟩
    · rename_i file
      rw [named file rfl]
      refine always_bind.mpr (always_cachedEngine left ?_ ?_)
      · intro blob opened cached some_ opens
        exact ⟨left, ended_of_opened fine (.hit blob cached some_ opens rfl)⟩
      · intro content kept stale
        have left' : Left may (Planned trt config d₀) cache d₀ (Function.update d₀ cache content) := by
          obtain rfl | rfl := kept
          · rw [Function.update_eq_self]
            exact left
          · exact left.named (Or.inl rfl)
        have model : Function.update d₀ cache content config.modelPath = d₀ config.modelPath := by
          rw [← named file rfl]
          exact Function.update_of_ne (EngineCache.modelPath_ne_cache _ _ _).1 _ _
        refine ⟨left', always_bind.mpr (always_buildEngine left' model ?_ ?_)⟩
        · intro plan opened after left planned opens stored
          exact ⟨left, ended_of_opened fine (.built plan planned opens stale stored)⟩
        · intro reason after left spoken
          exact ⟨left, .failed (fail_spoken spoken)⟩

theorem Supported.fast (supported : Supported trt config d) (half : config.precision = .fp16) :
    trt.platformHasFastFp16 = true := by
  have made := supported.runtime
  unfold createRuntime at made
  split at made
  · cases made
  · split at made
    · cases made
    · split at made
      · cases made
      · rename_i fast
        simpa [half] using fast

/-- A start leaves the disk as it was but for its own cache, and gives a reason or an engine that is
of the kind asked for. -/
theorem attempt_ended {status : Except Message FileStatus}
    (named : ∀ file, status = .ok file →
      EngineCache.cacheFilePath trt.toBuildHost file config.toModelConfig = cache) :
    Always (Effect may) (Left may (Planned trt config d₀) cache d₀) (Ended trt config may cache d₀)
      (attempt trt config status) d₀ := by
  have left : Left may (Planned trt config d₀) cache d₀ d₀ := .refl d₀
  have fails : ∀ {reason : String}, reason ≠ "" →
      Always (Effect may) (Left may (Planned trt config d₀) cache d₀)
        (Ended trt config may cache d₀) (pure (.error reason)) d₀ :=
    fun spoken => ⟨left, .failed spoken⟩
  have said : "model file not found: " ≠ "" := by decide
  have missing := fails (joinError_ne said config.modelPath)
  unfold attempt
  split
  · exact fails (by decide)
  · rename_i backend
    split
    · exact fails (by decide)
    · rename_i precision
      refine always_modelPresent left ?_ (fun _ => missing)
      intro named_ model
      simp only [Bool.not_true, Bool.false_eq_true, if_false]
      cases selected : selectDevice trt config with
      | error reason => exact fails (selectDevice_spoken trt config reason selected)
      | ok done =>
        refine load_ended ?_ named
        intro runtime
        constructor
        · simpa using backend
        · grind
        · exact named_
        · exact model
        · exact selected
        · exact runtime

end TensorRTEngine

end VisionLab
