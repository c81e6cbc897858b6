import Mathlib.Logic.Relation
import VisionLab.Inference.EngineFactory
import VisionLab.Inference.EngineRestarts

/-! What the port promises, for every engine that the factory makes and after any calls: an engine is
ready if and only if it was initialized for its own backend, and what it does not do it explains. -/
namespace VisionLab

open Files EngineFiles Crash

structure Answered {F : Type} (shape : List ℤ) (ready : Bool) (input : TensorView F)
    (r : InferResult F) : Prop where
  refused : r.ok = false → r.error ≠ "" ∧ r.outputs = []
  done : r.ok = true → ready = true ∧ r.error = "" ∧ input.shape = shape ∧ input.Whole ∧
    ∀ view ∈ r.outputs, view.Whole

theorem Answered.fails {F : Type} {shape : List ℤ} {ready : Bool} {input : TensorView F}
    {reason : String} (spoken : reason ≠ "") :
    Answered shape ready input ({ error := reason } : InferResult F) where
  refused := fun _ => ⟨spoken, rfl⟩
  done := nofun

namespace OrtEngine

variable {F : Type} {kind : OrtKind} {config : EngineConfig}

/-- The texts of an engine say something. -/
structure Speaks (kind : OrtKind) : Prop where
  onlyBackend : kind.onlyBackend ≠ ""
  onlyPrecision : kind.onlyPrecision ≠ ""
  oneInput : kind.oneInput ≠ ""
  floatInput : kind.floatInput ≠ ""
  failure : ∀ what deviceId, kind.failure what deviceId ≠ ""

theorem onnxRuntimeEngine_speaks : Speaks onnxRuntimeEngine where
  onlyBackend := by decide
  onlyPrecision := by decide
  oneInput := by decide
  floatInput := by decide
  failure := fun what _ => what.property

theorem onnxRuntimeCudaEngine_speaks : Speaks onnxRuntimeCudaEngine where
  onlyBackend := by decide
  onlyPrecision := by decide
  oneInput := by decide
  floatInput := by decide
  failure := by
    intro what deviceId silent
    have closing := (String.append_eq_empty_iff.mp silent).2
    exact absurd closing (by decide)

theorem explain_spoken {α : Type} (speaks : Speaks kind) (answer : Except Message α) :
    Spoken (explain kind config answer) := by
  cases answer with
  | error what => exact .error (speaks.failure what config.deviceId)
  | ok a => exact .ok a

theorem load_spoken (speaks : Speaks kind) (loaded : Except Message OrtSession) :
    Spoken (load kind config loaded) := by
  refine (explain_spoken speaks loaded).bind ?_
  intro session _
  split
  · refine (explain_spoken speaks _).bind ?_
    intro input _
    refine Checked.FailsIn.ite (fun _ => .error speaks.floatInput) (fun _ => ?_)
    refine Checked.FailsIn.ite (fun _ => .error (by decide)) (fun _ => ?_)
    refine Checked.FailsIn.ite (fun _ => .error (by decide)) (fun _ => ?_)
    exact (Checked.FailsIn.mapM (explain_spoken speaks) _).bind (fun _ _ => .ok _)
  · exact .error speaks.oneInput

/-- What a start of such an engine takes: its own backend, single floats and a model that is there. -/
structure Taken (kind : OrtKind) (config : EngineConfig) (d : EngineDisk) : Prop where
  backend : config.backend = kind.backend
  precision : config.precision = .fp32
  model : d config.modelPath ≠ none

variable {may : Mishap → Prop} {d : EngineDisk}

theorem attempt_result (speaks : Speaks kind) (loaded : Except Message OrtSession) :
    Always (Effect may) (fun d' => d' = d)
      (fun result _ => Spoken result ∧ ∀ tensors, result = .ok tensors → Taken kind config d)
      (attempt kind config loaded) d := by
  unfold attempt
  split
  · exact ⟨rfl, .error speaks.onlyBackend, fun _ h => by cases h⟩
  · rename_i backend
    split
    · exact ⟨rfl, .error speaks.onlyPrecision, fun _ h => by cases h⟩
    · rename_i precision
      refine always_modelPresent rfl ?_ ?_
      · intro _ model
        exact ⟨rfl, load_spoken speaks loaded,
          fun _ _ => ⟨not_not.mp backend, not_not.mp precision, model⟩⟩
      · exact fun _ => ⟨rfl, .error (joinError_ne (by decide) _), fun _ h => by cases h⟩

theorem initializeEngine_result (speaks : Speaks kind) (loaded : Except Message OrtSession) :
    Always (Effect may) (fun d' => d' = d)
      (fun x _ => x.2.ready = x.1 ∧ (x.1 = false → x.2.error ≠ "") ∧
        (x.1 = true → Taken kind config d))
      (initializeEngine kind config loaded) d := by
  refine always_bind.mpr ((attempt_result speaks loaded).mono (fun _ => id) ?_)
  rintro (reason | tensors) after untouched ⟨spoken, taken⟩
  · exact ⟨untouched, rfl, fun _ => spoken reason rfl, nofun⟩
  · exact ⟨untouched, rfl, nofun, fun _ => taken tensors rfl⟩

theorem infer_answered (speaks : Speaks kind)
    (ran : Except Message (List (Except Message (OrtValue F)))) (input : TensorView F)
    (e : OrtEngine) : Answered e.inputMeta.shape e.ready input (infer kind ran input e) := by
  have takes : ∀ answer : Except Message (OrtValue F), Spoken (takeOutput kind e answer) := by
    rintro (what | value)
    · exact .error (speaks.failure what e.deviceId)
    · exact Checked.FailsIn.ite (fun _ => .error (by decide)) (fun _ => .ok value.view)
  unfold infer
  split
  · exact .fails (spoken_or (by decide) e.error)
  · rename_i ready
    split
    · exact .fails (by decide)
    · rename_i shaped
      split
      · exact .fails (speaks.failure _ _)
      · rename_i values
        split
        · rename_i reason failed
          exact .fails ((Checked.FailsIn.mapM takes values) reason failed)
        · rename_i outputs taken
          constructor
          · nofun
          · intro _
            have fits := not_or.mp shaped
            refine ⟨by simpa using ready, rfl, not_not.mp fits.1, not_not.mp fits.2, ?_⟩
            intro view member
            obtain ⟨answer, -, took⟩ := Checked.mem_mapM taken member
            cases answer with
            | error what => cases took
            | ok value =>
              simp only [takeOutput] at took
              split at took
              · cases took
              · cases took
                exact value.counted

end OrtEngine

namespace TensorRTEngine

variable {ε F : Type} {loaded : LoadedEngine ε} {x : Inference F} {input : TensorView F}

def Trouble.text : Trouble → String
  | .failed reason => reason
  | .threw what => what

/-- Whatever goes wrong on the way is explained. -/
abbrev Told {α : Type} (y : Except Trouble α) : Prop :=
  Checked.FailsIn (fun trouble => trouble.text ≠ "") y

theorem Told.error {α : Type} {trouble : Trouble} (spoken : trouble.text ≠ "") :
    Told (.error trouble : Except Trouble α) := Checked.FailsIn.error spoken

theorem copyBuffer_told (buffer bytes : ℕ) (copied : Except Message Unit) :
    Told (copyBuffer buffer bytes copied) := by
  unfold copyBuffer
  split
  · exact .error (by decide)
  · split
    · rename_i what
      exact .error what.property
    · exact Checked.FailsIn.ok ()

theorem setAddress_told (x : Inference F) (side name : String) : Told (setAddress x side name) := by
  unfold setAddress
  split
  · refine .error ?_
    exact spoken_append (spoken_append (spoken_append (by decide) side) " ") name
  · exact Checked.FailsIn.ok ()

theorem compute_told (x : Inference F) (loaded : LoadedEngine ε) (input : TensorView F) :
    Told (compute x loaded input) := by
  refine (copyBuffer_told _ _ _).bind (fun _ _ => ?_)
  refine (setAddress_told x _ _).bind (fun _ _ => ?_)
  refine (Checked.FailsIn.forM (setAddress_told x "output") _).bind (fun _ _ => ?_)
  split
  · refine .error ?_
    simp only [Trouble.text]
    split
    · decide
    · exact spoken_append (spoken_append (by decide) _) _
  · split
    · exact .error (spoken_append (by decide) _)
    · exact Checked.FailsIn.ok ()

theorem work_told (x : Inference F) (loaded : LoadedEngine ε) (input : TensorView F) :
    Told (work x loaded input) := by
  refine (compute_told x loaded input).bind (fun _ _ => ?_)
  refine (Checked.FailsIn.mapM ?_ _).bind (fun _ _ => ?_)
  · intro output
    unfold copyOutput
    split
    · rename_i what _
      exact .error what.property
    · exact (copyBuffer_told _ _ _).bind (fun _ _ => Checked.FailsIn.ok _)
  · split
    · exact .error (spoken_append (by decide) _)
    · exact Checked.FailsIn.ok _

theorem work_outputs {outputs : List (TensorView F)} (sized : Sized loaded)
    (worked : work x loaded input = .ok outputs) : ∀ view ∈ outputs, view.Whole := by
  obtain ⟨-, -, rest⟩ := Checked.bind_eq_ok.mp worked
  obtain ⟨views, copied, rest⟩ := Checked.bind_eq_ok.mp rest
  split at rest
  · cases rest
  · cases rest
    intro view member
    obtain ⟨output, from_, made⟩ := Checked.mem_mapM copied member
    have known : output.1.1 ∈ loaded.io.outputMeta :=
      (List.of_mem_zip (List.fst_mem_of_mem_zipIdx from_)).1
    have positive := sized.outputCounts _ known
    unfold copyOutput at made
    split at made
    · cases made
    · obtain ⟨-, -, ended⟩ := Checked.bind_eq_ok.mp made
      cases ended
      simp only [TensorView.Whole, List.length_map, List.length_range]
      omega

theorem infer_answered {e : TensorRTEngine ε} (x : Inference F) (input : TensorView F)
    (sized : ∀ loaded, e.loaded = some loaded → Sized loaded) :
    Answered e.inputMetadata.shape e.ready input (e.infer x input).1 := by
  unfold infer
  split
  · rename_i loaded ready own
    split
    · exact .fails (by decide)
    · rename_i shaped
      have told := work_told x loaded input
      split
      · rename_i outputs worked
        have fits := not_or.mp shaped
        constructor
        · nofun
        · intro _
          refine ⟨ready, rfl, ?_, not_not.mp fits.2, work_outputs (sized loaded own) worked⟩
          rw [not_not.mp fits.1, inputMetadata, own]
          rfl
      · rename_i reason failed
        exact .fails (told _ failed)
      · rename_i what failed
        exact .fails (told _ failed)
  · exact .fails (spoken_or (by decide) e.error)

theorem infer_after (x : Inference F) (input : TensorView F) (e : TensorRTEngine ε) :
    (e.infer x input).2 = e ∨ (e.infer x input).1.ok = false ∧
      (e.infer x input).2 = { error := (e.infer x input).1.error, deviceId := e.deviceId } := by
  unfold infer
  split
  · split
    · exact Or.inl rfl
    · split
      · exact Or.inl rfl
      · exact Or.inl rfl
      · exact Or.inr ⟨rfl, rfl⟩
  · exact Or.inl rfl

end TensorRTEngine

namespace IInferenceEngine

variable {ε ν F : Type} {may : Mishap → Prop}

/-- An engine on a disk, with the call that initialized it last. -/
structure Held (ε ν : Type) where
  engine : IInferenceEngine ε
  disk : EngineDisk
  last : Option (Libraries ε ν × EngineConfig × EngineDisk) := none

inductive Called (F : Type) (may : Mishap → Prop) : Held ε ν → Held ε ν → Prop
  | initialized {h : Held ε ν} {lib : Libraries ε ν} {config : EngineConfig} {ok : Bool}
      {engine : IInferenceEngine ε} {disk : EngineDisk}
      (run : Run (Effect may) (h.engine.initializeEngine lib config) h.disk (some (ok, engine)) disk) :
      Called F may h ⟨engine, disk, some (lib, config, h.disk)⟩
  | inferred (h : Held ε ν) (x : Answers F) (input : TensorView F) :
      Called F may h { h with engine := (h.engine.infer x input).2 }
  | warmed (h : Held ε ν) (x : ℕ → Answers F) (zero : F) (iterations : ℤ) :
      Called F may h { h with engine := h.engine.warmup x zero iterations }

def serves : IInferenceEngine ε → Option InferenceBackend
  | .onnxRuntimeCpu _ => some .onnxRuntimeCpu
  | .onnxRuntimeCuda _ => some .onnxRuntimeCuda
  | .tensorRT _ => some .tensorRT
  | .unavailable _ => none

structure Accepts (own : InferenceBackend) (lib : Libraries ε ν) (config : EngineConfig)
    (d : EngineDisk) : Prop where
  backend : config.backend = own
  precision : config.precision = .fp32 ∨
    own = .tensorRT ∧ config.precision = .fp16 ∧ lib.tensorRT.platformHasFastFp16 = true
  model : d config.modelPath ≠ none

def Fitted (e : IInferenceEngine ε) : Prop :=
  ∀ engine, e = .tensorRT engine → ∀ loaded, engine.loaded = some loaded → TensorRTEngine.Sized loaded

/-- What an initialization gives. -/
structure Initialized (e : IInferenceEngine ε) (lib : Libraries ε ν) (config : EngineConfig)
    (d : EngineDisk) (ok : Bool) (after : IInferenceEngine ε) : Prop where
  serves : after.serves = e.serves
  backendId : after.backendId = e.backendId
  fitted : after.Fitted
  ready : after.isReady = ok
  refused : ok = false → after.lastError ≠ ""
  done : ok = true → ∃ backend, e.serves = some backend ∧ Accepts backend lib config d

theorem accepts_of_taken {kind : OrtKind} {lib : Libraries ε ν} {config : EngineConfig}
    {d : EngineDisk} (taken : OrtEngine.Taken kind config d) : Accepts kind.backend lib config d where
  backend := taken.backend
  precision := Or.inl taken.precision
  model := taken.model

theorem accepts_of_supported {lib : Libraries ε ν} {config : EngineConfig} {d : EngineDisk}
    (supported : TensorRTEngine.Supported lib.tensorRT config d) :
    Accepts .tensorRT lib config d where
  backend := supported.backend
  precision := by
    obtain single | half := supported.precision
    · exact Or.inl single
    · exact Or.inr ⟨rfl, half, supported.fast half⟩
  model := supported.model

theorem initializeEngine_always (e : IInferenceEngine ε) (lib : Libraries ε ν)
    (config : EngineConfig) (d : EngineDisk) :
    Always (Effect may) (fun _ => True) (fun x _ => Initialized e lib config d x.1 x.2)
      (e.initializeEngine lib config) d := by
  cases e with
  | onnxRuntimeCpu engine =>
    refine always_bind.mpr ((OrtEngine.initializeEngine_result OrtEngine.onnxRuntimeEngine_speaks
      (lib.onnxRuntime config)).mono (fun _ _ => trivial) ?_)
    rintro ⟨ok, after⟩ _ _ ⟨ready, refused, done⟩
    exact ⟨trivial, rfl, rfl, nofun, ready, refused,
      fun succeeded => ⟨_, rfl, accepts_of_taken (done succeeded)⟩⟩
  | onnxRuntimeCuda engine =>
    refine always_bind.mpr ((OrtEngine.initializeEngine_result
      OrtEngine.onnxRuntimeCudaEngine_speaks (lib.onnxRuntime config)).mono (fun _ _ => trivial) ?_)
    rintro ⟨ok, after⟩ _ _ ⟨ready, refused, done⟩
    exact ⟨trivial, rfl, rfl, nofun, ready, refused,
      fun succeeded => ⟨_, rfl, accepts_of_taken (done succeeded)⟩⟩
  | tensorRT engine =>
    obtain ⟨cache, named⟩ : ∃ cache, ∀ file, lib.status = .ok file →
        EngineCache.cacheFilePath lib.tensorRT.toBuildHost file config.toModelConfig = cache := by
      cases status : lib.status with
      | error what => exact ⟨.here, nofun⟩
      | ok file =>
        refine ⟨EngineCache.cacheFilePath lib.tensorRT.toBuildHost file config.toModelConfig, ?_⟩
        rintro _ ⟨⟩
        rfl
    refine always_bind.mpr ((TensorRTEngine.program_always ⟨lib.tensorRT, config, lib.status⟩
      named).mono (fun _ _ => trivial) ?_)
    rintro _ _ _ (spoken | ⟨supported, made, origin⟩)
    · refine ⟨trivial, rfl, rfl, ?_, rfl, fun _ => spoken, nofun⟩
      rintro _ ⟨⟩ _ ⟨⟩
    · refine ⟨trivial, rfl, rfl, ?_, rfl, nofun,
        fun _ => ⟨_, rfl, accepts_of_supported supported⟩⟩
      rintro _ ⟨⟩ _ ⟨⟩
      exact (TensorRTEngine.makeReady_eq_ok made).2.2
  | unavailable engine =>
    refine ⟨trivial, rfl, rfl, nofun, rfl, ?_, nofun⟩
    intro _ silent
    exact absurd (String.append_eq_empty_iff.mp silent).2 (by decide)

theorem infer_answered (e : IInferenceEngine ε) (fitted : e.Fitted) (x : Answers F)
    (input : TensorView F) : Answered e.inputMetadata.shape e.isReady input (e.infer x input).1 := by
  cases e with
  | onnxRuntimeCpu engine =>
    exact OrtEngine.infer_answered OrtEngine.onnxRuntimeEngine_speaks x.onnxRuntime input engine
  | onnxRuntimeCuda engine =>
    exact OrtEngine.infer_answered OrtEngine.onnxRuntimeCudaEngine_speaks x.onnxRuntime input engine
  | tensorRT engine => exact TensorRTEngine.infer_answered x.tensorRT input (fitted engine rfl)
  | unavailable engine =>
    refine .fails ?_
    intro silent
    exact absurd (String.append_eq_empty_iff.mp silent).2 (by decide)

theorem infer_after (e : IInferenceEngine ε) (x : Answers F) (input : TensorView F) :
    (e.infer x input).2 = e ∨ (e.infer x input).1.ok = false ∧
      ∃ deviceId, e.serves = some .tensorRT ∧
        (e.infer x input).2 = .tensorRT { error := (e.infer x input).1.error, deviceId := deviceId } := by
  cases e with
  | onnxRuntimeCpu engine => exact Or.inl rfl
  | onnxRuntimeCuda engine => exact Or.inl rfl
  | unavailable engine => exact Or.inl rfl
  | tensorRT engine =>
    obtain same | ⟨failed, after⟩ := TensorRTEngine.infer_after x.tensorRT input engine
    · exact Or.inl (congrArg _ same)
    · exact Or.inr ⟨failed, engine.deviceId, rfl, congrArg _ after⟩

/-- What holds of an engine after any calls. -/
structure Sound (created : IInferenceEngine ε) (h : Held ε ν) : Prop where
  serves : h.engine.serves = created.serves
  backendId : h.engine.backendId = created.backendId
  fitted : h.engine.Fitted
  ready : h.engine.isReady = true → ∃ backend lib config disk, created.serves = some backend ∧
    h.last = some (lib, config, disk) ∧ Accepts backend lib config disk

theorem infer_sound {created : IInferenceEngine ε} {h : Held ε ν} (sound : Sound created h)
    (x : Answers F) (input : TensorView F) :
    Sound created { h with engine := (h.engine.infer x input).2 } := by
  obtain same | ⟨-, deviceId, trt, after⟩ := infer_after h.engine x input
  · rw [same]
    exact sound
  · rw [after]
    refine ⟨trt.symm.trans sound.serves, ?_, ?_, nofun⟩
    · rw [← sound.backendId]
      cases own : h.engine <;> rw [own] at trt <;> first | rfl | cases trt
    · rintro _ ⟨⟩ _ ⟨⟩

theorem called_sound {created : IInferenceEngine ε} {h h' : Held ε ν} (sound : Sound created h)
    (call : Called F may h h') : Sound created h' := by
  cases call with
  | initialized run =>
    obtain ⟨-, ended⟩ := (initializeEngine_always h.engine _ _ _).run run
    obtain ⟨serves, backendId, fitted, ready, -, done⟩ := ended _ rfl
    refine ⟨serves.trans sound.serves, backendId.trans sound.backendId, fitted, ?_⟩
    intro isReady
    obtain ⟨backend, own, accepts⟩ := done (ready.symm.trans isReady)
    exact ⟨backend, _, _, _, sound.serves.symm.trans own, rfl, accepts⟩
  | inferred x input => exact infer_sound sound x input
  | warmed x zero iterations =>
    unfold warmup
    split
    · exact sound
    · exact List.foldlRecOn (motive := fun engine => Sound created { h with engine := engine }) _ _
        sound (fun engine kept i _ => infer_sound kept (x i) _)

theorem created_sound (hasTensorRT : Bool) (config : EngineConfig) (d : EngineDisk) :
    Sound (createInferenceEngine ε hasTensorRT config)
      (⟨createInferenceEngine ε hasTensorRT config, d, none⟩ : Held ε ν) := by
  refine ⟨rfl, rfl, ?_, ?_⟩
  · unfold createInferenceEngine
    intro engine own loaded fits
    split at own
    · cases own
    · cases own
    · split at own
      · cases own
        cases fits
      · cases own
    · cases own
  · intro ready
    unfold createInferenceEngine at ready
    split at ready
    · cases ready
    · cases ready
    · split at ready <;> cases ready
    · cases ready

def fresh (ε ν : Type) (hasTensorRT : Bool) (config : EngineConfig) (d : EngineDisk) : Held ε ν where
  engine := createInferenceEngine ε hasTensorRT config
  disk := d

section Calls

open Relation

variable {hasTensorRT : Bool} {config : EngineConfig} {d : EngineDisk} {h : Held ε ν}

theorem reached_sound (calls : ReflTransGen (Called F may) (fresh ε ν hasTensorRT config d) h) :
    Sound (createInferenceEngine ε hasTensorRT config) h := by
  induction calls with
  | refl => exact created_sound hasTensorRT config d
  | tail _ call sound => exact called_sound sound call

/-- After any calls, whatever the libraries answered: an initialization that fails leaves an engine
that is not ready and says why; an input that is not worked on gets a reason and no outputs; one that
is comes to an engine that is ready, has the shape of the model, and gets whole tensors; and an engine
that ends over an input keeps the reason. -/
theorem port_contract (calls : ReflTransGen (Called F may) (fresh ε ν hasTensorRT config d) h) :
    (∀ (lib : Libraries ε ν) config' ok engine disk,
        Run (Effect may) (h.engine.initializeEngine lib config') h.disk (some (ok, engine)) disk →
          engine.isReady = ok ∧ (ok = false → engine.lastError ≠ "")) ∧
      ∀ (x : Answers F) (input : TensorView F),
        Answered h.engine.inputMetadata.shape h.engine.isReady input (h.engine.infer x input).1 ∧
          ((h.engine.infer x input).2 = h.engine ∨
            (h.engine.infer x input).1.ok = false ∧ (h.engine.infer x input).2.isReady = false ∧
              (h.engine.infer x input).2.lastError = (h.engine.infer x input).1.error) := by
  have sound := reached_sound calls
  constructor
  · intro lib config' ok engine disk run
    have ended := ((initializeEngine_always h.engine lib config' h.disk).run run).2 _ rfl
    exact ⟨ended.ready, ended.refused⟩
  · intro x input
    refine ⟨infer_answered h.engine sound.fitted x input, ?_⟩
    obtain same | ⟨failed, deviceId, -, after⟩ := infer_after h.engine x input
    · exact Or.inl same
    · refine Or.inr ⟨failed, ?_, ?_⟩
      · rw [after]
        rfl
      · rw [after]
        rfl

def identityLibraries : Libraries (List UInt8) (List UInt8) where
  onnxRuntime := fun _ =>
    .ok
      { inputs := [.ok { name := "x", shape := [1, 3, 2, 2] }]
        outputs := [.ok { name := "y", shape := [1, 3, 2, 2] }] }
  tensorRT := TensorRTEngine.workbench
  status := .ok ⟨9, -5⟩

def identityConfig : EngineConfig where
  toModelConfig := { EngineCache.tinyModel 0 with precision := .fp32 }

def identityEngine : IInferenceEngine (List UInt8) := .onnxRuntimeCpu
  { ready := true
    inputMeta := ⟨"x", [1, 3, 2, 2], "float32"⟩
    outputMeta := [⟨"y", [1, 3, 2, 2], "float32"⟩] }

def identityHeld : Held (List UInt8) (List UInt8) where
  engine := identityEngine
  disk := TensorRTEngine.freshDisk
  last := some (identityLibraries, identityConfig, TensorRTEngine.freshDisk)

theorem identity_run : Run (Effect noMishap)
    ((createInferenceEngine (List UInt8) true identityConfig).initializeEngine identityLibraries
      identityConfig) TensorRTEngine.freshDisk (some (true, identityEngine))
    TensorRTEngine.freshDisk :=
  .ask (TensorRTEngine.looks_for_model TensorRTEngine.freshDisk_model)
    (.done (true, identityEngine) TensorRTEngine.freshDisk)

theorem identity_calls : ReflTransGen (Called (Option ℚ) noMishap)
    (fresh (List UInt8) (List UInt8) true identityConfig TensorRTEngine.freshDisk) identityHeld :=
  .single (.initialized identity_run)

def identityView : TensorView (Option ℚ) := .zeros (some 0) [1, 3, 2, 2]

theorem identityView_whole : identityView.Whole := by
  unfold TensorView.Whole
  decide +kernel

def identityAnswers : Answers (Option ℚ) where
  onnxRuntime := .ok [.ok ⟨true, identityView, identityView_whole⟩]
  tensorRT :=
    { copyIn := .ok ()
      setTensorAddress := fun _ => true
      enqueueV3 := true
      messages := ""
      computeSync := .ok ()
      resize := fun _ => .ok ()
      copyOut := fun _ => .ok ()
      output := fun _ _ => some 0
      copySync := .ok () }

theorem port_contract_identity :
    (identityEngine.infer identityAnswers identityView).1.ok = true ∧
      Answered [1, 3, 2, 2] true identityView
        (identityEngine.infer identityAnswers identityView).1 := by
  refine ⟨?_, ((port_contract identity_calls).2 identityAnswers identityView).1⟩
  decide +kernel

theorem created_serves {own : InferenceBackend}
    (serves : (createInferenceEngine ε hasTensorRT config).serves = some own) :
    own = config.backend ∧ (own = .tensorRT → hasTensorRT = true) := by
  unfold createInferenceEngine at serves
  split at serves
  · rename_i backend
    cases serves
    exact ⟨backend.symm, nofun⟩
  · rename_i backend
    cases serves
    exact ⟨backend.symm, nofun⟩
  · rename_i backend
    split at serves
    · cases serves
      exact ⟨backend.symm, fun _ => ‹_›⟩
    · cases serves
  · cases serves

/-- Nothing stands in for the backend that was asked for: an engine is ready only if the last call
that initialized it asked for the backend the engine was made for, in a precision this backend has
and with a model that was there. -/
theorem never_substituted
    (calls : ReflTransGen (Called F may) (fresh ε ν hasTensorRT config d) h)
    (ready : h.engine.isReady = true) :
    h.engine.backendId = (createInferenceEngine ε hasTensorRT config).backendId ∧
      (config.backend = .tensorRT → hasTensorRT = true) ∧
      ∃ lib config' disk, h.last = some (lib, config', disk) ∧
        Accepts config.backend lib config' disk := by
  have sound := reached_sound calls
  obtain ⟨own, lib, config', disk, serves, last, accepts⟩ := sound.ready ready
  obtain ⟨rfl, built⟩ := created_serves serves
  exact ⟨sound.backendId, built, lib, config', disk, last, accepts⟩

theorem never_substituted_identity :
    identityEngine.backendId = "onnxruntime-cpu" ∧
      ∃ lib config disk, identityHeld.last = some (lib, config, disk) ∧
        Accepts .onnxRuntimeCpu lib config disk := by
  obtain ⟨id, -, accepted⟩ := never_substituted identity_calls rfl
  exact ⟨id, accepted⟩

end Calls

end IInferenceEngine

end VisionLab
