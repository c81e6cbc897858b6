import VisionLab.Inference.EngineOrigin

/-! Starts of TensorRT engines one after another on one disk, each of which may break off anywhere. -/
namespace VisionLab

namespace TensorRTEngine

open Files EngineFiles Crash

variable {ε ν : Type} {may : Mishap → Prop} {d₀ d d₁ d₂ : EngineDisk}

/-- What one process asks, on which machine, and what it sees of the model. -/
structure Start (ε ν : Type) where
  trt : TensorRT ε ν
  config : EngineConfig
  status : Except Message FileStatus

namespace Start

/-- The name it knows its cache by, unless the file system refuses to describe the model. -/
def cachePath (start : Start ε ν) : Option Path :=
  match start.status with
  | .error _ => none
  | .ok file => some (EngineCache.cacheFilePath start.trt.toBuildHost file start.config.toModelConfig)

def program (start : Start ε ν) : Action (Bool × TensorRTEngine ε) :=
  initializeEngine start.trt start.config start.status

def Outside (start : Start ε ν) : Prop :=
  start.config.modelPath.parentPath.filename ≠ ".trt-cache"

theorem cachePath_eq_some {start : Start ε ν} {cache : Path} (named : start.cachePath = some cache) :
    ∃ file, start.status = .ok file ∧
      EngineCache.cacheFilePath start.trt.toBuildHost file start.config.toModelConfig = cache := by
  unfold cachePath at named
  split at named
  · cases named
  · rename_i file known
    exact ⟨file, known, Option.some.inj named⟩

theorem cachePath_folder {start : Start ε ν} {cache : Path} (named : start.cachePath = some cache) :
    cache.parentPath.filename = ".trt-cache" ∧ (tmpPath cache).parentPath.filename = ".trt-cache" := by
  obtain ⟨file, -, rfl⟩ := cachePath_eq_some named
  have names := EngineCache.cacheFilePath_names start.trt.toBuildHost file start.config.toModelConfig
  constructor
  · simp only [Path.filename, Path.parentPath, names, List.dropLast_concat, List.getLast?_concat,
      Option.getD_some]
  · simp only [Path.filename, Path.parentPath, tmpPath, Path.plus, names, List.dropLast_concat,
      List.getLast?_concat, Option.getD_some]

theorem Outside.apart {start other : Start ε ν} {cache : Path} (outside : start.Outside)
    (named : other.cachePath = some cache) :
    start.config.modelPath ≠ cache ∧ start.config.modelPath ≠ tmpPath cache := by
  obtain ⟨folder, tmpFolder⟩ := cachePath_folder named
  constructor
  · rintro rfl
    exact outside folder
  · intro same
    rw [← same] at tmpFolder
    exact outside tmpFolder

end Start

/-- How the attempt of a start may have ended, told by the engine it leaves. -/
inductive Result (trt : TensorRT ε ν) (config : EngineConfig) (may : Mishap → Prop) (cache : Path)
    (d₀ : EngineDisk) : Bool × TensorRTEngine ε → EngineDisk → Prop
  | failed {reason : String} {d : EngineDisk} (spoken : reason ≠ "") :
    Result trt config may cache d₀ (false, { error := reason, deviceId := config.deviceId }) d
  | ready {loaded : LoadedEngine ε} {d : EngineDisk} (supported : Supported trt config d₀)
      (made : makeReady trt (loaded.engine, loaded.io) = .ok loaded)
      (origin : Origin trt config may cache d₀ (loaded.engine, loaded.io) d) :
    Result trt config may cache d₀
      (true, { ready := true, deviceId := config.deviceId, loaded := some loaded }) d

theorem program_always (start : Start ε ν) {cache : Path}
    (named : ∀ file, start.status = .ok file →
      EngineCache.cacheFilePath start.trt.toBuildHost file start.config.toModelConfig = cache) :
    Always (Effect may) (Left may (Planned start.trt start.config d₀) cache d₀)
      (Result start.trt start.config may cache d₀) start.program d₀ := by
  refine always_bind.mpr ((attempt_ended named).mono (fun _ => id) ?_)
  rintro result after left (spoken | ⟨supported, made, origin⟩)
  · exact ⟨left, .failed spoken⟩
  · exact ⟨left, .ready supported made origin⟩

theorem program_run {start : Start ε ν} {cache : Path} {result : Option (Bool × TensorRTEngine ε)}
    (named : ∀ file, start.status = .ok file →
      EngineCache.cacheFilePath start.trt.toBuildHost file start.config.toModelConfig = cache)
    (run : Run (Effect may) start.program d₀ result d) :
    Left may (Planned start.trt start.config d₀) cache d₀ d ∧
      ∀ x, result = some x → Result start.trt start.config may cache d₀ x d :=
  (program_always start named).run run

/-- A start that has no name for its cache writes nothing. -/
theorem program_nameless {start : Start ε ν} {result : Option (Bool × TensorRTEngine ε)}
    (nameless : start.cachePath = none) (run : Run (Effect may) start.program d₀ result d) :
    d = d₀ := by
  have unknown : ∀ cache file, start.status = .ok file →
      EngineCache.cacheFilePath start.trt.toBuildHost file start.config.toModelConfig = cache := by
    intro cache file known
    rw [Start.cachePath, known] at nameless
    cases nameless
  have kept : ∀ cache name, name ≠ cache → name ≠ tmpPath cache → d name = d₀ name :=
    fun cache => (program_run (unknown cache) run).1.others
  funext name
  by_cases apart : name ≠ .here ∧ name ≠ tmpPath .here
  · exact kept .here name apart.1 apart.2
  · -- then it is none of the two names of another cache
    have shape : name.names = [] ∨ name.names = [".tmp"] := by
      by_cases own : name = .here
      · exact Or.inl (congrArg Path.names own)
      · have tmp : name = tmpPath .here := by
          by_contra other
          exact apart ⟨own, other⟩
        exact Or.inr (congrArg Path.names tmp)
    refine kept (tmpPath (tmpPath .here)) name ?_ ?_
    · rintro rfl
      revert shape
      decide
    · rintro rfl
      revert shape
      decide

/-- Starts that follow one another on a disk, each as far as it gets. -/
inductive Series (may : Mishap → Prop) : EngineDisk → List (Start ε ν) → EngineDisk → Prop
  | nil (d : EngineDisk) : Series may d [] d
  | snoc {d₀ d d' : EngineDisk} {starts : List (Start ε ν)} {start : Start ε ν}
      {result : Option (Bool × TensorRTEngine ε)} (before : Series may d₀ starts d)
      (run : Run (Effect may) start.program d result d') : Series may d₀ (starts ++ [start]) d'

/-- What may lie under a name after such starts. -/
inductive Held (may : Mishap → Prop) (starts : List (Start ε ν)) (d₀ : EngineDisk) (name : Path)
    (content : Option (List UInt8)) : Prop
  | same (kept : content = d₀ name)
  | tmp {start : Start ε ν} {cache : Path} (member : start ∈ starts)
      (named : start.cachePath = some cache) (own : name = tmpPath cache)
  | gone {start : Start ε ν} (member : start ∈ starts) (named : start.cachePath = some name)
      (nothing : content = none)
  | plan {start : Start ε ν} (member : start ∈ starts) (named : start.cachePath = some name)
      (stored : Stored may (Planned start.trt start.config d₀) content)

theorem Held.more {starts : List (Start ε ν)} {name : Path} {content : Option (List UInt8)}
    (held : Held may starts d₀ name content) (start : Start ε ν) :
    Held may (starts ++ [start]) d₀ name content := by
  cases held with
  | same kept => exact .same kept
  | tmp member named own => exact .tmp (List.mem_append_left _ member) named own
  | gone member named nothing => exact .gone (List.mem_append_left _ member) named nothing
  | plan member named stored => exact .plan (List.mem_append_left _ member) named stored

theorem Held.model {starts : List (Start ε ν)} {start : Start ε ν} {content : Option (List UInt8)}
    (outside : start.Outside) (held : Held may starts d₀ start.config.modelPath content) :
    content = d₀ start.config.modelPath := by
  cases held with
  | same kept => exact kept
  | tmp member named own => exact absurd own (outside.apart named).2
  | gone member named nothing => exact absurd rfl (outside.apart named).1
  | plan member named stored => exact absurd rfl (outside.apart named).1

theorem series_held {starts : List (Start ε ν)} (outside : ∀ start ∈ starts, start.Outside)
    (series : Series may d₀ starts d) (name : Path) : Held may starts d₀ name (d name) := by
  induction series generalizing name with
  | nil => exact .same rfl
  | @snoc d d' starts start result before run ih =>
    have held := ih (fun other member => outside other (List.mem_append_left _ member))
    have last : start ∈ starts ++ [start] := List.mem_append_right _ List.mem_cons_self
    cases named : start.cachePath with
    | none =>
      rw [program_nameless named run]
      exact (held name).more start
    | some cache =>
      have own : ∀ file, start.status = .ok file →
          EngineCache.cacheFilePath start.trt.toBuildHost file start.config.toModelConfig =
            cache := by
        intro file known
        obtain ⟨file', known', path⟩ := Start.cachePath_eq_some named
        rw [known] at known'
        cases known'
        exact path
      have left := (program_run own run).1
      by_cases cached : name = cache
      · subst cached
        obtain same | gone | ⟨plan, front, ⟨onnxBytes, model, planned⟩, stored⟩ := left.cached
        · rw [same]
          exact (held name).more start
        · exact .gone last named gone
        · refine .plan last named ⟨plan, front, ⟨onnxBytes, ?_, planned⟩, stored⟩
          rw [← model]
          exact ((held _).model (outside start last)).symm
      · by_cases temporary : name = tmpPath cache
        · exact .tmp last named temporary
        · rw [left.others name cached temporary]
          exact (held name).more start

section Workbench

variable {may : Mishap → Prop}

/-- A machine whose plans are the models behind one byte. -/
def workbench : TensorRT (List UInt8) (List UInt8) where
  toBuildHost := EngineCache.twinHost
  deviceCount := .ok 2
  setDevice := fun _ => .ok ()
  streamCreate := .ok ()
  createInferBuilder := true
  platformHasFastFp16 := true
  createInferRuntime := true
  deserializeCudaEngine := fun blob => if blob.head? = some 84 then some blob else none
  ioTensors := fun _ =>
    [{ name := some "images", mode := .input, dims := some [1, 3, 320, 320] },
      { name := some "output0", mode := .output, dims := some [1, 84, 2100] }]
  createNetworkV2 := true
  createParser := true
  parse := .ok
  inputs := fun _ => [{ name := some "images", dims := some [1, 3, 320, 320] }]
  outputs := fun _ => [{ name := some "output0", dims := some [1, 84, 2100] }]
  createBuilderConfig := true
  buildSerializedNetwork := fun network _ => some (84 :: network)
  createExecutionContext := fun _ => true
  malloc := fun _ => .ok ()
  messages := ""

def workbenchStart : Start (List UInt8) (List UInt8) where
  trt := workbench
  config := { toModelConfig := EngineCache.tinyModel 0, backend := .tensorRT }
  status := .ok ⟨9, -5⟩

abbrev workbenchModel : Path := (EngineCache.tinyModel 0).modelPath

abbrev workbenchCache : Path :=
  EngineCache.cacheFilePath workbench.toBuildHost ⟨9, -5⟩ (EngineCache.tinyModel 0)

def workbenchIo : EngineIo where
  inputName := "images"
  inputMeta := ⟨"images", [1, 3, 320, 320], "float32"⟩
  outputNames := ["output0"]
  outputMeta := [⟨"output0", [1, 84, 2100], "float32"⟩]

def workbenchEngine : TensorRTEngine (List UInt8) where
  ready := true
  loaded := some
    { engine := [84, 1, 2]
      io := workbenchIo
      inputBuffer := 1228800
      outputBuffers := [705600] }

def freshDisk : EngineDisk := Function.update (fun _ => none) workbenchModel (some [1, 2])

def writingDisk (content : List UInt8) : EngineDisk :=
  Function.update freshDisk (tmpPath workbenchCache) (some content)

def builtDisk : EngineDisk :=
  Function.update (Function.update (writingDisk [84, 1, 2]) (tmpPath workbenchCache) none)
    workbenchCache (some [84, 1, 2])

theorem workbenchModel_apart :
    workbenchModel ≠ workbenchCache ∧ workbenchModel ≠ tmpPath workbenchCache :=
  EngineCache.modelPath_ne_cache workbench.toBuildHost ⟨9, -5⟩ (EngineCache.tinyModel 0)

theorem freshDisk_model : freshDisk workbenchModel = some [1, 2] := Function.update_self ..

theorem writingDisk_model (content : List UInt8) :
    writingDisk content workbenchModel = some [1, 2] := by
  rw [writingDisk, Function.update_of_ne workbenchModel_apart.2, freshDisk_model]

theorem builtDisk_model : builtDisk workbenchModel = some [1, 2] := by
  rw [builtDisk, Function.update_of_ne workbenchModel_apart.1,
    Function.update_of_ne workbenchModel_apart.2, writingDisk_model]

theorem freshDisk_cache : freshDisk workbenchCache = none := by
  rw [freshDisk, Function.update_of_ne workbenchModel_apart.1.symm]

theorem writingDisk_cache (content : List UInt8) : writingDisk content workbenchCache = none := by
  rw [writingDisk, Function.update_of_ne (tmpPath_ne workbenchCache).symm, freshDisk_cache]

section Attempt

variable {d : EngineDisk}

theorem looks_for_model (model : d workbenchModel = some [1, 2]) :
    Effect may d (.exists_ workbenchModel) true d :=
  ⟨rfl, Or.inl (congrArg Option.isSome model).symm⟩

theorem misses_cache (nothing : d workbenchCache = none) :
    Effect may d (.exists_ workbenchCache) false d :=
  ⟨rfl, Or.inl (congrArg Option.isSome nothing).symm⟩

theorem reads_model (model : d workbenchModel = some [1, 2]) :
    Effect may d (.read workbenchModel) (some [1, 2]) d :=
  ⟨rfl, Or.inl model.symm⟩

theorem makes_folder : Effect may d (.makeFolder workbenchCache.parentPath) true d :=
  ⟨rfl, Or.inl rfl⟩

theorem creates_file (empty : Function.update d (tmpPath workbenchCache) (some []) = writingDisk []) :
    Effect may d (.create (tmpPath workbenchCache)) true (writingDisk []) :=
  Or.inl ⟨rfl, empty.symm⟩

theorem writes_plan {front rest : List UInt8} (parts : [84, 1, 2] = front ++ rest) :
    Effect may (writingDisk []) (.append (tmpPath workbenchCache) [84, 1, 2]) (some rest)
      (writingDisk front) :=
  ⟨[], front, rest, Function.update_self .., parts, (Function.update_idem ..).symm, Or.inl rfl⟩

/-- A process that ends while it writes the plan. -/
theorem broken_run :
    Run (Effect may) workbenchStart.program freshDisk none (writingDisk [84]) :=
  .ask (looks_for_model freshDisk_model) (.ask (misses_cache freshDisk_cache)
    (.ask (reads_model freshDisk_model) (.ask makes_folder (.ask (creates_file rfl)
      (.ask (writes_plan (show [84, 1, 2] = [84] ++ [1, 2] from rfl)) (.broken _ _))))))

theorem built_run (model : d workbenchModel = some [1, 2]) (nothing : d workbenchCache = none)
    (empty : Function.update d (tmpPath workbenchCache) (some []) = writingDisk []) :
    Run (Effect may) workbenchStart.program d (some (true, workbenchEngine)) builtDisk := by
  have closes : Effect may (writingDisk [84, 1, 2]) (.close (tmpPath workbenchCache) []) ()
      (writingDisk [84, 1, 2]) :=
    ⟨[84, 1, 2], [], [], Function.update_self .., rfl, (Function.update_idem ..).symm, Or.inl rfl⟩
  have renames : Effect may (writingDisk [84, 1, 2])
      (.rename (tmpPath workbenchCache) workbenchCache) true builtDisk :=
    Or.inl ⟨[84, 1, 2], Function.update_self .., rfl, rfl⟩
  exact .ask (looks_for_model model) (.ask (misses_cache nothing) (.ask (reads_model model)
    (.ask makes_folder (.ask (creates_file empty) (.ask (writes_plan rfl) (.ask closes
      (.ask renames (.done (true, workbenchEngine) builtDisk))))))))

end Attempt

end Workbench

/-- However many processes start an engine on a disk, and wherever each of them ends, the models and
all other files are as they were, and the name of a cache stands for what it stood for, for nothing,
or for an engine that was built from the model of a start with this cache. -/
theorem caches_survive_crashes {starts : List (Start ε ν)}
    (outside : ∀ start ∈ starts, start.Outside) (series : Series may d₀ starts d) :
    (∀ name, (∀ start ∈ starts, ∀ cache, start.cachePath = some cache →
        name ≠ cache ∧ name ≠ tmpPath cache) → d name = d₀ name) ∧
      ∀ start ∈ starts, ∀ cache, start.cachePath = some cache →
        d cache = d₀ cache ∨ d cache = none ∨
          ∃ maker ∈ starts, maker.cachePath = some cache ∧
            Stored may (Planned maker.trt maker.config d₀) (d cache) := by
  constructor
  · intro name other
    cases series_held outside series name with
    | same kept => exact kept
    | tmp member named own => exact absurd own (other _ member _ named).2
    | gone member named nothing => exact absurd rfl (other _ member _ named).1
    | plan member named stored => exact absurd rfl (other _ member _ named).1
  · intro start member cache named
    cases series_held outside series cache with
    | same kept => exact Or.inl kept
    | @tmp other otherCache _ named' own =>
      obtain ⟨file, -, path⟩ := Start.cachePath_eq_some named
      obtain ⟨file', -, path'⟩ := Start.cachePath_eq_some named'
      rw [← path, ← path'] at own
      exact absurd own (EngineCache.cache_ne_tmpPath _ _ _ _ _ _)
    | gone _ _ nothing => exact Or.inr (Or.inl nothing)
    | plan maker named' stored => exact Or.inr (Or.inr ⟨_, maker, named', stored⟩)

/-- The first process ends in the middle, and the second one builds the engine. -/
theorem caches_survive_crashes_workbench :
    Series noMishap freshDisk [workbenchStart, workbenchStart] builtDisk ∧
      builtDisk workbenchModel = freshDisk workbenchModel ∧
      (builtDisk workbenchCache = freshDisk workbenchCache ∨ builtDisk workbenchCache = none ∨
        ∃ maker ∈ [workbenchStart, workbenchStart], maker.cachePath = some workbenchCache ∧
          Stored noMishap (Planned maker.trt maker.config freshDisk) (builtDisk workbenchCache)) := by
  have second : Run (Effect noMishap) workbenchStart.program (writingDisk [84])
      (some (true, workbenchEngine)) builtDisk :=
    built_run (writingDisk_model _) (writingDisk_cache _) (Function.update_idem ..)
  have series : Series noMishap freshDisk [workbenchStart, workbenchStart] builtDisk :=
    .snoc (.snoc (.nil freshDisk) broken_run) second
  have only : ∀ start ∈ [workbenchStart, workbenchStart], start = workbenchStart := by simp
  have outside : ∀ start ∈ [workbenchStart, workbenchStart], start.Outside := by
    intro start member
    rw [only start member]
    unfold Start.Outside
    decide
  obtain ⟨others, caches⟩ := caches_survive_crashes outside series
  refine ⟨series, others workbenchModel ?_, caches workbenchStart List.mem_cons_self _ rfl⟩
  intro start member cache named
  rw [only start member] at named
  cases named
  exact workbenchModel_apart

section Single

variable {start : Start ε ν} {cache : Path}

theorem Start.named_of_cachePath (named : start.cachePath = some cache) (file : FileStatus)
    (known : start.status = .ok file) :
    EngineCache.cacheFilePath start.trt.toBuildHost file start.config.toModelConfig = cache := by
  obtain ⟨file', known', path⟩ := Start.cachePath_eq_some named
  rw [known] at known'
  cases known'
  exact path

theorem openEngine_fits {trt : TensorRT ε ν} {config : EngineConfig} {blob : List UInt8}
    {engine : ε} {io : EngineIo} (opens : openEngine trt config blob = .ok (engine, io)) :
    trt.deserializeCudaEngine blob = some engine ∧
      readEngineIo (trt.ioTensors engine) config.toModelConfig = .ok io := by
  unfold openEngine at opens
  split at opens
  · cases opens
  · rename_i opened deserialized
    cases read : readEngineIo (trt.ioTensors opened) config.toModelConfig with
    | error reason =>
      rw [read] at opens
      cases opens
    | ok found =>
      rw [read] at opens
      cases opens
      exact ⟨deserialized, read⟩

theorem program_unnamed (nameless : start.cachePath = none) :
    Always (Effect may) (fun _ => True) (fun x _ => x.1 = false) start.program d := by
  have unknown : ∃ what, start.status = .error what := by
    unfold Start.cachePath at nameless
    split at nameless
    · exact ⟨_, ‹_›⟩
    · cases nameless
  obtain ⟨what, status⟩ := unknown
  refine always_bind.mpr ?_
  unfold attempt
  split
  · exact ⟨trivial, trivial, rfl⟩
  · split
    · exact ⟨trivial, trivial, rfl⟩
    · refine always_modelPresent trivial ?_ (fun _ => ⟨trivial, trivial, rfl⟩)
      intro _ _
      simp only [Bool.not_true, Bool.false_eq_true, if_false, load, status]
      split
      · exact ⟨trivial, trivial, rfl⟩
      · split
        · exact ⟨trivial, trivial, rfl⟩
        · exact ⟨trivial, trivial, rfl⟩

/-- A start that reports success knows the name of its cache and has an engine whose tensors are
checked and whose buffers have their sizes, whatever lay under that name; what did not fit there was
replaced. -/
theorem start_result {ok : Bool} {e : TensorRTEngine ε}
    (run : Run (Effect may) start.program d₀ (some (ok, e)) d) :
    (ok = false → e.ready = false ∧ e.loaded = none ∧ e.error ≠ "") ∧
      (ok = true → e.ready = true ∧ e.error = "" ∧ Supported start.trt start.config d₀ ∧
        ∃ cache loaded, start.cachePath = some cache ∧ e.loaded = some loaded ∧ Sized loaded ∧
          Fits start.config.toModelConfig (start.trt.ioTensors loaded.engine) loaded.io ∧
          loaded.io.inputName ≠ "" ∧ loaded.io.outputNames ≠ [] ∧
          Origin start.trt start.config may cache d₀ (loaded.engine, loaded.io) d) := by
  cases named : start.cachePath with
  | none =>
    have refused : ok = false := ((program_unnamed named).run run).2 _ rfl
    have unknown : ∀ file, start.status = .ok file →
        EngineCache.cacheFilePath start.trt.toBuildHost file start.config.toModelConfig = .here := by
      intro file known
      rw [Start.cachePath, known] at named
      cases named
    cases (program_run unknown run).2 _ rfl with
    | failed spoken => exact ⟨fun _ => ⟨rfl, rfl, spoken⟩, nofun⟩
    | ready => cases refused
  | some cache =>
    cases (program_run (Start.named_of_cachePath named) run).2 _ rfl with
    | failed spoken => exact ⟨fun _ => ⟨rfl, rfl, spoken⟩, nofun⟩
    | @ready loaded _ supported made origin =>
      refine ⟨nofun, fun _ => ⟨rfl, rfl, supported, cache, loaded, rfl, rfl,
        (makeReady_eq_ok made).2.2, ?_⟩⟩
      have read : readEngineIo (start.trt.ioTensors loaded.engine) start.config.toModelConfig =
          .ok loaded.io := by
        cases origin with
        | hit blob cached some_ opens untouched => exact (openEngine_fits opens).2
        | built plan planned opens stale stored => exact (openEngine_fits opens).2
      obtain ⟨fits, input, outputs⟩ := readEngineIo_fits read
      exact ⟨fits, input, outputs, origin⟩

theorem start_result_workbench :
    Supported workbench workbenchStart.config freshDisk ∧
      ∃ cache loaded, workbenchStart.cachePath = some cache ∧
        workbenchEngine.loaded = some loaded ∧ Sized loaded ∧
        Fits workbenchStart.config.toModelConfig (workbench.ioTensors loaded.engine) loaded.io ∧
        loaded.io.inputName ≠ "" ∧ loaded.io.outputNames ≠ [] ∧
        Origin workbench workbenchStart.config noMishap cache freshDisk (loaded.engine, loaded.io)
          builtDisk := by
  have run : Run (Effect noMishap) workbenchStart.program freshDisk (some (true, workbenchEngine))
      builtDisk := built_run freshDisk_model freshDisk_cache rfl
  obtain ⟨-, -, supported, engine⟩ := (start_result run).2 rfl
  exact ⟨supported, engine⟩

/-- What a start asks for whose cache is of use. -/
inductive Looks (modelPath cache : Path) : Request Path UInt8 → Prop
  | model : Looks modelPath cache (.exists_ modelPath)
  | cache : Looks modelPath cache (.exists_ cache)
  | content : Looks modelPath cache (.read cache)

theorem Looks.still {modelPath cache : Path} (d : EngineDisk) (r : Request Path UInt8)
    (answer : Answer r) (after : EngineDisk) (looks : Looks modelPath cache r)
    (answered : Effect may d r answer after) : after = d := by
  cases looks <;> exact answered.1

theorem Looks.answered {modelPath cache : Path} (d : EngineDisk) (r : Request Path UInt8)
    (looks : Looks modelPath cache r) : ∃ answer after, Effect may d r answer after := by
  cases looks with
  | model => exact ⟨_, d, rfl, Or.inl rfl⟩
  | cache => exact ⟨_, d, rfl, Or.inl rfl⟩
  | content => exact ⟨_, d, rfl, Or.inl rfl⟩

/-- Where nothing goes wrong, a cache that opens is looked for, read and taken. -/
theorem program_hits {loaded : LoadedEngine ε} {blob : List UInt8}
    (named : start.cachePath = some cache) (supported : Supported start.trt start.config d)
    (cached : d cache = some blob) (some_ : blob ≠ [])
    (opens : openEngine start.trt start.config blob = .ok (loaded.engine, loaded.io))
    (made : makeReady start.trt (loaded.engine, loaded.io) = .ok loaded) :
    Asks (Effect noMishap) (Looks start.config.modelPath cache)
      (fun x _ => x = (true, ⟨"", true, start.config.deviceId, some loaded⟩)) start.program d := by
  have precise : ¬ (start.config.precision ≠ .fp32 ∧ start.config.precision ≠ .fp16) := by
    have known := supported.precision
    grind
  have present : (d start.config.modelPath).isSome = true :=
    Option.isSome_iff_ne_none.mpr supported.model
  obtain ⟨file, status, path⟩ := Start.cachePath_eq_some named
  refine asks_bind ?_
  rw [attempt, if_neg (not_not_intro supported.backend), if_neg precise, modelPresent,
    if_neg (by simp [supported.named])]
  refine asks_exists .model ?_
  simp only [present, Bool.not_true, Bool.false_eq_true, if_false, supported.device, load,
    supported.runtime, status, path]
  refine asks_bind (asks_exists .cache ?_)
  simp only [cached, Option.isSome_some, Bool.not_true, Bool.false_eq_true, if_false]
  refine asks_readBinaryFile .content cached some_ ?_
  simp only [opens]
  have ready : (makeReady start.trt (loaded.engine, loaded.io)).mapError (fail start.trt) =
      .ok loaded := by
    rw [made]
    rfl
  simp only [pure, Asks, ready]

/-- A start finds the engine of an earlier one in the cache. It asks whether there is a model and
whether there is a cache, reads the cache and nothing else, and ends with the same engine. -/
theorem next_start_hits {e : TensorRTEngine ε} (flushed : ¬ may .flush)
    (named : start.cachePath = some cache)
    (first : Run (Effect may) start.program d₀ (some (true, e)) d₁)
    (kept : d₂ cache = d₁ cache) (model : d₂ start.config.modelPath ≠ none) :
    (∀ r, Reaches (Effect noMishap) start.program d₂ r → Looks start.config.modelPath cache r) ∧
      Run (Effect noMishap) start.program d₂ (some (true, e)) d₂ ∧
      ∀ result d', Run (Effect noMishap) start.program d₂ result d' →
        d' = d₂ ∧ ∀ x, result = some x → x = (true, e) := by
  cases (program_run (Start.named_of_cachePath named) first).2 _ rfl with
  | @ready loaded _ supported made origin =>
    obtain ⟨blob, cached, some_, opens⟩ : ∃ blob, d₁ cache = some blob ∧ blob ≠ [] ∧
        openEngine start.trt start.config blob = .ok (loaded.engine, loaded.io) := by
      cases origin with
      | hit blob cached some_ opens untouched => exact ⟨blob, untouched ▸ cached, some_, opens⟩
      | built plan planned opens stale stored =>
        obtain ⟨_, front, rfl, content, -, whole⟩ := stored
        obtain rfl := whole.resolve_right flushed
        obtain ⟨onnxBytes, -, built⟩ := planned
        exact ⟨_, content, planOf_ne_nil built, opens⟩
    have hits := program_hits named { supported with model := model } (kept.trans cached) some_
      opens made
    have through := hits.always Looks.still
    refine ⟨fun r reached => hits.reaches reached, ?_, ?_⟩
    · obtain ⟨x, d', run, rfl⟩ := hits.ends Looks.answered
      obtain rfl := (through.run run).1
      exact run
    · exact fun result d' run => through.run run

theorem next_start_hits_workbench :
    Run (Effect noMishap) workbenchStart.program freshDisk (some (true, workbenchEngine)) builtDisk ∧
      (∀ r, Reaches (Effect noMishap) workbenchStart.program builtDisk r →
        Looks workbenchModel workbenchCache r) ∧
      Run (Effect noMishap) workbenchStart.program builtDisk (some (true, workbenchEngine))
        builtDisk := by
  have model : builtDisk workbenchModel ≠ none := by
    rw [builtDisk_model]
    exact Option.some_ne_none _
  have first : Run (Effect noMishap) workbenchStart.program freshDisk (some (true, workbenchEngine))
      builtDisk := built_run freshDisk_model freshDisk_cache rfl
  obtain ⟨looks, again, -⟩ := next_start_hits not_false rfl first rfl model
  exact ⟨first, looks, again⟩

end Single

end TensorRTEngine

end VisionLab
