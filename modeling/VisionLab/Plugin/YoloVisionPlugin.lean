import VisionLab.Detectors.YoloSafety
import VisionLab.Inference.EngineContract
import VisionLab.Utilities.CameraManager

/-! The YOLO plugin, from the settings of a session to the detections. Its detector works on the
engine that was asked for or not at all, and takes the rest of its settings from the same request. -/
namespace VisionLab

open Files EngineFiles Crash

/-- The lines of a file as `std::getline` reads them; what follows the last separator is one if it is
not empty. -/
def getLines (text : List Char) : List (List Char) :=
  if (text.splitOn '\n').getLast? = some [] then (text.splitOn '\n').dropLast
  else text.splitOn '\n'

/-- `none` is a file that cannot be opened. -/
def loadClassNames : Option String → List String
  | none => []
  | some text => (getLines text.toList).map String.ofList

/-- What the plugin makes: a YOLO detector on an engine of the factory. -/
structure PortDetector (ε F : Type) where
  engine : IInferenceEngine ε
  config : EngineConfig
  confidenceThreshold : F
  nmsThreshold : F
  classNames : List String := []

section Detect

variable {ε F : Type} (blobFromImage : Mat → ℤ → ℤ → List F)

/-- The tensor for a frame. The numbers are those of OpenCV. -/
def preprocessYoloV4Tiny (bgr : Mat) (inW inH : ℤ) : TensorView F :=
  if bgr.empty ∨ inW ≤ 0 ∨ inH ≤ 0 then ⟨[], []⟩
  else ⟨blobFromImage bgr inW inH, [1, 3, inH, inW]⟩

namespace PortDetector

def input (image : Mat) (d : PortDetector ε F) : TensorView F :=
  preprocessYoloV4Tiny blobFromImage image d.config.inputWidth d.config.inputHeight

def view (x : Answers F) (d : PortDetector ε F) : YoloDetector F where
  m_engine := some
    { ready := d.engine.isReady
      infer := fun image => (d.engine.infer x (d.input blobFromImage image)).1 }
  inputWidth := d.config.inputWidth
  inputHeight := d.config.inputHeight
  confidenceThreshold := d.confidenceThreshold
  nmsThreshold := d.nmsThreshold
  m_classNames := d.classNames

def asks (image : Mat) (d : PortDetector ε F) : Bool :=
  d.engine.isReady && !image.empty && 0 < d.config.inputWidth && 0 < d.config.inputHeight

variable [SingleFloat F] [OpenCv F]

def detect (x : Answers F) (image : Mat) (d : PortDetector ε F) :
    Except Checked.Fault (List (FloatDetection F)) × PortDetector ε F :=
  ((d.view blobFromImage x).detect image,
    if d.asks image then
      { d with engine := (d.engine.infer x (d.input blobFromImage image)).2 }
    else d)

def after (frames : List (Answers F × Mat)) (d : PortDetector ε F) : PortDetector ε F :=
  frames.foldl (fun d frame => (d.detect blobFromImage frame.1 frame.2).2) d

end PortDetector

end Detect

namespace Yolo

variable {F : Type}

theorem mem_rows {views : List (TensorView F)} {outputs : List (YoloRows F)}
    (accepted : views.mapM asYoloRows = some outputs) {out : YoloRows F} (member : out ∈ outputs) :
    ∃ view ∈ views, asYoloRows view = some out := by
  induction views generalizing outputs with
  | nil =>
    cases accepted
    contradiction
  | cons view views ih =>
    simp only [List.mapM_cons, Option.bind_eq_bind, Option.bind_eq_some_iff] at accepted
    obtain ⟨first, laid, rest, later, made⟩ := accepted
    cases made
    rcases List.mem_cons.mp member with rfl | behind
    · exact ⟨view, List.mem_cons_self, laid⟩
    · obtain ⟨other, listed, own⟩ := ih later behind
      exact ⟨other, List.mem_cons_of_mem view listed, own⟩

variable [SingleFloat F] [OpenCv F]

theorem decodeDetections_labels {outputs : List (YoloRows F)} {frameSize : Size}
    {classNames : List String} {confidenceThreshold nmsThreshold : F}
    {found : List (FloatDetection F)}
    (done : decodeDetections outputs frameSize classNames confidenceThreshold nmsThreshold =
      .ok found) : ∀ a ∈ found, a.label = labelOf classNames a.classId := by
  intro a member
  unfold decodeDetections at done
  obtain ⟨rows, -, built⟩ := Checked.bind_eq_ok.mp done
  obtain ⟨idx, -, made⟩ := Checked.mem_mapM built member
  obtain ⟨candidate, -, ended⟩ := Checked.bind_eq_ok.mp made
  cases ended
  rfl

end Yolo

namespace YoloDetector

variable {F : Type} [SingleFloat F] [OpenCv F]

theorem detect_found {d : YoloDetector F} {image : Mat} {found : List (FloatDetection F)}
    (done : d.detect image = .ok found) (some_ : found ≠ []) :
    ∃ engine outputs, d.m_engine = some engine ∧ engine.ready = true ∧
      image.empty = false ∧ 0 < d.inputWidth ∧ 0 < d.inputHeight ∧
      (engine.infer image).ok = true ∧
      (engine.infer image).outputs.mapM Yolo.asYoloRows = some outputs ∧
      Yolo.decodeDetections outputs ⟨image.cols, image.rows⟩ d.m_classNames d.confidenceThreshold
        d.nmsThreshold = .ok found := by
  unfold detect at done
  split at done
  · cases done
    contradiction
  · rename_i engine there
    have ready : d.isReady = engine.ready := by simp only [isReady, there]
    split at done
    · cases done
      contradiction
    · rename_i works
      split at done
      · cases done
        contradiction
      · rename_i sized
        simp only at done
        split at done
        · cases done
          contradiction
        · rename_i succeeded
          split at done
          · cases done
            contradiction
          · rename_i outputs accepted
            simp only [ready, Bool.or_eq_true, Bool.not_eq_true', not_or, Bool.not_eq_true,
              Bool.not_eq_false] at works succeeded
            exact ⟨engine, outputs, there, works.1, works.2, by omega, by omega, succeeded, accepted,
              done⟩

end YoloDetector

namespace YoloVisionPlugin

variable {ε ν F : Type}

def config (modelDir : Path) (request : DetectorCreateRequest) : EngineConfig where
  modelPath := modelDir.child "yolov4-tiny.onnx" (by decide)
  inputWidth := 320
  inputHeight := 320
  deviceId := request.deviceId
  precision := request.precision
  backend := request.backend

/-- The detector loads the class names and initializes the engine when it is made. `single` rounds a
setting to single precision, and `names` is the file `coco.names`. -/
def createDetector (hasTensorRT : Bool) (lib : Libraries ε ν) (single : ℚ → F)
    (names : Option String) (modelDir : Path) (request : DetectorCreateRequest) :
    Action (PortDetector ε F) := do
  let (_, engine) ← (createInferenceEngine ε hasTensorRT (config modelDir request)).initializeEngine
    lib (config modelDir request)
  return {
    engine := engine
    config := config modelDir request
    confidenceThreshold := single request.confidenceThreshold
    nmsThreshold := single request.nmsThreshold
    classNames := loadClassNames names }

variable {hasTensorRT : Bool} {lib : Libraries ε ν} {single : ℚ → F} {names : Option String}
  {modelDir : Path} {request : DetectorCreateRequest} {may : Mishap → Prop} {d : EngineDisk}

/-- The detector has the settings of the request, and its engine is one that was made for them. -/
structure Made (hasTensorRT : Bool) (lib : Libraries ε ν) (single : ℚ → F) (names : Option String)
    (modelDir : Path) (request : DetectorCreateRequest) (d : EngineDisk)
    (detector : PortDetector ε F) : Prop where
  config : detector.config = config modelDir request
  confidence : detector.confidenceThreshold = single request.confidenceThreshold
  nms : detector.nmsThreshold = single request.nmsThreshold
  classNames : detector.classNames = loadClassNames names
  sound : IInferenceEngine.Sound
    (createInferenceEngine ε hasTensorRT (YoloVisionPlugin.config modelDir request))
    ⟨detector.engine, d, some (lib, YoloVisionPlugin.config modelDir request, d)⟩

theorem createDetector_made : Always (Effect may) (fun _ => True)
    (fun detector _ => Made hasTensorRT lib single names modelDir request d detector)
    (createDetector hasTensorRT lib single names modelDir request) d := by
  refine always_bind.mpr ((IInferenceEngine.initializeEngine_always _ lib
    (config modelDir request) d).mono (fun _ _ => trivial) ?_)
  rintro ⟨ok, engine⟩ _ _ ⟨serves, backendId, fitted, ready, -, done⟩
  refine ⟨trivial, rfl, rfl, rfl, rfl, serves, backendId, fitted, ?_⟩
  intro isReady
  obtain ⟨backend, own, accepts⟩ := done (ready.symm.trans isReady)
  exact ⟨backend, lib, _, d, own, rfl, accepts⟩

variable [SingleFloat F] [OpenCv F] {blobFromImage : Mat → ℤ → ℤ → List F}
  {detector : PortDetector ε F}

theorem detect_made (made : Made hasTensorRT lib single names modelDir request d detector)
    (x : Answers F) (image : Mat) :
    Made hasTensorRT lib single names modelDir request d
      (detector.detect blobFromImage x image).2 := by
  unfold PortDetector.detect
  simp only
  split
  · exact ⟨made.config, made.confidence, made.nms, made.classNames,
      IInferenceEngine.infer_sound made.sound x _⟩
  · exact made

theorem after_made (made : Made hasTensorRT lib single names modelDir request d detector)
    (frames : List (Answers F × Mat)) :
    Made hasTensorRT lib single names modelDir request d (detector.after blobFromImage frames) := by
  induction frames generalizing detector with
  | nil => exact made
  | cons frame frames ih => exact ih (detect_made made frame.1 frame.2)

open SingleFloat in
/-- What the detector does with a frame, against the request it was made for: it finds something only
on the engine that was asked for, with a model that was there and takes what it is given; what it
finds meets the settings; and it reads outside no tensor whose rows go on after the fifth column. -/
structure AsAsked (hasTensorRT : Bool) (lib : Libraries ε ν) (single : ℚ → F)
    (names : Option String) (modelDir : Path) (request : DetectorCreateRequest) (d : EngineDisk)
    (blobFromImage : Mat → ℤ → ℤ → List F) (detector : PortDetector ε F) (x : Answers F)
    (image : Mat) : Prop where
  backed : ∀ found, (detector.detect blobFromImage x image).1 = .ok found → found ≠ [] →
    detector.engine.backendId =
        (createInferenceEngine ε hasTensorRT (YoloVisionPlugin.config modelDir request)).backendId ∧
      (request.backend = .tensorRT → hasTensorRT = true) ∧
      IInferenceEngine.Accepts request.backend lib (YoloVisionPlugin.config modelDir request) d ∧
      detector.engine.inputMetadata.shape = [1, 3, 320, 320]
  settings : ∀ found, (detector.detect blobFromImage x image).1 = .ok found → ∀ a ∈ found,
    atLeast a.confidence (single request.confidenceThreshold) = true ∧
      Yolo.InFrame ⟨image.cols, image.rows⟩ a.box ∧
      a.label = Yolo.labelOf (loadClassNames names) a.classId
  safe : (∀ view ∈ (detector.engine.infer x (detector.input blobFromImage image)).1.outputs,
      ∀ out, Yolo.asYoloRows view = some out →
        (∀ dim ∈ view.shape, Yolo.FitsInt dim) ∧ 5 < out.cols) →
    ∃ found, (detector.detect blobFromImage x image).1 = .ok found

theorem made_asAsked (made : Made hasTensorRT lib single names modelDir request d detector)
    (x : Answers F) (image : Mat) :
    AsAsked hasTensorRT lib single names modelDir request d blobFromImage detector x image := by
  constructor
  case backed =>
    intro found done some_
    obtain ⟨engine, outputs, same, ready, pixels, width, height, ok, -, -⟩ :=
      YoloDetector.detect_found (d := detector.view blobFromImage x) done some_
    obtain rfl := Option.some.inj same
    obtain ⟨backend, lib', config', disk, serves, last, accepts⟩ := made.sound.ready ready
    obtain ⟨rfl, built⟩ := IInferenceEngine.created_serves serves
    obtain ⟨rfl, rfl, rfl⟩ : lib = lib' ∧ config modelDir request = config' ∧ d = disk := by
      simpa using last
    refine ⟨made.sound.backendId, built, accepts, ?_⟩
    have answered := IInferenceEngine.infer_answered detector.engine made.sound.fitted x
      (detector.input blobFromImage image)
    rw [← (answered.done ok).2.2.1]
    simp only [PortDetector.view, made.config, config] at width height
    simp only [PortDetector.input, preprocessYoloV4Tiny, made.config, config, pixels]
    simp
  case settings =>
    intro found done a member
    obtain ⟨engine, outputs, -, -, -, -, -, -, -, decoded⟩ :=
      YoloDetector.detect_found (d := detector.view blobFromImage x) done
        (List.ne_nil_of_mem member)
    obtain ⟨rows, read, -⟩ := Checked.bind_eq_ok.mp decoded
    obtain ⟨all, again, sound⟩ := Yolo.sound_iff.mpr (Yolo.rows_readable read)
    obtain rfl := Except.ok.inj (decoded.symm.trans again)
    obtain ⟨enough, inside, -⟩ := sound a member
    refine ⟨made.confidence ▸ enough, inside, ?_⟩
    rw [Yolo.decodeDetections_labels decoded a member]
    exact congrArg (fun names => Yolo.labelOf names a.classId) made.classNames
  case safe =>
    intro regular
    have readable : ∀ engine, (detector.view blobFromImage x).m_engine = some engine →
        ∀ outputs, (engine.infer image).outputs.mapM Yolo.asYoloRows = some outputs →
          ∀ out ∈ outputs, Yolo.Readable detector.confidenceThreshold out := by
      intro engine same outputs accepted out member
      obtain rfl := Option.some.inj same
      obtain ⟨view, output, rows⟩ := Yolo.mem_rows accepted member
      obtain ⟨small, columns⟩ := regular view output out rows
      obtain ⟨some_, covers⟩ := Yolo.asYoloRows_exact rows small
      exact (Yolo.readable_columns some_ covers).mpr (Or.inl columns)
    obtain ⟨found, done, -⟩ := (detector.view blobFromImage x).detect_sound image readable
    exact ⟨found, done⟩

/-- Whatever the libraries answered when the detector was made and whatever they have answered to the
frames since. -/
theorem detects_as_asked {d' : EngineDisk} {first : PortDetector ε F}
    (run : Run (Effect may) (createDetector hasTensorRT lib single names modelDir request) d
      (some first) d') (frames : List (Answers F × Mat)) (x : Answers F) (image : Mat) :
    AsAsked hasTensorRT lib single names modelDir request d blobFromImage
      (first.after blobFromImage frames) x image :=
  made_asAsked (after_made ((createDetector_made.run run).2 first rfl) frames) x image

def plainRequest : DetectorCreateRequest := { modelDir := "." }

def modelDisk : EngineDisk :=
  Function.update (fun _ => none) (config .here plainRequest).modelPath (some [1, 2])

def rowLibraries : Libraries (List UInt8) (List UInt8) where
  onnxRuntime := fun _ =>
    .ok
      { inputs := [.ok { name := "input", shape := [1, 3, 320, 320] }]
        outputs := [.ok { name := "rows", shape := [1, 7] }] }
  tensorRT := TensorRTEngine.workbench
  status := .ok ⟨9, -5⟩

def rowDetector : PortDetector (List UInt8) (Option ℚ) where
  engine := .onnxRuntimeCpu
    { ready := true
      inputMeta := ⟨"input", [1, 3, 320, 320], "float32"⟩
      outputMeta := [⟨"rows", [1, 7], "float32"⟩] }
  config := config .here plainRequest
  confidenceThreshold := some (1 / 4)
  nmsThreshold := some (9 / 20)
  classNames := ["person", "bicycle"]

theorem rowDetector_run : Run (Effect noMishap)
    (createDetector true rowLibraries some (some "person\nbicycle\n") .here plainRequest) modelDisk
    (some rowDetector) modelDisk := by
  have looks : Effect noMishap modelDisk (.exists_ (config .here plainRequest).modelPath) true
      modelDisk := by
    refine ⟨rfl, Or.inl ?_⟩
    rw [modelDisk, Function.update_self]
    rfl
  exact .ask looks (.done rowDetector modelDisk)

theorem oneRow_whole : Yolo.oneRow.Whole := by
  unfold TensorView.Whole
  decide +kernel

def rowAnswers : Answers (Option ℚ) where
  onnxRuntime := .ok [.ok ⟨true, Yolo.oneRow, oneRow_whole⟩]
  tensorRT := IInferenceEngine.identityAnswers.tensorRT

attribute [local instance] Yolo.exactFloat Yolo.singleBox

theorem row_found {blobFromImage : Mat → ℤ → ℤ → List (Option ℚ)} {image : Mat}
    (planes : (blobFromImage image 320 320).length = 307200) (rows : image.rows = 100)
    (cols : image.cols = 100) : (rowDetector.detect blobFromImage rowAnswers image).1 =
      .ok [⟨1, "bicycle", some (3 / 4), ⟨40, 40, 20, 20⟩⟩] := by
  have whole : elementCount [1, 3, 320, 320] = 307200 := by decide +kernel
  have pixels : image.empty = false := by simp [Mat.empty, rows, cols]
  have input : rowDetector.input blobFromImage image =
      ⟨blobFromImage image 320 320, [1, 3, 320, 320]⟩ := by
    simp [PortDetector.input, preprocessYoloV4Tiny, rowDetector, config, pixels]
  have inferred : (rowDetector.engine.infer rowAnswers (rowDetector.input blobFromImage image)).1 =
      { ok := true, outputs := [Yolo.oneRow] } := by
    rw [input]
    simp only [rowDetector, IInferenceEngine.infer, OrtEngine.infer, rowAnswers, whole, planes]
    rfl
  have works : (rowDetector.view blobFromImage rowAnswers).isReady = true := rfl
  unfold PortDetector.detect YoloDetector.detect
  simp only [works, pixels]
  simp only [PortDetector.view, inferred, rows, cols]
  decide +kernel

theorem row_detects_as_asked :
    (rowDetector.detect (fun _ w h => List.replicate (3 * h * w).toNat (some 0)) rowAnswers
        { rows := 100, cols := 100 }).1 =
      .ok [⟨1, "bicycle", some (3 / 4), ⟨40, 40, 20, 20⟩⟩] ∧
    AsAsked true rowLibraries some (some "person\nbicycle\n") .here plainRequest modelDisk
      (fun _ w h => List.replicate (3 * h * w).toNat (some 0)) rowDetector rowAnswers
      { rows := 100, cols := 100 } :=
  ⟨row_found (List.length_replicate ..) rfl rfl,
    detects_as_asked rowDetector_run [] rowAnswers { rows := 100, cols := 100 }⟩

end YoloVisionPlugin

end VisionLab
