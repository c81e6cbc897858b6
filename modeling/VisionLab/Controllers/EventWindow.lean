import VisionLab.Controllers.VisionController
import VisionLab.Models.EventModel
import VisionLab.Storage.StopDelivery

/-! The list of the Events page over the whole life of a window: sessions start and stop, their
workers emit events, and each `frameChanged` gives the list another look at the log. The numbers of
the events begin again with each session. -/
namespace VisionLab

/-- What the GUI thread is in the middle of: a `notifyFrame` whose guards have passed, the slot of
its `frameChanged`, or `stopCamera`. -/
inductive WindowState where
  | idle
  | notifying (presented : PresentedFrame)
  | frameChanged
  | stopping

def WindowState.free : WindowState → Bool
  | .idle => true
  | _ => false

/-- The controller with its list, the session whose threads have not been joined, and the
`notifyFrame` calls that wait in the event loop. An observer notes the events of the sessions that
have ended and, for each live row of the list, its session and its position there. -/
structure EventWindow (σ δ τ ρ : Type) where
  controller : VisionController σ δ τ ρ
  eventModel : EventModel := {}
  live : Option (Session σ δ τ ρ) := none
  gui : WindowState := .idle
  posted : ℕ := 0
  past : List (List VisionEvent) := []
  listed : List (ℕ × ℕ) := []

/-- A call, a step of a worker, or the next thing that the GUI thread does; `wall` is the time that
`ingest` reads. -/
inductive WindowTurn where
  | startCamera
  | stopCamera
  | capture (now : TimePoint)
  | inference
  | deliver
  | gui (wall : ℤ)

namespace CameraManager

variable {σ δ τ ρ : Type}

/-- What `notifyFrame` does between its guards and `frameChanged`. -/
def takeFrame (presented : PresentedFrame) (c : CameraManager σ δ τ ρ) : CameraManager σ δ τ ρ :=
  { c with
    frame := presented.rgb
    detections := presented.detections
    tracks := presented.tracks
    persistedMaxEventId :=
      (persist VisionEvent.eventId c.persistedMaxEventId c.recentEvents).1 }

theorem notifyFrame_takeFrame {c : CameraManager σ δ τ ρ} {presented : PresentedFrame}
    (shown : c.shown = some presented) : c.notifyFrame.1 = c.takeFrame presented := by
  simp only [notifyFrame, shown, takeFrame]

end CameraManager

namespace EventWindow

variable {σ δ τ ρ : Type}

def view (w : EventWindow σ δ τ ρ) : VisionController σ δ τ ρ :=
  match w.live with
  | none => w.controller
  | some s =>
    { w.controller with
      camera := w.controller.camera.map (fun camera => { camera with pipeline := some s.pipeline }) }

def cameraRuns (w : EventWindow σ δ τ ρ) : Bool :=
  (w.view.camera.map CameraManager.isRunning).getD false

def recentEvents (w : EventWindow σ δ τ ρ) : List VisionEvent :=
  (w.view.camera.map CameraManager.recentEvents).getD []

def offset (w : EventWindow σ δ τ ρ) : ℕ :=
  (w.live.map (fun s => s.pipeline.eventLog.offset s.record.emitted)).getD 0

def stopCamera (w : EventWindow σ δ τ ρ) : EventWindow σ δ τ ρ :=
  match w.gui with
  | .idle =>
    { w with
      controller := { w.controller with running := false }
      gui := if w.cameraRuns then .stopping else .idle }
  | _ => w

/-- The `notifyFrame` that has waited longest begins. -/
def deliver (w : EventWindow σ δ τ ρ) : EventWindow σ δ τ ρ :=
  match w.gui, w.posted with
  | .idle, posted + 1 =>
    { w with
      posted := posted
      gui := match w.view.camera.bind CameraManager.shown with
        | none => .idle
        | some presented => .notifying presented }
  | _, _ => w

/-- `onFrameChanged`, the part for the list. -/
def onFrameChanged (wall : ℤ) (w : EventWindow σ δ τ ρ) : EventWindow σ δ τ ρ :=
  { w with
    gui := .idle
    eventModel := w.eventModel.ingest wall w.recentEvents []
    listed := w.listed ++
      ((w.recentEvents.zipIdx w.offset).filter (fun event =>
        decide (w.eventModel.maxSessionEventId < event.1.eventId))).map
        (fun event => (w.past.length, event.2)) }

def settle (s : Session σ δ τ ρ) (w : EventWindow σ δ τ ρ) : EventWindow σ δ τ ρ :=
  { w with
    gui := .idle
    live := none
    controller :=
      { w.controller with
        camera := w.view.camera.map (fun camera =>
          { camera with frame := {}, detections := [], tracks := [] }) }
    past := w.past ++ [s.record.emitted] }

variable [IVideoSource σ] [IDetector δ] [ITracker τ] [IRule ρ]

def carryOn (wall : ℤ) (w : EventWindow σ δ τ ρ) : EventWindow σ δ τ ρ :=
  match w.gui with
  | .idle => w
  | .notifying presented =>
    { w with
      gui := .frameChanged
      controller :=
        { w.controller with
          camera := w.view.camera.map (fun camera => camera.takeFrame presented) } }
  | .frameChanged => w.onFrameChanged wall
  | .stopping =>
    match w.live with
    | none => { w with gui := .idle }
    | some s =>
      match s.stopping with
      | .joined => w.settle s
      | _ => { w with live := some s.stopStep }

def inference (draw : Renderers) (w : EventWindow σ δ τ ρ) : EventWindow σ δ τ ρ :=
  match w.live with
  | none => w
  | some s =>
    { w with
      live := some (s.inferenceStep draw)
      posted := match s.inference with
        | .presented => if s.pipeline.onPresented then w.posted + 1 else w.posted
        | _ => w.posted }

variable [RuleFactory ρ]

def startCamera (w : EventWindow σ δ τ ρ) : EventWindow σ δ τ ρ :=
  match w.gui, w.view.camera with
  | .idle, some camera =>
    { w with
      controller := w.view.startCamera
      eventModel := w.eventModel.beginSession
      live :=
        match (camera.applyRuleSpecs w.controller.ruleModel).2.start.session with
        | none => w.live
        | some s => some s }
  | _, _ => w

def step (draw : Renderers) (w : EventWindow σ δ τ ρ) : WindowTurn → EventWindow σ δ τ ρ
  | .startCamera => w.startCamera
  | .stopCamera => w.stopCamera
  | .capture now => { w with live := w.live.map (Session.captureStep now) }
  | .inference => w.inference draw
  | .deliver => w.deliver
  | .gui wall => w.carryOn wall

def run (draw : Renderers) (w : EventWindow σ δ τ ρ) (turns : List WindowTurn) :
    EventWindow σ δ τ ρ :=
  Machine.run (step draw) w turns

end EventWindow

end VisionLab
