import Dui.HostState
import Dui.Transition

/-! Frame scheduling across the two executors, cut at every locked section and at
every post. The window holds a generation for the frame it has asked for; the
native control holds the token of the last request that reached it. -/
namespace Dui
open HostWindowState Transition

/-- What a thread still has to do after its section. -/
inductive FrameWork where
  /-- `post_frame_control` to the platform executor. -/
  | postControl (control : FrameControl)
  /-- A delegate task for the UI executor that no frame depends on. -/
  | postDelegate
  /-- The UI task of an accepted pulse. -/
  | postFrame (request : FrameRequest)
  /-- `frame_generation_exhausted`, and the shutdown it leads to. -/
  | checkExhausted
  /-- The shutdown after exhausted counters. -/
  | shutdown
  deriving DecidableEq

/-- A window with the frame tasks of its executors, what each thread has left to
do, the frame task being run, and the token its control holds. -/
structure FrameSystem where
  host : HostWindowState
  uiQueue : List FrameRequest := []
  uiWork : List FrameWork := []
  inFrame : Option FrameRequest := none
  platformQueue : List FrameControl := []
  platformWork : List FrameWork := []
  token : Option Nat := none

/-- `post_frame_control` posts nothing when there is nothing to control. -/
def controlWork (control : FrameControl) : List FrameWork :=
  if ¬ control.cancel ∧ control.generation.isNone then [] else [.postControl control]

/-- What a frame-control task does to the control. -/
def HostWindowState.FrameControl.apply (control : FrameControl) (token : Option Nat) : Option Nat :=
  match control.generation with
  | some generation => some generation
  | none => if control.cancel then none else token

namespace FrameSystem

/-- One piece of a thread's work, and whether the thread goes on afterwards. -/
def runWork (system : FrameSystem) : FrameWork → FrameSystem × Bool
  | .postControl control =>
    ({ system with platformQueue := system.platformQueue ++ [control] }, true)
  | .postDelegate => (system, true)
  | .postFrame request => ({ system with uiQueue := system.uiQueue ++ [request] }, true)
  | .checkExhausted =>
    if system.host.frame.generationExhausted then
      ({ system with host := system.host.frameGenerationExhaustedLocked.2.stopLocked }, false)
    else (system, true)
  | .shutdown => ({ system with host := system.host.stopLocked }, false)

/-- What can happen next: a call enters its section, a thread goes on with its
work, or an executor takes a task. -/
inductive Action where
  | requestFrame
  | beginFrame
  | finishFrame
  | continueUi
  | setMetrics (logicalSize : Size) (physicalWidth physicalHeight : Nat) (devicePixelRatio : ℚ)
  | setVisible (visible : Bool)
  | setSurfaceState (surface : HostSurfaceState)
  | framePulse (timestamp : Int) (generation : Nat)
  | runControl
  | continuePlatform

/-- `HostWindow::request_frame`. -/
def requestFrame (system : FrameSystem) : FrameSystem :=
  match system.host.requestFrameLocked with
  | none => system
  | some (generation, host) =>
    { system with host, uiWork := .checkExhausted :: controlWork ⟨false, generation⟩ }

/-- The last section of a frame task. -/
def finishFrame (system : FrameSystem) : FrameSystem :=
  { system with
    host := system.host.frameDeliveredLocked.2
    inFrame := none
    uiWork := controlWork ⟨false, system.host.frameDeliveredLocked.1⟩ ++ [.checkExhausted] }

/-- `HostWindowDriver::set_metrics`. -/
def setMetrics (system : FrameSystem) (logicalSize : Size) (physicalWidth physicalHeight : Nat)
    (devicePixelRatio : ℚ) : FrameSystem :=
  match system.host.setMetricsLocked logicalSize physicalWidth physicalHeight devicePixelRatio with
  | (.changed control, host) =>
    { system with host, platformWork := .postDelegate :: controlWork control ++ [.checkExhausted] }
  | _ => system

/-- `HostWindowDriver::set_visible`. -/
def setVisible (system : FrameSystem) (visible : Bool) : FrameSystem :=
  match system.host.setVisibleLocked visible with
  | none => system
  | some (outcome, host) =>
    { system with
      host, platformWork := .postDelegate :: controlWork outcome.control ++ [.checkExhausted] }

/-- `HostWindowDriver::set_surface_state`. -/
def setSurfaceState (system : FrameSystem) (surface : HostSurfaceState) : FrameSystem :=
  match surface with
  | .unknown _ => system
  | surface =>
    match system.host.setSurfaceStateLocked surface with
    | (.unchanged, _) => system
    | (.exhausted, host) => { system with host, platformWork := [.shutdown] }
    | (.changed _ control, host) =>
      { system with host, platformWork := .postDelegate :: controlWork control ++ [.checkExhausted] }

/-- `HostWindowDriver::frame_pulse`. -/
def framePulse (system : FrameSystem) (timestamp : Int) (generation : Nat) : FrameSystem :=
  match system.host.framePulseLocked timestamp generation with
  | (.accepted request, host) => { system with host, platformWork := [.postFrame request] }
  | (.exhausted, host) => { system with host, platformWork := [.shutdown] }
  | _ => system

/-- A step of the system. Calls on a thread start when it has nothing left to do;
`request_frame` may also come from inside the frame callback. -/
def step (system : FrameSystem) : Action → Option FrameSystem
  | .requestFrame => if system.uiWork.isEmpty then some system.requestFrame else none
  | .beginFrame =>
    match system.uiQueue with
    | [] => none
    | request :: rest =>
      if system.uiWork.isEmpty ∧ system.inFrame.isNone then
        some { system with uiQueue := rest, inFrame := some request }
      else none
  | .finishFrame =>
    if system.uiWork.isEmpty ∧ system.inFrame.isSome then some system.finishFrame else none
  | .continueUi =>
    match system.uiWork with
    | [] => none
    | work :: rest =>
      let (next, goesOn) := system.runWork work
      some { next with uiWork := if goesOn then rest else [] }
  | .setMetrics logicalSize physicalWidth physicalHeight devicePixelRatio =>
    if system.platformWork.isEmpty then
      some (system.setMetrics logicalSize physicalWidth physicalHeight devicePixelRatio) else none
  | .setVisible visible =>
    if system.platformWork.isEmpty then some (system.setVisible visible) else none
  | .setSurfaceState surface =>
    if system.platformWork.isEmpty then some (system.setSurfaceState surface) else none
  | .framePulse timestamp generation =>
    if system.platformWork.isEmpty then some (system.framePulse timestamp generation) else none
  | .runControl =>
    match system.platformQueue with
    | [] => none
    | control :: rest =>
      if system.platformWork.isEmpty then
        some { system with
          platformQueue := rest
          token := if system.host.running then control.apply system.token else system.token }
      else none
  | .continuePlatform =>
    match system.platformWork with
    | [] => none
    | work :: rest =>
      let (next, goesOn) := system.runWork work
      some { next with platformWork := if goesOn then rest else [] }

end FrameSystem

/-- Frame scheduling from the creation of the window on. -/
def frameMachine : Machine FrameSystem FrameSystem.Action where
  init system := ∃ id logicalSize physicalWidth physicalHeight devicePixelRatio visible host,
    createHostWindow id logicalSize physicalWidth physicalHeight devicePixelRatio visible =
      .ok host ∧ system = { host }
  step := FrameSystem.step

end Dui
