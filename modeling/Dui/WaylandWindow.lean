import Dui.HostWindow
import Dui.WaylandSurface

/-!
# A Wayland window and its frame callbacks

The part of the native window that has to do with frames: what it commits, the
frame callback it waits for, and the clock that turns the callback's stamp into the
timestamp it pulses the host with. A run of the window mixes callbacks with
everything else that touches the window or the host.
-/

namespace Dui

open Transition WaylandSurfaceState

/-- `last_frame_milliseconds` and `frame_millisecond_epoch`. -/
structure FrameClock where
  lastMilliseconds : UInt32 := 0
  millisecondEpoch : UInt64 := 0
  deriving DecidableEq, Repr

namespace FrameClock

/-- The clock after a callback. -/
def advance (clock : FrameClock) (milliseconds : UInt32) : FrameClock where
  lastMilliseconds := milliseconds
  millisecondEpoch :=
    if milliseconds < clock.lastMilliseconds ∧
        clock.lastMilliseconds - milliseconds > 4294967295 / 2 then
      clock.millisecondEpoch + ((1 : UInt64) <<< 32)
    else clock.millisecondEpoch

def unwrapped (clock : FrameClock) : UInt64 :=
  clock.millisecondEpoch + clock.lastMilliseconds.toUInt64

end FrameClock

/-- `std::chrono::milliseconds{static_cast<std::int64_t>(unwrapped)}` as nanoseconds.
Where the product leaves the 64 bits, which C++ leaves undefined, it is taken to wrap. -/
def toNanoseconds (unwrapped : UInt64) : Int :=
  (unwrapped.toInt64.toInt * 1000000).bmod (2 ^ 64)

/-- A frame callback the compositor still owes. -/
structure WaylandFrame where
  stateGeneration : UInt64
  hostGeneration : Nat
  deriving DecidableEq, Repr

structure WaylandWindow where
  driver : Host
  nativeRunning : Bool := true
  surfaceState : WaylandSurfaceState
  frame : Option WaylandFrame := none
  hostFrameGeneration : Nat := 0
  clock : FrameClock := {}

/-- Whether the buffer of a commit could be made, and its frame callback. -/
structure CommitResources where
  buffer : Bool
  callback : Bool
  deriving DecidableEq, Repr

namespace WaylandWindow

/-- `fail_native`. -/
def failNative (window : WaylandWindow) : WaylandWindow :=
  { window with driver := (window.driver.setSurfaceState .lost).shutdown true }

/-- The metrics a commit gives the host. -/
def setMetrics (window : WaylandWindow) (plan : WaylandCommit) : WaylandWindow :=
  let logicalSize : Size := ⟨plan.logicalExtent.width.toNat, plan.logicalExtent.height.toNat⟩
  let ratio : ℚ := plan.scaleNumerator.toNat / scaleDenominator.toNat
  let driver := window.driver.setMetrics logicalSize plan.bufferExtent.width.toNat
    plan.bufferExtent.height.toNat ratio
  { window with driver }

/-- `present`, and whether it returned. -/
def present (window : WaylandWindow) (resources : CommitResources) : Bool × WaylandWindow :=
  if ¬ window.nativeRunning then (true, window)
  else
    match window.surfaceState.prepareCommit with
    | .error _ => (false, window)
    | .ok (none, surfaceState) => (true, { window with surfaceState })
    | .ok (some plan, surfaceState) =>
      if ¬ resources.buffer then
        (false, { window with surfaceState := (surfaceState.discardCommit plan).2 })
      else
        match surfaceState.submitCommit plan with
        | (false, surfaceState) => (false, { window with surfaceState })
        | (true, surfaceState) =>
          let window := { window with surfaceState }
          if ¬ plan.requestFrameCallback then (true, window.setMetrics plan)
          else if ¬ resources.callback then (false, window)
          else
            let frame : WaylandFrame := ⟨plan.generation, window.hostFrameGeneration⟩
            (true, { window with frame := some frame }.setMetrics plan)

/-- `present` in a handler, which fails the window where it throws. -/
def presentOrFail (window : WaylandWindow) (resources : CommitResources) : WaylandWindow :=
  let (returned, window) := window.present resources
  if returned then window else window.failNative

/-- A handler that changes the surface state and presents. -/
def changeSurface (window : WaylandWindow) (resources : CommitResources)
    (changed : Except Failure WaylandSurfaceState) : WaylandWindow :=
  match changed with
  | .error _ => window.failNative
  | .ok surfaceState => { window with surfaceState }.presentOrFail resources

/-- `Frame::handle_done`, and the timestamp it pulses the host with. -/
def handleDone (window : WaylandWindow) (frame : WaylandFrame) (milliseconds : UInt32)
    (resources : CommitResources) : Option Int × WaylandWindow :=
  let window := { window with frame := none }
  if ¬ window.nativeRunning then (none, window)
  else
    match window.surfaceState.frameDone frame.stateGeneration with
    | (false, surfaceState) => (none, { window with surfaceState })
    | (true, surfaceState) =>
      let clock := window.clock.advance milliseconds
      let timestamp := toNanoseconds clock.unwrapped
      let driver := window.driver.framePulse timestamp frame.hostGeneration
      (some timestamp, { window with surfaceState, clock, driver }.presentOrFail resources)

/-- `Control::request_frame`; where it fails it also throws to the host. -/
def requestFrame (window : WaylandWindow) (generation : Nat) (resources : CommitResources) :
    WaylandWindow :=
  { window with
    hostFrameGeneration := generation
    surfaceState := window.surfaceState.requestFrame }.presentOrFail resources

/-- `Control::cancel_frame`. -/
def cancelFrame (window : WaylandWindow) : WaylandWindow :=
  match window.frame with
  | none => window
  | some frame =>
    { window with
      frame := none
      surfaceState := (window.surfaceState.frameDone frame.stateGeneration).2 }

/-- What `shutdown_native` does to the frame callback. -/
def shutdownNative (window : WaylandWindow) : WaylandWindow :=
  if ¬ window.nativeRunning then window
  else { window with nativeRunning := false, frame := none }

end WaylandWindow

/-- A frame callback: the compositor's time, and the timestamp it became. -/
structure FramePulse where
  time : Nat
  timestamp : Int
  outcome : HostWindowState.FramePulseOutcome
  deriving DecidableEq

/-- A window with the times of all callbacks that arrived and the pulses that came
of them, in order. -/
structure FrameClockRun where
  window : WaylandWindow
  callbacks : List Nat := []
  pulses : List FramePulse := []

inductive FrameClockCall where
  /-- A frame callback at a time of the compositor. -/
  | done (time : Nat) (resources : CommitResources)
  | requestFrame (generation : Nat) (resources : CommitResources)
  | cancelFrame
  | beginInitialCommit
  | toplevelConfigure (width height : UInt32)
  | surfaceConfigure (serial : UInt32) (resources : CommitResources)
  | preferredScale (numerator : UInt32) (resources : CommitResources)
  | shutdown
  /-- A call of the application, or one of the executors at work. -/
  | host (call : Host.Call)

/-- The host's calls other than frame pulses, which only callbacks make. -/
def Host.Call.unpulsed : Host.Call → Bool
  | .framePulse _ _ => false
  | _ => true

namespace FrameClockRun

/-- A callback arrives only while its frame waits for it, and carries its time
modulo `2^32`. -/
def done (run : FrameClockRun) (time : Nat) (resources : CommitResources) :
    Option FrameClockRun :=
  run.window.frame.map fun frame =>
    match run.window.handleDone frame (UInt32.ofNat time) resources with
    | (none, window) => { run with window, callbacks := run.callbacks ++ [time] }
    | (some timestamp, window) =>
      let outcome :=
        (run.window.driver.state.framePulseLocked timestamp frame.hostGeneration).1
      { window
        callbacks := run.callbacks ++ [time]
        pulses := run.pulses ++ [⟨time, timestamp, outcome⟩] }

def perform (run : FrameClockRun) : FrameClockCall → Option FrameClockRun
  | .done time resources => run.done time resources
  | .requestFrame generation resources =>
    some { run with window := run.window.requestFrame generation resources }
  | .cancelFrame => some { run with window := run.window.cancelFrame }
  | .beginInitialCommit =>
    let surfaceState := run.window.surfaceState.beginInitialCommit.2
    some { run with window := { run.window with surfaceState } }
  | .toplevelConfigure width height =>
    match run.window.surfaceState.receiveToplevelConfigure width height with
    | .error _ => some { run with window := run.window.failNative }
    | .ok surfaceState => some { run with window := { run.window with surfaceState } }
  | .surfaceConfigure serial resources =>
    let changed := run.window.surfaceState.receiveSurfaceConfigure serial
    some { run with window := run.window.changeSurface resources changed }
  | .preferredScale numerator resources =>
    let changed := run.window.surfaceState.setPreferredScale numerator
    some { run with window := run.window.changeSurface resources changed }
  | .shutdown => some { run with window := run.window.shutdownNative }
  | .host call =>
    if call.unpulsed then
      (run.window.driver.perform call).map fun driver =>
        { run with window := { run.window with driver } }
    else none

end FrameClockRun

/-- A Wayland window from its creation on. Each step names the outcomes of the
posts its calls make. -/
def frameClockMachine : Machine FrameClockRun (List Bool × FrameClockCall) where
  init run := ∃ driver extent fractional surfaceState, hostMachine.init driver ∧
    WaylandSurfaceState.create extent fractional = .ok surfaceState ∧
    run = { window := { driver, surfaceState } }
  step run action :=
    let driver := { run.window.driver with posts := action.1 }
    { run with window := { run.window with driver } }.perform action.2

end Dui
