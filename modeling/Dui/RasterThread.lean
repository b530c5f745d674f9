import Dui.HostState
import Dui.SurfaceTransaction

/-! The raster thread: the sections of its callers and of its worker, which hold the
mutex and are one step each, and the worker's calls of the renderer factory, the
surface, the renderer and the acquired frame, in which anything else may happen. -/
namespace Dui

/-- `SurfaceRequest` has the fields of the window's metrics. -/
abbrev SurfaceRequest := WindowMetrics

inductive FrameOutcome where
  | presented
  | unavailable
  | outOfDate
  | canceled
  | failed
  deriving DecidableEq, Repr

inductive SurfaceAcquireStatus where
  | ready
  | unavailable
  | outOfDate
  | lost
  | consumed
  deriving DecidableEq, Repr

structure SurfaceDescriptor where
  width : Nat
  height : Nat
  generation : Nat
  deriving DecidableEq, Repr

/-- How a frame's transaction ends: one of these calls of its delegate. -/
inductive FrameEnd where
  | presented (status : Surface.PresentStatus)
  | abandoned
  deriving DecidableEq, Repr

/-- The frame of an acquisition; `ended` says how the surface has ended it already. -/
structure SurfaceFrame where
  descriptor : SurfaceDescriptor
  ended : Option FrameEnd := none
  deriving DecidableEq, Repr

structure SurfaceAcquisition where
  status : SurfaceAcquireStatus
  frame : Option SurfaceFrame := none
  deriving DecidableEq, Repr

/-- What `RasterSurface::acquire` throws about what `do_acquire` returned. -/
def SurfaceAcquisition.rejected (acquisition : SurfaceAcquisition) (request : SurfaceRequest) :
    Option Failure :=
  if acquisition.status ≠ .ready then
    if acquisition.frame.isSome then
      some (.logicError "Failed surface acquisition returned a frame")
    else none
  else match acquisition.frame with
    | none => some (.logicError "Ready surface acquisition returned no active frame")
    | some frame =>
      if frame.ended.isSome then
        some (.logicError "Ready surface acquisition returned no active frame")
      else if frame.descriptor ≠
          ⟨request.physicalWidth, request.physicalHeight, request.generation⟩ then
        some (.logicError "Acquired surface frame does not match its request")
      else none

/-- What a layer tree says about itself. -/
structure LayerTree where
  root : Bool
  frameSize : Size
  deriving DecidableEq, Repr

/-- A submission; its promise is told apart by a number, as its id may come again. -/
structure Submission where
  id : UInt64
  ticket : Nat
  layerTree : LayerTree
  request : SurfaceRequest
  deriving DecidableEq

/-- `RasterThread::Impl::State`. -/
structure RasterState where
  pending : List Submission := []
  failure : Option Failure := none
  nextFrame : UInt64 := 1
  rendering : Bool := false
  stopping : Bool := false

/-- What `submit` checks before it takes the mutex. -/
def checkSubmission (layerTree : LayerTree) (request : SurfaceRequest) : Option Failure :=
  if ¬ layerTree.root then
    some (.invalidArgument "RasterThread cannot submit an empty LayerTree")
  else if ¬ request.valid ∨ request.logicalSize ≠ layerTree.frameSize then
    some (.invalidArgument "Raster submission has invalid or mismatched surface metrics")
  else none

/-- Where the worker is: before or inside a call, or before a section. -/
inductive WorkerPoint where
  /-- Inside the renderer factory. -/
  | creating
  /-- Before the section that reports the factory's failure. -/
  | creationFailed (failure : Failure)
  /-- Before the section that takes the next submission. -/
  | waiting
  /-- Inside `do_acquire`. -/
  | acquiring (submission : Submission)
  /-- Inside `render`, with a frame that may have been ended there. -/
  | rendering (submission : Submission) (frame : Nat) (active : Bool)
  /-- Inside `present` of the frame's delegate. -/
  | presenting (submission : Submission) (frame : Nat)
  /-- Before the section that completes a submission. -/
  | settling (submission : Submission) (outcome : FrameOutcome)
  /-- Before the section that reports a failure. -/
  | failing (submission : Submission) (failure : Failure)
  | exited
  deriving DecidableEq

/-- What happens, in the order in which it happens. -/
inductive RasterEvent where
  | submitted (ticket : Nat)
  | refused (layerTree : LayerTree) (request : SurfaceRequest) (failure : Failure)
  | started (ticket : Nat)
  /-- `do_acquire` has returned a frame for a submission. -/
  | acquired (frame ticket : Nat)
  | frameEnded (frame : Nat) (how : FrameEnd)
  /-- The worker has recorded its failure. -/
  | failed (failure : Failure)
  | completed (ticket : Nat) (result : Except Failure FrameOutcome)

/-- A raster thread: its state, its worker, the promises and frames there have been,
and what has happened. -/
structure RasterThread where
  state : RasterState := {}
  worker : WorkerPoint := .creating
  tickets : Nat := 0
  frames : Nat := 0
  log : List RasterEvent := []

namespace RasterThread

/-- Completes all pending submissions. -/
def completePending (thread : RasterThread) (result : Except Failure FrameOutcome) :
    RasterThread :=
  { thread with
    state := { thread.state with pending := [] }
    log := thread.log ++ thread.state.pending.map fun submission =>
      .completed submission.ticket result }

/-- `cancel_pending`. -/
def cancelPending (thread : RasterThread) : RasterThread :=
  thread.completePending (.ok .canceled)

/-- `fail_pending`. -/
def failPending (thread : RasterThread) (failure : Failure) : RasterThread :=
  thread.completePending (.error failure)

/-- `request_stop`. -/
def requestStop (thread : RasterThread) : RasterThread :=
  { thread with state := { thread.state with stopping := true } }.cancelPending

/-- The id of the next submission; zero is skipped. -/
def takeFrameId (nextFrame : UInt64) : UInt64 × UInt64 :=
  if nextFrame = 0 then (nextFrame + 1, nextFrame + 2) else (nextFrame, nextFrame + 1)

/-- What `submit` throws, if it throws. -/
def refuses (state : RasterState) (layerTree : LayerTree) (request : SurfaceRequest) :
    Option Failure :=
  match checkSubmission layerTree request with
  | some failure => some failure
  | none =>
    match state.failure with
    | some failure => some failure
    | none => if state.stopping then some (.logicError "RasterThread is stopping") else none

/-- `wait_idle`, called on another thread; `none` while it has to wait. -/
def waitIdle (state : RasterState) : Option (Except Failure Unit) :=
  if state.pending.isEmpty ∧ ¬ state.rendering then
    some (match state.failure with
      | some failure => .error failure
      | none => .ok ())
  else none

/-- `pending_count`. -/
def pendingCount (state : RasterState) : Nat :=
  state.pending.length + if state.rendering then 1 else 0

/-- `submit`. -/
def submit (thread : RasterThread) (layerTree : LayerTree) (request : SurfaceRequest) :
    RasterThread :=
  match refuses thread.state layerTree request with
  | some failure => { thread with log := thread.log ++ [.refused layerTree request failure] }
  | none =>
    let (id, nextFrame) := takeFrameId thread.state.nextFrame
    { thread with
      state := { thread.state with
        nextFrame
        pending := thread.state.pending ++ [⟨id, thread.tickets, layerTree, request⟩] }
      tickets := thread.tickets + 1
      log := thread.log ++ [.submitted thread.tickets] }

/-- The factory returns a renderer or null, or throws. -/
def factoryReturns (thread : RasterThread) (renderer : Except Failure Bool) : RasterThread :=
  { thread with
    worker := match renderer with
      | .ok true => .waiting
      | .ok false => .creationFailed (.logicError "Raster renderer factory returned null")
      | .error failure => .creationFailed failure }

/-- The section that ends a worker without a renderer. -/
def reportCreation (thread : RasterThread) (failure : Failure) : RasterThread :=
  let failing : RasterThread := { thread with
    worker := .exited
    state := { thread.state with failure := some failure, stopping := true }
    log := thread.log ++ [.failed failure] }
  failing.failPending failure

/-- The section at the top of the loop and the way to `do_acquire`; `none` while
the worker has to wait. -/
def takeSubmission (thread : RasterThread) : Option RasterThread :=
  match thread.state.pending with
  | [] => if thread.state.stopping then some { thread with worker := .exited } else none
  | submission :: pending =>
    some { thread with
      state := { thread.state with pending, rendering := true }
      worker := if submission.request.valid then .acquiring submission
        else .failing submission (.invalidArgument "RasterSurface received an invalid request")
      log := thread.log ++ [.started submission.ticket] }

/-- The destructor of a frame. -/
def destroyFrame (frame : Nat) (active : Bool) : List RasterEvent :=
  if active then [.frameEnded frame .abandoned] else []

/-- The worker's switch over an acquisition that was not rejected. -/
def acquired (submission : Submission) (frame : Nat) : SurfaceAcquireStatus → WorkerPoint
  | .ready => .rendering submission frame true
  | .unavailable => .settling submission .unavailable
  | .outOfDate => .settling submission .outOfDate
  | .lost => .failing submission (.runtimeError "Raster surface was lost")
  | .consumed =>
    .failing submission (.logicError "Raster surface returned consumed acquisition")

/-- The events of a frame that comes with an acquisition. -/
def frameEvents (frame ticket : Nat) (returned : SurfaceFrame) : List RasterEvent :=
  .acquired frame ticket :: (returned.ended.map (.frameEnded frame)).toList

/-- `do_acquire` returns or throws. A frame of a rejected acquisition is destroyed
with it. -/
def surfaceReturns (thread : RasterThread) (submission : Submission)
    (returned : Except Failure SurfaceAcquisition) : RasterThread :=
  match returned with
  | .error failure => { thread with worker := .failing submission failure }
  | .ok acquisition =>
    let frame := thread.frames
    let events := acquisition.frame.elim [] (frameEvents frame submission.ticket)
    let frames := if acquisition.frame.isSome then thread.frames + 1 else thread.frames
    match acquisition.rejected submission.request with
    | some failure =>
      { thread with
        frames
        worker := .failing submission failure
        log := thread.log ++ (events ++ acquisition.frame.elim [] fun returned =>
          destroyFrame frame returned.ended.isNone) }
    | none =>
      { thread with
        frames
        worker := acquired submission frame acquisition.status
        log := thread.log ++ events }

/-- The renderer ends the frame itself; a frame that has ended throws. -/
def rendererEnds (thread : RasterThread) (submission : Submission) (frame : Nat) (active : Bool)
    (how : FrameEnd) : RasterThread :=
  { thread with
    worker := .rendering submission frame false
    log := thread.log ++ if active then [.frameEnded frame how] else [] }

/-- `render` returns or throws. Then the frame is presented, which throws where it
has ended; the frame is destroyed with what is thrown. -/
def rendererReturns (thread : RasterThread) (submission : Submission) (frame : Nat)
    (active : Bool) (raised : Option Failure) : RasterThread :=
  match raised with
  | some failure =>
    { thread with
      worker := .failing submission failure
      log := thread.log ++ destroyFrame frame active }
  | none =>
    { thread with
      worker := if active then .presenting submission frame
        else .failing submission
          (.logicError "Surface frame transaction is already complete") }

/-- The worker's switch over the status of a frame presented. -/
def presentReturns (thread : RasterThread) (submission : Submission) (frame : Nat)
    (status : Surface.PresentStatus) : RasterThread :=
  { thread with
    worker := match status with
      | .presented => .settling submission .presented
      | .outOfDate => .settling submission .outOfDate
      | .lost =>
        .failing submission (.runtimeError "Raster surface was lost during present")
    log := thread.log ++ [.frameEnded frame (.presented status)] }

/-- The section that completes a submission. -/
def settle (thread : RasterThread) (submission : Submission) (outcome : FrameOutcome) :
    RasterThread :=
  { thread with
    worker := .waiting
    state := { thread.state with rendering := false }
    log := thread.log ++ [.completed submission.ticket (.ok outcome)] }

/-- The section that reports a failure and ends the worker. -/
def fail (thread : RasterThread) (submission : Submission) (raised : Failure) : RasterThread :=
  let failure := thread.state.failure.getD raised
  let failing : RasterThread := { thread with
    worker := .exited
    state := { thread.state with failure := some failure }
    log := thread.log ++ [.failed failure, .completed submission.ticket (.error failure)] }
  let failed := failing.failPending failure
  { failed with state := { failed.state with stopping := true, rendering := false } }

/-- What can happen next: a caller's or the worker's section, or the end of a call
the worker is in. -/
inductive Action where
  | submit (layerTree : LayerTree) (request : SurfaceRequest)
  | requestStop
  | factoryReturns (renderer : Except Failure Bool)
  | surfaceReturns (acquisition : Except Failure SurfaceAcquisition)
  | rendererEnds (how : FrameEnd)
  | rendererReturns (raised : Option Failure)
  | presentReturns (status : Surface.PresentStatus)
  /-- The section before which the worker is. -/
  | work

def step (thread : RasterThread) : Action → Option RasterThread
  | .submit layerTree request => some (thread.submit layerTree request)
  | .requestStop => some thread.requestStop
  | .factoryReturns renderer =>
    match thread.worker with
    | .creating => some (thread.factoryReturns renderer)
    | _ => none
  | .surfaceReturns returned =>
    match thread.worker with
    | .acquiring submission => some (thread.surfaceReturns submission returned)
    | _ => none
  | .rendererEnds how =>
    match thread.worker with
    | .rendering submission frame active => some (thread.rendererEnds submission frame active how)
    | _ => none
  | .rendererReturns raised =>
    match thread.worker with
    | .rendering submission frame active =>
      some (thread.rendererReturns submission frame active raised)
    | _ => none
  | .presentReturns status =>
    match thread.worker with
    | .presenting submission frame => some (thread.presentReturns submission frame status)
    | _ => none
  | .work =>
    match thread.worker with
    | .creationFailed failure => some (thread.reportCreation failure)
    | .waiting => thread.takeSubmission
    | .settling submission outcome => some (thread.settle submission outcome)
    | .failing submission failure => some (thread.fail submission failure)
    | _ => none

end RasterThread

/-- A raster thread from its construction on. -/
def rasterMachine : Transition.Machine RasterThread RasterThread.Action where
  init thread := thread = {}
  step := RasterThread.step

end Dui
