import Dui.Foundation
import Dui.Transition

/-! The protocol state of one Wayland surface: configures and scale changes are
staged, a commit is planned from them and either submitted or discarded, and a
revision counter invalidates a plan that no longer describes the surface. -/
namespace Dui

structure WaylandExtent where
  width : UInt32 := 0
  height : UInt32 := 0
  deriving DecidableEq, Repr

namespace WaylandExtent

/-- The largest extent of the protocol, that of a signed 32-bit integer. -/
def maximum : UInt32 := 2147483647

def valid (extent : WaylandExtent) : Bool :=
  extent.width ≠ 0 && extent.height ≠ 0 && extent.width ≤ maximum && extent.height ≤ maximum

end WaylandExtent

/-- `WaylandSurfaceState::scale_denominator`. -/
def scaleDenominator : UInt64 := 120

structure WaylandCommit where
  generation : UInt64 := 0
  stateRevision : UInt64 := 0
  configureSerial : Option UInt32 := none
  logicalExtent : WaylandExtent := {}
  bufferExtent : WaylandExtent := {}
  bufferScale : UInt32 := 1
  scaleNumerator : UInt32 := 120
  useViewporter : Bool := false
  requestFrameCallback : Bool := false
  deriving DecidableEq, Repr

/-- `WaylandCommit::valid`. -/
def WaylandCommit.valid (commit : WaylandCommit) : Bool :=
  let scaled (logical : UInt32) : UInt64 :=
    (logical.toUInt64 * commit.scaleNumerator.toUInt64 + scaleDenominator - 1) / scaleDenominator
  if commit.generation = 0 ∨ commit.stateRevision = 0 ∨ ¬ commit.logicalExtent.valid ∨
      ¬ commit.bufferExtent.valid ∨ commit.bufferScale = 0 ∨
      WaylandExtent.maximum < commit.bufferScale ∨ commit.scaleNumerator = 0 then
    false
  else if scaled commit.logicalExtent.width ≠ commit.bufferExtent.width.toUInt64 ∨
      scaled commit.logicalExtent.height ≠ commit.bufferExtent.height.toUInt64 then
    false
  else if commit.useViewporter then commit.bufferScale = 1
  else commit.scaleNumerator.toUInt64 % scaleDenominator = 0 ∧
    commit.bufferScale.toUInt64 = commit.scaleNumerator.toUInt64 / scaleDenominator

structure WaylandSurfaceState where
  desiredExtent : WaylandExtent
  appliedExtent : WaylandExtent
  stagedWidth : UInt32 := 0
  stagedHeight : UInt32 := 0
  desiredScale : UInt32 := 120
  appliedScale : UInt32 := 120
  pendingConfigure : Option UInt32 := none
  prepared : Option WaylandCommit := none
  stateRevision : UInt64 := 1
  nextCommitGeneration : UInt64 := 1
  frameCallbackGeneration : UInt64 := 0
  fractionalScaleSupported : Bool := false
  initialCommitStarted : Bool := false
  configured : Bool := false
  dirty : Bool := false
  frameDemand : Bool := false
  deriving DecidableEq, Repr

/-- The largest value of a 64-bit counter. -/
def maxCounter : UInt64 := 18446744073709551615

def maxUInt32 : UInt64 := 4294967295

/-- `checked_buffer_dimension`: the logical dimension scaled and rounded up. -/
def checkedBufferDimension (logical : UInt32) (numerator : UInt64) : Except Failure UInt32 :=
  let scaled := logical.toUInt64 * numerator
  let rounded := (scaled + scaleDenominator - 1) / scaleDenominator
  if rounded = 0 ∨ WaylandExtent.maximum.toUInt64 < rounded then
    .error (.overflowError "Wayland buffer extent overflow")
  else .ok rounded.toUInt32

namespace WaylandSurfaceState

/-- The constructor. -/
def create (initialExtent : WaylandExtent) (fractionalScaleSupported : Bool) :
    Except Failure WaylandSurfaceState :=
  if ¬ initialExtent.valid then
    .error (.invalidArgument "Wayland surface requires a nonzero initial extent")
  else .ok { desiredExtent := initialExtent, appliedExtent := initialExtent,
             fractionalScaleSupported }

def beginInitialCommit (state : WaylandSurfaceState) : Bool × WaylandSurfaceState :=
  if state.initialCommitStarted then (false, state)
  else (true, { state with initialCommitStarted := true })

def receiveToplevelConfigure (state : WaylandSurfaceState) (width height : UInt32) :
    Except Failure WaylandSurfaceState :=
  if WaylandExtent.maximum < width ∨ WaylandExtent.maximum < height then
    .error (.invalidArgument "Wayland toplevel extent exceeds protocol range")
  else .ok { state with stagedWidth := width, stagedHeight := height }

/-- Every new revision invalidates the plan of the old one. -/
def advanceRevision (state : WaylandSurfaceState) : Except Failure WaylandSurfaceState :=
  if state.stateRevision = maxCounter then
    .error (.overflowError "Wayland surface state revision exhausted")
  else .ok { state with stateRevision := state.stateRevision + 1, prepared := none }

def receiveSurfaceConfigure (state : WaylandSurfaceState) (serial : UInt32) :
    Except Failure WaylandSurfaceState :=
  if ¬ state.initialCommitStarted then
    .error (.invalidArgument "Invalid Wayland surface configure")
  else do
    let state ← state.advanceRevision
    .ok { state with
      desiredExtent := {
        width := if state.stagedWidth ≠ 0 then state.stagedWidth else state.desiredExtent.width
        height := if state.stagedHeight ≠ 0 then state.stagedHeight else state.desiredExtent.height }
      stagedWidth := 0
      stagedHeight := 0
      pendingConfigure := some serial
      dirty := true }

def setPreferredScale (state : WaylandSurfaceState) (numerator : UInt32) :
    Except Failure WaylandSurfaceState :=
  if numerator = 0 then .error (.invalidArgument "Wayland preferred scale must be nonzero")
  else if state.desiredScale = numerator then .ok state
  else do
    let state ← state.advanceRevision
    .ok { state with
      desiredScale := numerator
      dirty := state.dirty || state.configured || state.pendingConfigure.isSome }

def requestFrame (state : WaylandSurfaceState) : WaylandSurfaceState :=
  { state with frameDemand := true }

def bufferLost (state : WaylandSurfaceState) : Except Failure WaylandSurfaceState :=
  if ¬ state.configured ∧ state.pendingConfigure.isNone then .ok state
  else do
    let state ← state.advanceRevision
    .ok { state with dirty := true }

/-- A surface without fractional scales is drawn at the next integer scale. -/
def effectiveScale (fractionalScaleSupported : Bool) (desiredScale : UInt32) : UInt64 :=
  if fractionalScaleSupported then desiredScale.toUInt64
  else ((desiredScale.toUInt64 + scaleDenominator - 1) / scaleDenominator) * scaleDenominator

def canRequestFrame (state : WaylandSurfaceState) : Bool :=
  state.frameDemand && state.frameCallbackGeneration == 0

def prepareCommit (state : WaylandSurfaceState) :
    Except Failure (Option WaylandCommit × WaylandSurfaceState) :=
  if ¬ state.initialCommitStarted ∨ (¬ state.configured ∧ state.pendingConfigure.isNone) ∨
      state.prepared.isSome then
    .ok (none, state)
  else if ¬ state.dirty ∧ state.pendingConfigure.isNone ∧ ¬ state.canRequestFrame then
    .ok (none, state)
  else if state.nextCommitGeneration = maxCounter then
    .error (.overflowError "Wayland commit generation exhausted")
  else
    let scale := effectiveScale state.fractionalScaleSupported state.desiredScale
    if maxUInt32 < scale then .error (.overflowError "Wayland effective scale overflow")
    else
      let integerScale := (scale + scaleDenominator - 1) / scaleDenominator
      if maxUInt32 < integerScale then
        .error (.overflowError "Wayland integer buffer scale overflow")
      else do
        let width ← checkedBufferDimension state.desiredExtent.width scale
        let height ← checkedBufferDimension state.desiredExtent.height scale
        let commit : WaylandCommit := {
          generation := state.nextCommitGeneration
          stateRevision := state.stateRevision
          configureSerial := state.pendingConfigure
          logicalExtent := state.desiredExtent
          bufferExtent := ⟨width, height⟩
          bufferScale := if state.fractionalScaleSupported then 1 else integerScale.toUInt32
          scaleNumerator := scale.toUInt32
          useViewporter := state.fractionalScaleSupported
          requestFrameCallback := state.canRequestFrame }
        .ok (some commit, { state with
          prepared := some commit
          nextCommitGeneration := state.nextCommitGeneration + 1 })

def submitCommit (state : WaylandSurfaceState) (commit : WaylandCommit) :
    Bool × WaylandSurfaceState :=
  if state.prepared ≠ some commit ∨ commit.stateRevision ≠ state.stateRevision then (false, state)
  else (true, { state with
    appliedExtent := state.desiredExtent
    appliedScale := commit.scaleNumerator
    pendingConfigure := none
    dirty := false
    configured := true
    frameCallbackGeneration :=
      if commit.requestFrameCallback then commit.generation else state.frameCallbackGeneration
    frameDemand := if commit.requestFrameCallback then false else state.frameDemand
    prepared := none })

def discardCommit (state : WaylandSurfaceState) (commit : WaylandCommit) :
    Bool × WaylandSurfaceState :=
  if state.prepared ≠ some commit then (false, state)
  else (true, { state with prepared := none, dirty := true })

def frameDone (state : WaylandSurfaceState) (generation : UInt64) : Bool × WaylandSurfaceState :=
  if generation = 0 ∨ state.frameCallbackGeneration ≠ generation then (false, state)
  else (true, { state with frameCallbackGeneration := 0 })

end WaylandSurfaceState

/-- The calls of the native adapter, with any arguments. -/
inductive SurfaceCall where
  | beginInitialCommit
  | receiveToplevelConfigure (width height : UInt32)
  | receiveSurfaceConfigure (serial : UInt32)
  | setPreferredScale (numerator : UInt32)
  | requestFrame
  | bufferLost
  | prepareCommit
  | submitCommit (commit : WaylandCommit)
  | discardCommit (commit : WaylandCommit)
  | frameDone (generation : UInt64)
  deriving DecidableEq, Repr

/-- What a call returns. -/
inductive SurfaceReply where
  | unit
  | flag (value : Bool)
  | plan (commit : Option WaylandCommit)
  deriving DecidableEq, Repr

namespace WaylandSurfaceState

def perform (state : WaylandSurfaceState) :
    SurfaceCall → Except Failure (SurfaceReply × WaylandSurfaceState)
  | .beginInitialCommit => .ok (.flag state.beginInitialCommit.1, state.beginInitialCommit.2)
  | .receiveToplevelConfigure width height =>
    (state.receiveToplevelConfigure width height).map (.unit, ·)
  | .receiveSurfaceConfigure serial => (state.receiveSurfaceConfigure serial).map (.unit, ·)
  | .setPreferredScale numerator => (state.setPreferredScale numerator).map (.unit, ·)
  | .requestFrame => .ok (.unit, state.requestFrame)
  | .bufferLost => state.bufferLost.map (.unit, ·)
  | .prepareCommit => state.prepareCommit.map fun result => (.plan result.1, result.2)
  | .submitCommit commit =>
    .ok (.flag (state.submitCommit commit).1, (state.submitCommit commit).2)
  | .discardCommit commit =>
    .ok (.flag (state.discardCommit commit).1, (state.discardCommit commit).2)
  | .frameDone generation =>
    .ok (.flag (state.frameDone generation).1, (state.frameDone generation).2)

end WaylandSurfaceState

end Dui
